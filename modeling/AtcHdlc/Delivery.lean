import AtcHdlc.Rejection
import AtcHdlc.World

/-! What reaches the application. The receive side bounds an information field by the receive buffer, and
its length by 16 bits; `max_info_size` is for the sender alone. -/

namespace AtcHdlc

/-- The frames whose information field a station in this state gives to `on_data`. -/
def Hands (s : Ctx) (f : Received) : Prop :=
  match s.currentState with
  | .disconnected => isUframe f.ctrl = true ∧ uCmd f.ctrl = .ui
  | .connected =>
      if isUframe f.ctrl then
        uCmd f.ctrl = .ui ∨ uCmd f.ctrl = .test ∧ isCmd s f.address = false ∧ f.info.isSome = true
      else isIframe f.ctrl = true ∧ nrValid s (ctrlNr f.ctrl) = true ∧ ctrlNs f.ctrl = s.vr
  | _ => False

instance (s : Ctx) (f : Received) : Decidable (Hands s f) := by
  unfold Hands
  cases s.currentState <;> infer_instance

section Hand

variable (st : Station)

/-- The payloads that a frame adds to those `on_data` has been given. -/
def handed (s : Ctx) (f : Received) : List (List UInt8) :=
  if st.platform.onData.isSome = true ∧ Hands s f then [f.info.getD []] else []

variable {st}

theorem payloads_dataObs (payload : List UInt8) :
    payloads (dataObs st payload) = if st.platform.onData.isSome = true then [payload] else [] := by
  unfold dataObs
  split_ifs
  · rfl
  · rfl

theorem payloads_eventObs (event : Event) : payloads (eventObs st event) = [] := by
  unfold eventObs
  split_ifs
  · rfl
  · rfl

theorem payloads_opened (s : Ctx) (nr : Nat) : payloads (opened st s nr) = [] := by
  unfold opened
  split_ifs
  · rfl
  · cases st.txWindow with
    | none => rfl
    | some w =>
        dsimp only
        split_ifs
        · exact payloads_eventObs _
        · rfl

namespace LinkView

theorem payloads_tell (v : LinkView) (os : List Obs) :
    payloads (v.tell os).told = payloads v.told ++ payloads os := payloads_append _ _

theorem payloads_tell_nil (v : LinkView) {os : List Obs} (h : payloads os = []) :
    payloads (v.tell os).told = payloads v.told := by
  rw [payloads_tell, h, List.append_nil]

theorem payloads_leave (v : LinkView) (state : State) (event : Event) :
    payloads (v.leave st state event).told = payloads v.told :=
  payloads_tell_nil _ (payloads_eventObs event)

theorem payloads_accept (v : LinkView) (pf : Bool) : payloads (v.accept st pf).told = payloads v.told :=
  payloads_tell_nil _ (payloads_eventObs _)

theorem told_acknowledge (v : LinkView) (pf : Bool) : (v.acknowledge st pf).told = v.told := by
  unfold acknowledge
  split_ifs <;> rfl

theorem told_refuse (v : LinkView) (pf : Bool) : (v.refuse st pf).told = v.told := by
  unfold refuse
  split_ifs <;> rfl

theorem told_poll (v : LinkView) (polled : Bool) : (v.poll st polled).told = v.told := by
  unfold poll
  split_ifs <;> rfl

theorem payloads_busy (v : LinkView) (kind : Nat) : payloads (v.busy st kind).told = payloads v.told := by
  unfold busy
  split_ifs
  · exact payloads_tell_nil _ (payloads_eventObs _)
  · exact payloads_tell_nil _ rfl
  · exact payloads_tell_nil _ rfl
  · exact payloads_tell_nil _ (payloads_eventObs _)
  · rfl
  · rfl

theorem payloads_receive (v : LinkView) (pf : Bool) (payload : List UInt8) :
    payloads (v.receive st pf payload).told = payloads v.told ++ payloads (dataObs st payload) := by
  unfold receive
  rw [told_acknowledge, payloads_tell]

/-- A frame that is for the application is given to it. -/
theorem payloads_next_of_hands {s : Ctx} {f : Received} (h : Hands s f) :
    payloads ((linkView s).next st s f).told =
      payloads (linkView s).told ++ payloads (dataObs st (f.info.getD [])) := by
  unfold Hands at h
  unfold next
  cases hstate : s.currentState with
  | disconnected =>
      simp only [hstate] at h
      simp only [h.1, h.2]
      exact payloads_tell _ _
  | connected =>
      simp only [hstate] at h
      split_ifs at h with hu
      · simp only [hu, if_true, unnumbered]
        rcases h with hui | ⟨htest, hcmd, hinfo⟩
        · simp only [hui]
          exact payloads_tell _ _
        · obtain ⟨payload, hpayload⟩ := Option.isSome_iff_exists.mp hinfo
          simp only [htest, hcmd, hpayload, Bool.false_eq_true, if_false]
          exact payloads_tell _ _
      · obtain ⟨hi, hvalid, hseq⟩ := h
        simp only [hu, hi, hvalid, hseq, Bool.false_eq_true, if_false, if_true, not_true]
        rw [payloads_receive, payloads_tell_nil _ (payloads_opened s _)]
  | connecting | disconnecting | frmrError =>
      simp only [hstate] at h

theorem payloads_unnumbered_of_not_hands (v : LinkView) (s : Ctx) {f : Received} (hui : uCmd f.ctrl ≠ .ui)
    (htest : uCmd f.ctrl = .test → isCmd s f.address = false → f.info = none) :
    payloads (v.unnumbered st s f).told = payloads v.told := by
  unfold unnumbered
  cases hc : uCmd f.ctrl with
  | ui => exact absurd hc hui
  | test =>
      cases hcmd : isCmd s f.address with
      | true => rfl
      | false =>
          simp only [htest hc hcmd, Bool.false_eq_true, if_false]
  | sabm => exact payloads_accept v _
  | disc | dm | frmr => exact payloads_leave _ _ _
  | snrm | sabme | snrme | sarme => rfl
  | ua | unknown => rfl

/-- No other frame is. -/
theorem payloads_next_of_not_hands {s : Ctx} {f : Received} (h : ¬Hands s f) :
    payloads ((linkView s).next st s f).told = payloads (linkView s).told := by
  unfold Hands at h
  unfold next
  cases hstate : s.currentState with
  | disconnected =>
      simp only [hstate] at h
      cases hu : isUframe f.ctrl with
      | false => rfl
      | true =>
          cases hc : uCmd f.ctrl with
          | sabm => exact payloads_accept _ _
          | ui => exact absurd ⟨hu, hc⟩ h
          | _ => rfl
  | connecting =>
      cases isUframe f.ctrl with
      | false => rfl
      | true =>
          cases uCmd f.ctrl with
          | ua | dm =>
              cases ctrlPf f.ctrl with
              | false => rfl
              | true => exact payloads_leave _ _ _
          | _ => rfl
  | connected =>
      simp only [hstate] at h
      by_cases hu : isUframe f.ctrl = true
      · simp only [hu, if_true, not_or, not_and] at h ⊢
        refine payloads_unnumbered_of_not_hands _ s h.1 fun htest hcmd => ?_
        exact Option.not_isSome_iff_eq_none.mp (h.2 htest hcmd)
      · simp only [hu, Bool.false_eq_true, if_false] at h ⊢
        by_cases hi : isIframe f.ctrl = true
        · simp only [hi, if_true]
          split_ifs with hvalid hseq
          · exact absurd ⟨hi, hvalid, hseq⟩ h
          · rw [told_refuse, payloads_tell_nil _ (payloads_opened s _)]
          · exact payloads_leave _ _ _
        · simp only [hi, Bool.false_eq_true, if_false]
          have hheard (polled : Bool) :
              payloads (((linkView s).busy st (ctrlS f.ctrl)).poll st polled).told = payloads (linkView s).told := by
            rw [told_poll, payloads_busy]
          split_ifs
          · exact (payloads_tell_nil _ (payloads_opened s _)).trans (hheard _)
          · exact (payloads_leave _ _ _).trans (hheard _)
  | disconnecting =>
      cases isUframe f.ctrl with
      | false => cases ctrlPf f.ctrl <;> rfl
      | true =>
          cases uCmd f.ctrl with
          | ua | dm =>
              cases ctrlPf f.ctrl with
              | false => rfl
              | true => exact payloads_leave _ _ _
          | _ => rfl
  | frmrError =>
      dsimp only
      split_ifs
      · exact payloads_accept _ _
      · rfl

end LinkView

theorem payloads_dispatch (hp : st.platform.Passive) (s : Ctx) (f : Received) :
    payloads (f.dispatch st s).trace = payloads s.trace ++ handed st s f := by
  have htold (t : Ctx) : payloads t.trace = payloads (linkView t).told := (payloads_upper t.trace).symm
  rw [htold, htold, dispatchFrame_linkView hp, handed]
  by_cases hhands : Hands s f
  · rw [LinkView.payloads_next_of_hands hhands, payloads_dataObs]
    simp only [hhands, and_true]
  · rw [LinkView.payloads_next_of_not_hands hhands, if_neg fun h => hhands h.2, List.append_nil]

end Hand

section Bounds

variable {st : Station}

/-- What the receive side bounds: the parser stays within the buffer, and a payload is what four octets of
the buffer leave, with its length in 16 bits. -/
structure Bounded (st : Station) (s : Ctx) : Prop where
  index : s.rxIndex ≤ st.rxCapacity
  payload : ∀ payload ∈ payloads s.trace,
    st.platform.onData.isSome = true ∧ payload.length ≤ st.rxCapacity - 4 ∧ payload.length ≤ 65535

theorem readBuffer_length (s : Ctx) (start n : Nat) : (readBuffer s start n).length = n := by
  simp [readBuffer]

theorem completed_info_length {s : Ctx} {byte : UInt8} {f : Received} (h : completed s byte = some f) :
    (f.info.getD []).length ≤ s.rxIndex - 4 ∧ (f.info.getD []).length ≤ 65535 := by
  unfold completed at h
  extract_lets dlen at h
  split_ifs at h
  · obtain rfl := Option.some.inj h
    have hmod : (dlen - (addrLen + ctrlLen)) % 2 ^ 16 < 2 ^ 16 := Nat.mod_lt _ (by decide)
    have hle : (dlen - (addrLen + ctrlLen)) % 2 ^ 16 ≤ dlen - (addrLen + ctrlLen) := Nat.mod_le _ _
    simp only [Option.getD_some, readBuffer_length]
    simp only [dlen, addrLen, ctrlLen, fcsLen] at hmod hle ⊢
    omega
  · obtain rfl := Option.some.inj h
    simp

theorem rxStore_index (s : Ctx) (octet : UInt8) :
    (rxStore st s octet).rxIndex ≤ st.rxCapacity := by
  have hnext (hroom : ¬s.rxIndex ≥ st.rxCapacity) : s.rxIndex + 1 ≤ st.rxCapacity := Nat.lt_of_not_le hroom
  rw [rxStore_eq]
  split_ifs with hfull
  · exact Nat.zero_le _
  · exact hnext hfull
  · exact Nat.zero_le _
  · exact hnext hfull

theorem rxByte_index {s : Ctx} (h : s.rxIndex ≤ st.rxCapacity) (byte : UInt8) :
    (rxByte st s byte).rxIndex ≤ st.rxCapacity := by
  by_cases hbyte : byte = flag
  · rw [hbyte]
    rcases @rxByte_flag_cases st s with hreset | ⟨address, ctrl, info, hreset⟩
    · rw [hreset]
      exact Nat.zero_le _
    · rw [hreset]
      exact Nat.zero_le _
  · rw [rxByte, if_neg hbyte]
    split_ifs
    · exact h
    · exact h
    · exact rxStore_index _ _
    · exact rxStore_index s byte

theorem Bounded.rxByte (hp : st.platform.Passive) {s : Ctx} (h : Bounded st s) (byte : UInt8) :
    Bounded st (rxByte st s byte) := by
  refine ⟨rxByte_index h.index byte, fun payload hmem => ?_⟩
  rw [rxByte_completed] at hmem
  cases hf : completed s byte with
  | none =>
      rw [hf] at hmem
      exact h.payload payload hmem
  | some f =>
      rw [hf] at hmem
      have htold : payload ∈ payloads s.trace ++ handed st s f := by
        rw [← payloads_dispatch hp]
        exact hmem
      rcases List.mem_append.mp htold with hold | hnew
      · exact h.payload payload hold
      · unfold handed at hnew
        split_ifs at hnew with hhands
        · obtain ⟨hindex, hshort⟩ := completed_info_length hf
          have hcap := h.index
          rw [List.mem_singleton.mp hnew]
          exact ⟨hhands.1, by omega, hshort⟩
        · exact absurd hnew List.not_mem_nil

theorem Bounded.rxBytes (hp : st.platform.Passive) {s : Ctx} (h : Bounded st s) (bytes : List UInt8) :
    Bounded st (rxBytes st s bytes) := by
  induction bytes generalizing s with
  | nil => exact h
  | cons byte bytes ih => exact ih (h.rxByte hp byte)

/-- The parser's place in the buffer is no concern of the other calls. -/
theorem Deed.rxIndex_eq (hp : st.platform.Passive) {call : Call} {s s' : Ctx} (h : Deed st call s s') :
    s'.rxIndex = s.rxIndex := by
  cases h with
  | event event =>
      rw [onEvent_passive hp]
      rfl
  | reset _ => rw [resetState_eq]
  | _ => rfl

/-- What the other calls tell the application is events, never data. -/
theorem Deed.payloads_eq (hp : st.platform.Passive) {call : Call} {s s' : Ctx} (h : Deed st call s s') :
    payloads s'.trace = payloads s.trace := by
  have hlogs {t : Ctx} {os : List Obs} (htrace : t.trace = s.trace ++ os) (hnil : payloads os = []) :
      payloads t.trace = payloads s.trace := by
    rw [htrace, payloads_append, hnil, List.append_nil]
  cases h with
  | put f => exact hlogs rfl (payloads_of_upper_nil (upper_obs st.crc s.moment f))
  | loose crc os hos _ =>
      refine hlogs rfl (List.filterMap_eq_nil_iff.mpr fun o ho => ?_)
      have hloose := hos o ho
      cases o <;> first | exact hloose.elim | rfl
  | t1Start =>
      refine hlogs rfl ?_
      split_ifs <;> rfl
  | t2Stop =>
      refine hlogs rfl ?_
      split_ifs <;> rfl
  | event event =>
      rw [onEvent_passive hp]
      exact hlogs rfl (payloads_eventObs event)
  | reset _ =>
      have hupper : upper (resetState st s).trace = upper s.trace :=
        congrArg LinkView.told (linkView_resetState s)
      rw [← payloads_upper, hupper, payloads_upper]
  | accept w data _ _ => exact hlogs rfl rfl
  | _ => rfl

theorem Call.rxIndex_eq (hp : st.platform.Passive) (s : Ctx) {call : Call} (hlegal : call.Legal)
    (hin : ∀ bytes, call ≠ .dataIn bytes) : (call.run st s).rxIndex = s.rxIndex :=
  (Call.deeds st s hlegal hin).induct (P := fun t => t.rxIndex = s.rxIndex)
    (fun _ _ hd h => (hd.rxIndex_eq hp).trans h) rfl

theorem Call.payloads_eq (hp : st.platform.Passive) (s : Ctx) {call : Call} (hlegal : call.Legal)
    (hin : ∀ bytes, call ≠ .dataIn bytes) : payloads (call.run st s).trace = payloads s.trace :=
  (Call.deeds st s hlegal hin).induct (P := fun t => payloads t.trace = payloads s.trace)
    (fun _ _ hd h => (hd.payloads_eq hp).trans h) rfl

theorem retransmitIfPending_payloads {s : Ctx} (hinv : ∀ w, st.txWindow = some w → WindowInv w s) :
    payloads (retransmitIfPending st s).trace = payloads s.trace := by
  have hpayloads := congrArg (fun t => payloads t.trace) (retransmitIfPending_vis hinv)
  simp only [vis, payloads_upper] at hpayloads
  exact hpayloads

theorem Call.bounded (hp : st.platform.Passive) {s : Ctx} (hs : Bounded st s)
    (hinv : ∀ w, st.txWindow = some w → WindowInv w s) {call : Call} (hlegal : call.Legal) :
    Bounded st (call.run st s) := by
  by_cases hchunk : ∃ bytes, call = .dataIn bytes
  · obtain ⟨bytes, rfl⟩ := hchunk
    have hread := hs.rxBytes hp bytes
    have hinv' : ∀ w, st.txWindow = some w → WindowInv w (rxBytes st s bytes) := fun w hw =>
      (hinv w hw).rxBytes hp bytes
    refine ⟨?_, fun payload hmem => hread.payload payload ?_⟩
    · exact (congrArg Ctx.rxIndex (retransmitIfPending_vis hinv')).trans_le hread.index
    · rw [← retransmitIfPending_payloads hinv']
      exact hmem
  · have hin : ∀ bytes, call ≠ .dataIn bytes := fun bytes h => hchunk ⟨bytes, h⟩
    refine ⟨(Call.rxIndex_eq hp s hlegal hin).trans_le hs.index, fun payload hmem => hs.payload payload ?_⟩
    rw [← Call.payloads_eq hp s hlegal hin]
    exact hmem

theorem Reachable.bounded (hp : st.platform.Passive) {mem : Memory} {s : Ctx} (h : Reachable st mem s) :
    Bounded st s := by
  induction h with
  | init => exact ⟨Nat.zero_le _, by simp [initCtx, payloads]⟩
  | call call hs hlegal ih => exact Call.bounded hp ih (fun w hw => hs.windowInv hw hp) hlegal

/-- A UI frame that every station accepts. -/
def broadcastUi (payload : List UInt8) : Frame := ⟨broadcastAddress, uCtrl uUi false, payload⟩

/-- A station that has just been initialised gives the payload of a broadcast to the application. -/
theorem payloads_broadcastUi (hp : st.platform.Passive) (mem : Memory) (hdata : st.platform.onData.isSome = true)
    {payload : List UInt8} (hfits : payload.length + 4 ≤ st.rxCapacity) :
    payloads (rxBytes st (initCtx st mem) ((broadcastUi payload).octets st.crc)).trace =
      [heardInfo payload] := by
  have haccepted : Accepted (initCtx st mem).myAddress (initCtx st mem).peerAddress broadcastAddress :=
    Or.inr (Or.inr rfl)
  obtain ⟨t, ht⟩ := @rxBytes_octets st (initCtx st mem) rfl (broadcastUi payload)
  rw [if_pos ⟨haccepted, hfits⟩] at ht
  have hhands : Hands ((initCtx st mem).withParser t) (broadcastUi payload).arriving :=
    ⟨(by decide : isUframe (uCtrl uUi false) = true), (by decide : uCmd (uCtrl uUi false) = .ui)⟩
  calc payloads (rxBytes st (initCtx st mem) ((broadcastUi payload).octets st.crc)).trace
      = payloads ((broadcastUi payload).arriving.dispatch st ((initCtx st mem).withParser t)).trace := by
        rw [ht]
        rfl
    _ = payloads (initCtx st mem).trace ++ handed st ((initCtx st mem).withParser t) _ :=
        payloads_dispatch hp _ _
    _ = [heardInfo payload] := by
        rw [handed, if_pos ⟨hdata, hhands⟩, arriving_info]
        rfl

/-- Every payload given to `on_data` has come through the receive buffer and has a length of 16 bits. It is within
`max_info_size` besides just when nobody listens, the receive buffer has no room for a longer frame, or the 16 bits
of a length do not reach beyond `max_info_size`. -/
theorem delivered_within_iff (hp : st.platform.Passive) (mem : Memory) :
    (∀ s, Reachable st mem s → ∀ payload ∈ payloads s.trace,
      payload.length + 4 ≤ st.rxCapacity ∧ payload.length ≤ 65535) ∧
    ((∀ s, Reachable st mem s → ∀ payload ∈ payloads s.trace, payload.length ≤ st.config.maxInfoSize) ↔
      st.platform.onData = none ∨ st.rxCapacity ≤ st.config.maxInfoSize + 4 ∨
        65535 ≤ st.config.maxInfoSize) := by
  refine ⟨fun s hs payload hmem => ?_, ?_, ?_⟩
  · obtain ⟨-, hroom, hlength⟩ := (hs.bounded hp).payload payload hmem
    have hmin : 4 ≤ st.rxCapacity := st.rxCapacity_frame
    exact ⟨by omega, hlength⟩
  · intro hwithin
    by_contra hlarge
    simp only [not_or, Nat.not_le] at hlarge
    obtain ⟨hdata, hroom, hshort⟩ := hlarge
    set payload : List UInt8 := List.replicate (st.config.maxInfoSize + 1) 0 with hpayload
    have hlength : payload.length = st.config.maxInfoSize + 1 := List.length_replicate
    have hread := payloads_broadcastUi hp mem (Option.isSome_iff_ne_none.mpr hdata)
      (by rw [hlength]; omega : payload.length + 4 ≤ st.rxCapacity)
    have hcall : Reachable st mem
        (Call.run st (initCtx st mem) (.dataIn ((broadcastUi payload).octets st.crc))) :=
      Reachable.init.call _ trivial
    have hend := retransmitIfPending_vis fun w hw =>
      ((@Reachable.init st mem).windowInv hw hp).rxBytes hp ((broadcastUi payload).octets st.crc)
    have htold := congrArg (fun t => payloads t.trace) hend
    simp only [vis, payloads_upper] at htold
    rw [hread, heardInfo_of_le (by omega)] at htold
    have hmem : payload ∈ payloads
        (Call.run st (initCtx st mem) (.dataIn ((broadcastUi payload).octets st.crc))).trace :=
      htold.symm ▸ List.mem_singleton_self payload
    have hbad := hwithin _ hcall payload hmem
    omega
  · rintro hsmall s hs payload hmem
    obtain ⟨hdata, hroom, hlength⟩ := (hs.bounded hp).payload payload hmem
    rcases hsmall with hnone | hcap | hwide
    · rw [hnone] at hdata
      exact absurd hdata (by decide)
    · omega
    · omega

/-- A station for four octets of information with a receive buffer for `rxCapacity` octets. -/
def smallStation (rxCapacity : Nat) (hcap : 8 ≤ rxCapacity) : Station where
  config := ⟨modeAbm, 0x01, 4, 3, 1000, 10⟩
  platform := mockPlatform
  crc := crcOpsDefault
  txWindow := none
  rxCapacity := rxCapacity
  mode_abm := rfl
  rxCapacity_min := by simpa using hcap
  rxCapacity_frame := by omega
  slotCapacity_min := by simp

theorem delivered_within_iff_small :
    let st := smallStation 8 (by decide)
    st.rxCapacity = st.config.maxInfoSize + 4 ∧ ∀ s, Reachable st zeroMemory s →
      ∀ payload ∈ payloads s.trace, payload.length ≤ st.config.maxInfoSize :=
  ⟨rfl, (delivered_within_iff mockPlatform_passive zeroMemory).2.mpr (Or.inr (Or.inl (by decide)))⟩

/-- One octet more in the receive buffer, and five octets reach the application. -/
theorem delivered_beyond_max :
    ∃ s, Reachable (smallStation 9 (by decide)) zeroMemory s ∧
      ∃ payload ∈ payloads s.trace, payload.length > (smallStation 9 (by decide)).config.maxInfoSize :=
  ⟨_, Reachable.init.call (.dataIn ((broadcastUi [1, 2, 3, 4, 5]).octets crcOpsDefault)) trivial,
    [1, 2, 3, 4, 5], by decide +kernel, by decide⟩

end Bounds

/-! ### From the parameters to the application -/

section Carry

variable {st : Station}

/-- An accepted call of one of the three transmit functions, and the frame that it sends. -/
inductive Transmits (st : Station) (s : Ctx) : Call → Frame → Prop where
  | i (data : Payload) (hdata : data.NonNull) (hok : (transmitI st s data).1 = .ok) :
      Transmits st s (.transmitI data) ⟨s.peerAddress, iCtrl s.vs s.vr false, data.read⟩
  | ui (address : UInt8) (data : Payload) (hok : (transmitUi st s address data).1 = .ok) :
      Transmits st s (.transmitUi address data) ⟨address, uCtrl uUi false, data.read⟩
  | test (address : UInt8) (data : Payload) (hok : (transmitTest st s address data).1 = .ok) :
      Transmits st s (.transmitTest address data) ⟨address, uCtrl uTest true, data.read⟩

theorem transmitU_ok {s : Ctx} {ctrl address : UInt8} {data : Payload}
    (hok : (transmitU st s ctrl address data).1 = .ok) :
    data.NonNull ∧ data.len ≤ st.config.maxInfoSize ∧
      (transmitU st s ctrl address data).2 = s.put st ⟨address, ctrl, data.read⟩ := by
  unfold transmitU at hok ⊢
  split_ifs at hok ⊢ with hnull hlen
  have hdata : data.NonNull := Payload.nonNull_iff.mpr hnull
  exact ⟨hdata, Nat.le_of_not_lt hlen, frameSend_of_nonNull st s address ctrl hdata⟩

theorem linkView_acceptI {w : TxWindow} (s : Ctx) {data : Payload} (hdata : data.NonNull) :
    linkView (acceptI st w s data) =
      ((linkView s).say st.crc ⟨s.peerAddress, iCtrl s.vs s.vr false, data.read⟩).stopT2 := by
  rw [acceptI_eq s hdata]
  extract_lets next filled' stored sent stopped
  have hstored : linkView stored = linkView s :=
    @linkView_logs s [.accept data.read] rfl rfl (by simp [Plain])
  have hsent : linkView sent = (linkView stored).say st.crc ⟨s.peerAddress, iCtrl s.vs s.vr false, data.read⟩ :=
    linkView_put stored _
  have hstopped : linkView stopped = (linkView sent).stopT2 :=
    linkView_t2Stop { sent with vs := (s.vs + 1) % mod8 }
  split_ifs
  · rw [linkView_t1Start, hstopped, hsent, hstored]
  · rw [hstopped, hsent, hstored]

/-- The frame goes out octet for octet, and its information field is within `max_info_size`. -/
theorem Transmits.sends {s : Ctx} {call : Call} {f : Frame} (h : Transmits st s call f) :
    onLine (call.run st s).trace = onLine s.trace ++ f.obs st.crc s.moment ∧
      f.info.length ≤ st.config.maxInfoSize := by
  have hput (g : Frame) : onLine (s.put st g).trace = onLine s.trace ++ g.obs st.crc s.moment :=
    congrArg LinkView.line (linkView_put s g)
  cases h with
  | i data hdata hok =>
      obtain ⟨hlen, w, -, haccepted⟩ := transmitI_ok hok
      refine ⟨(congrArg (onLine ·.trace) haccepted).trans ?_, hdata.length_read.trans_le hlen⟩
      exact congrArg LinkView.line (linkView_acceptI s hdata)
  | ui address data hok | test address data hok =>
      obtain ⟨hdata, hlen, hsent⟩ := transmitU_ok hok
      exact ⟨(congrArg (onLine ·.trace) hsent).trans (hput _), hdata.length_read.trans_le hlen⟩

/-- The frame as its receiver should see it, with the information field whole. -/
def Frame.whole (f : Frame) : Received := ⟨f.address, f.ctrl, if f.info = [] then none else some f.info⟩

theorem Frame.whole_info (f : Frame) : f.whole.info.getD [] = f.info := by
  unfold Frame.whole
  split_ifs with hnil
  · exact hnil.symm
  · rfl

/-- The octets of a frame, after whatever the receiver has read before: at the closing flag all of the frame
is in the buffer, the parser passes it on whole, and what it adds for the application is its information
field. -/
structure Conveyed (st : Station) (r : Ctx) (f : Frame) : Prop where
  stored : (rxBytes st r (f.octets st.crc).dropLast).rxIndex = f.info.length + 4
  heard : completed (rxBytes st r (f.octets st.crc).dropLast) flag = some f.whole
  reported : payloads (rxBytes st r (f.octets st.crc)).trace =
    payloads (rxByte st r flag).trace ++ handed st (rxByte st r flag) f.whole

/-- What the transmit functions of one station accept, every other station with the same parameters can
receive, if the filter lets it pass; and the slots of the window are where they should be. -/
structure Conveys (st : Station) : Prop where
  conveyed : ∀ mem s call f, Reachable st mem s → Transmits st s call f → ∀ mem' r, Reachable st mem' r →
    Accepted (rxByte st r flag).myAddress (rxByte st r flag).peerAddress f.address → Conveyed st r f
  exact : ∀ w ∈ st.txWindow, ∀ slot < w.slotCount, slotOffset w slot = slot * w.slotCapacity
  apart : ∀ w ∈ st.txWindow, SlotsApart w w.slotCapacity

theorem completed_of_keeps {s : Ctx} {seg : List UInt8} (h : Reading st s seg)
    (hkeep : Keeps st s.myAddress s.peerAddress (octetCode.unstuff seg)) :
    s.rxIndex = (octetCode.unstuff seg).length ∧
      completed s flag = some (segmentFrame (octetCode.unstuff seg)).arriving := by
  cases h with
  | hunting hstate hdrop => exact absurd hkeep hdrop.not_keeps
  | storing hstate _ hstored =>
      refine ⟨hstored.index, ?_⟩
      obtain ⟨hmin, hfcs⟩ := (Keeps.iff_of_stored hstored).mp hkeep
      have hpos : 1 < (octetCode.unstuff seg).length := lt_of_lt_of_le (by decide) hkeep.minLength
      unfold completed
      extract_lets dlen
      rw [if_neg (by simpa [hstate, hmin] using hfcs)]
      rw [info_stored hstored hkeep.minLength, hstored.buffer 0 (by omega), hstored.buffer 1 hpos]
      rfl

/-- A frame that fits the buffer, and whose length fits into 16 bits, is carried. -/
theorem conveyed_of_fits (hp : st.platform.Passive) {r : Ctx} {f : Frame}
    (h : Fits st (rxByte st r flag).myAddress (rxByte st r flag).peerAddress f) : Conveyed st r f := by
  set opened := rxByte st r flag with hopened
  have hempty : Reading st opened [] := by
    rcases @rxByte_flag_cases st r with hreset | ⟨address, ctrl, info, hreset⟩
    · rw [hopened, hreset]
      exact Reading.restart r
    · rw [hopened, hreset]
      exact Reading.restart _
  have hflag : flag ∉ octetCode.stuff (f.content st.crc) := octetCode.flag_not_mem_stuff _
  have hread := rxBytes_reading hempty hflag
  rw [List.nil_append] at hread
  have hparser := @rxBytes_withParser st opened _ hflag
  have hdrop : (f.octets st.crc).dropLast = flag :: octetCode.stuff (f.content st.crc) := by
    rw [Frame.octets, ← List.cons_append, List.dropLast_concat]
  have hbody : rxBytes st r (f.octets st.crc).dropLast =
      rxBytes st opened (octetCode.stuff (f.content st.crc)) := by
    rw [hdrop]
    rfl
  have hclosed : rxBytes st r (f.octets st.crc) =
      rxByte st (rxBytes st opened (octetCode.stuff (f.content st.crc))) flag := by
    rw [← rxBytes_snoc]
    rfl
  rw [← hbody] at hread hparser hclosed
  generalize hbuffered : rxBytes st r (f.octets st.crc).dropLast = t at *
  have hmy : t.myAddress = opened.myAddress := by
    rw [hparser]
    rfl
  have hpeer : t.peerAddress = opened.peerAddress := by
    rw [hparser]
    rfl
  have hunstuff : octetCode.unstuff (octetCode.stuff (f.content st.crc)) = f.content st.crc :=
    octetCode.unstuff_stuff _
  have hkeep : Keeps st t.myAddress t.peerAddress
      (octetCode.unstuff (octetCode.stuff (f.content st.crc))) := by
    rw [hmy, hpeer, hunstuff]
    exact h.keeps
  obtain ⟨hindex, hheard⟩ := completed_of_keeps hread hkeep
  rw [hunstuff, f.content_length] at hindex
  rw [hunstuff, segmentFrame_content] at hheard
  have hwhole : f.arriving = f.whole := by
    rw [Frame.arriving, heardInfo_of_le h.length]
    rfl
  rw [hwhole] at hheard
  have hhanded : handed st t f.whole = handed st opened f.whole := by
    rw [hparser]
    rfl
  refine ⟨hbuffered ▸ hindex, hbuffered ▸ hheard, ?_⟩
  rw [hclosed, rxByte_completed, hheard]
  have htrace : t.trace = opened.trace := by
    rw [hparser]
    rfl
  calc payloads (f.whole.dispatch st t).trace
      = payloads t.trace ++ handed st t f.whole := payloads_dispatch hp t f.whole
    _ = payloads opened.trace ++ handed st opened f.whole := by rw [htrace, hhanded]

/-- A UI frame of 65536 octets is never received whole. -/
theorem Conveys.maxInfoSize_le (h : Conveys st) : st.config.maxInfoSize ≤ 65535 := by
  by_contra hlarge
  set payload : List UInt8 := List.replicate 65536 0 with hpayload
  have hlength : payload.length = 65536 := List.length_replicate
  have hok : (transmitUi st (initCtx st zeroMemory) broadcastAddress (.octets payload)).1 = .ok := by
    have hfits : ¬(Payload.octets payload).len > st.config.maxInfoSize := by
      rw [Payload.len, hlength]
      omega
    simp only [transmitUi, transmitU, Payload.isNull, Bool.false_eq_true, false_and, if_false, if_neg hfits]
  have hheard := (h.conveyed zeroMemory _ _ _ .init (.ui broadcastAddress (.octets payload) hok) zeroMemory _
    .init (Or.inr (Or.inr rfl))).heard
  have hshort := (completed_info_length hheard).2
  rw [Frame.whole_info, Payload.read, hlength] at hshort
  omega

theorem conveys_iff (hp : st.platform.Passive) :
    Conveys st ↔ st.config.maxInfoSize ≤ 65535 ∧
      ∀ w ∈ st.txWindow, (w.slotCount - 1) * w.slotCapacity < 2 ^ 32 := by
  constructor
  · refine fun h => ⟨h.maxInfoSize_le, fun w hw => ?_⟩
    have hpos := w.slotCount_pos
    have hlast := h.exact w hw (w.slotCount - 1) (by omega)
    rw [← hlast]
    exact Nat.mod_lt _ (by decide)
  · rintro ⟨hmax, hoffset⟩
    have hexact : ∀ w ∈ st.txWindow, ∀ slot < w.slotCount, slotOffset w slot = slot * w.slotCapacity := by
      intro w hw slot hslot
      have hle : slot * w.slotCapacity ≤ (w.slotCount - 1) * w.slotCapacity :=
        Nat.mul_le_mul_right _ (by omega)
      exact Nat.mod_eq_of_lt (lt_of_le_of_lt hle (hoffset w hw))
    refine ⟨fun mem s call f _ hsent mem' r _ haccepted => ?_, hexact, fun w hw => .of_exact (hexact w hw)⟩
    have hlength := hsent.sends.2
    have hcap := st.rxCapacity_min
    rw [Nat.mod_eq_of_lt (by omega)] at hcap
    exact conveyed_of_fits hp ⟨haccepted, by omega, by omega⟩

end Carry

section Init

/-- Whatever `atc_hdlc_init` accepts can carry what the transmit functions accept, just when
`max_info_size` fits into 16 bits and the offset of the last slot into 32. -/
theorem init_conveys_iff {params : Params} {mem : Memory} {st : Station} {s : Ctx}
    (hinit : init params mem = .ok (st, s)) (hp : st.platform.Passive) :
    Conveys st ↔ (∀ config ∈ params.config, config.maxInfoSize ≤ 65535) ∧
      ∀ raw ∈ params.txWindow, (raw.slotCount - 1) * raw.slotCapacity < 2 ^ 32 := by
  obtain ⟨-, hconfig, hwindow, -⟩ := init_station hinit
  have hmax : (∀ config ∈ params.config, config.maxInfoSize ≤ 65535) ↔ st.config.maxInfoSize ≤ 65535 := by
    rw [hconfig]
    simp
  have hoffset : (∀ raw ∈ params.txWindow, (raw.slotCount - 1) * raw.slotCapacity < 2 ^ 32) ↔
      ∀ w ∈ st.txWindow, (w.slotCount - 1) * w.slotCapacity < 2 ^ 32 := by
    cases hraw : params.txWindow with
    | none =>
        rw [hraw] at hwindow
        rw [Option.map_eq_none_iff.mp hwindow.symm]
        simp
    | some raw =>
        rw [hraw] at hwindow
        obtain ⟨w, hw, hsame⟩ := Option.map_eq_some_iff.mp hwindow.symm
        obtain ⟨hcapacity, hcount⟩ := Prod.ext_iff.mp hsame
        simp only at hcapacity hcount
        simp [hw, hcapacity, hcount]
  rw [conveys_iff hp, hmax, hoffset]

/-- Parameters with room for `maxInfoSize` octets and a window of two slots. -/
def paramsFor (maxInfoSize : Nat) : Params where
  config := some ⟨modeAbm, 0x01, maxInfoSize, 3, 1000, 10⟩
  platform := some ⟨true, mockPlatform⟩
  txWindow := some ⟨true, true, maxInfoSize, 2⟩
  rxBuf := some ⟨true, maxInfoSize + 4⟩
  crc := none

theorem init_conveys_iff_mock :
    ∃ st s, init (paramsFor 1024) zeroMemory = .ok (st, s) ∧ Conveys st :=
  ⟨_, _, rfl, (@init_conveys_iff (paramsFor 1024) zeroMemory _ _ rfl mockPlatform_passive).mpr
    ⟨by simp [paramsFor], by simp [paramsFor]⟩⟩

/-- With `max_info_size` 65536, `atc_hdlc_transmit_ui` accepts 65536 octets, and a station with the same
parameters reports a length of 0. -/
theorem long_payload_reported_empty :
    ∃ st s, init (paramsFor 65536) zeroMemory = .ok (st, s) ∧
      (transmitUi st s broadcastAddress (.octets (List.replicate 65536 0))).1 = .ok ∧
      payloads (rxBytes st s ((broadcastUi (List.replicate 65536 0)).octets st.crc)).trace = [[]] ∧
      ¬Conveys st := by
  have hlength : (List.replicate 65536 (0 : UInt8)).length = 65536 := List.length_replicate
  generalize List.replicate 65536 (0 : UInt8) = payload at hlength ⊢
  refine ⟨_, _, rfl, ?_, ?_, fun h => absurd h.maxInfoSize_le (by decide)⟩
  · simp [transmitUi, transmitU, Payload.isNull, Payload.len, hlength]
  · refine (payloads_broadcastUi mockPlatform_passive zeroMemory rfl (by simp [hlength])).trans ?_
    rw [heardInfo, hlength]
    rfl

end Init

end AtcHdlc
