import AtcHdlc.Calls
import AtcHdlc.Sessions

/-! Polls and finals. A received command with P=1 asks for exactly one supervisory response with F=1. What
a connected station answers is said by one function of the context and the frame; every branch but the REJ
answers from its own address. -/

namespace AtcHdlc

/-- Address and control octet of every frame of a trace. -/
def heads (trace : List Obs) : List (UInt8 × UInt8) :=
  trace.filterMap fun
    | .frame address ctrl _ => some (address, ctrl)
    | _ => none

theorem heads_append (l r : List Obs) : heads (l ++ r) = heads l ++ heads r := List.filterMap_append

theorem heads_obs (crc : CrcOps) (m : Moment) (f : Frame) : heads (f.obs crc m) = [(f.address, f.ctrl)] := by
  have hsends : heads (f.obs crc m).tail = [] := by
    refine List.filterMap_eq_nil_iff.mpr fun o ho => ?_
    have hplain := plain_of_mem_sends ho
    cases o with
    | frame => exact hplain.elim
    | _ => rfl
  calc heads (f.obs crc m) = (f.address, f.ctrl) :: heads (f.obs crc m).tail := rfl
    _ = [(f.address, f.ctrl)] := by rw [hsends]

theorem heads_onLine (trace : List Obs) : heads (onLine trace) = heads trace := by
  unfold heads onLine
  rw [List.filterMap_filter]
  refine List.filterMap_congr fun o _ => ?_
  cases o <;> rfl

/-- The frames that a context has sent and another, earlier one has not. -/
def sentSince (s s' : Ctx) : List (UInt8 × UInt8) := (heads s'.trace).drop (heads s.trace).length

theorem sentSince_eq {s s' : Ctx} {l : List (UInt8 × UInt8)} (h : heads s'.trace = heads s.trace ++ l) :
    sentSince s s' = l := by
  rw [sentSince, h, List.drop_left]

section Vr

variable {st : Station}

theorem resetState_vr (s : Ctx) : (resetState st s).vr = 0 := congrArg LinkView.vr (linkView_resetState s)

theorem Effect.vr_lt (hp : st.platform.Passive) {ctrl : UInt8} {s s' : Ctx} (h : Effect st ctrl s s')
    (hs : s.vr < mod8) : s'.vr < mod8 := by
  cases h with
  | data payload =>
      rw [onData_passive hp]
      exact hs
  | event event =>
      rw [onEvent_passive hp]
      exact hs
  | reset => exact (resetState_vr s).trans_lt (Nat.zero_lt_succ 7)
  | receive payload => exact Nat.mod_lt _ (Nat.zero_lt_succ 7)
  | _ => exact hs

theorem Deed.vr_lt (hp : st.platform.Passive) {call : Call} {s s' : Ctx} (h : Deed st call s s')
    (hs : s.vr < mod8) : s'.vr < mod8 := by
  cases h with
  | event event =>
      rw [onEvent_passive hp]
      exact hs
  | reset h => exact (resetState_vr s).trans_lt (Nat.zero_lt_succ 7)
  | _ => exact hs

theorem rxBytes_vr_lt (hp : st.platform.Passive) {s : Ctx} (hs : s.vr < mod8) (bytes : List UInt8) :
    (rxBytes st s bytes).vr < mod8 :=
  @rxBytes_induct st (fun t => t.vr < mod8) (fun _ t => t.vr < mod8) (fun _ _ h => h) (fun _ _ _ _ h => h)
    (fun _ _ _ he h => he.vr_lt hp h) (fun _ _ h => h) s hs bytes

/-- The retransmission sends I-frames with P=0 to the peer and does not touch V(R). -/
theorem retransmitLoop_heads (w : TxWindow) (endVs fuel slotIdx : Nat) (s : Ctx) :
    (retransmitLoop st w endVs fuel slotIdx s).vr = s.vr ∧
      ∃ l, heads (retransmitLoop st w endVs fuel slotIdx s).trace = heads s.trace ++ l ∧
        ∀ x ∈ l, isIframe x.2 = true ∧ ctrlPf x.2 = false := by
  induction fuel generalizing slotIdx s with
  | zero => exact ⟨rfl, [], (List.append_nil _).symm, by simp⟩
  | succ fuel ih =>
      unfold retransmitLoop
      split_ifs
      · exact ⟨rfl, [], (List.append_nil _).symm, by simp⟩
      · extract_lets t u v
        obtain ⟨hvr, l, hl, hkind⟩ := ih ((slotIdx + 1) % w.slotCount) v
        have hsent : v.trace = t.trace ++ Frame.obs st.crc t.moment
            ⟨s.peerAddress, iCtrl s.vs s.vr false, readSlot w t slotIdx⟩ := by
          simp only [v, u, frameSend_octets]
          rfl
        have hv : v.vr = s.vr := by
          simp only [v, u, frameSend_octets]
          rfl
        refine ⟨hvr.trans hv, (s.peerAddress, iCtrl s.vs s.vr false) :: l, ?_, fun x hx => ?_⟩
        · rw [hl, hsent, heads_append, heads_obs]
          simp [t, Ctx.log, heads]
        · rcases List.mem_cons.mp hx with rfl | hx
          · exact ⟨(iCtrl_fields _ _ _).1, (iCtrl_fields _ _ _).2.2.2⟩
          · exact hkind x hx

theorem retransmitIfPending_heads (s : Ctx) :
    (retransmitIfPending st s).vr = s.vr ∧
      ∃ l, heads (retransmitIfPending st s).trace = heads s.trace ++ l ∧
        ∀ x ∈ l, isIframe x.2 = true ∧ ctrlPf x.2 = false := by
  unfold retransmitIfPending
  split_ifs
  · cases st.txWindow with
    | none => exact ⟨rfl, [], by simp [Ctx.log, heads], by simp⟩
    | some w =>
        simp only [retransmitOutstanding]
        generalize hslot : u8 _ = slotIdx
        obtain ⟨hvr, l, hl, hkind⟩ := @retransmitLoop_heads st w s.vs 8 slotIdx
          { s with retransmitPending := false, vs := s.retransmitFrom }
        refine ⟨hvr, l, ?_, hkind⟩
        rw [← hl]
        unfold t1Start
        split_ifs
        · simp [Ctx.logs, heads]
        · simp [Ctx.logs]
  · exact ⟨rfl, [], (List.append_nil _).symm, by simp⟩

theorem Call.vr_lt (hp : st.platform.Passive) {s : Ctx} (hs : s.vr < mod8) (call : Call) (hlegal : call.Legal) :
    (call.run st s).vr < mod8 := by
  by_cases hcall : ∀ bytes, call ≠ .dataIn bytes
  · exact (Call.deeds st s hlegal hcall).induct (fun _ _ h => h.vr_lt hp) hs
  · push Not at hcall
    obtain ⟨bytes, rfl⟩ := hcall
    calc (retransmitIfPending st (rxBytes st s bytes)).vr = (rxBytes st s bytes).vr :=
          (retransmitIfPending_heads _).1
      _ < mod8 := rxBytes_vr_lt hp hs bytes

theorem Reachable.midway {mem : Memory} {s : Ctx} (h : Reachable st mem s) : Midway st mem s := ⟨s, [], h, rfl⟩

theorem Midway.vr_lt (hp : st.platform.Passive) {mem : Memory} {s : Ctx} (h : Midway st mem s) :
    s.vr < mod8 := by
  obtain ⟨t, bytes, ht, rfl⟩ := h
  exact rxBytes_vr_lt hp (ht.invariant (P := fun s => s.vr < mod8) (Nat.zero_lt_succ 7)
    fun _ hs call hlegal => Call.vr_lt hp hs call hlegal) bytes

end Vr

/-- The answer to an acceptable I- or S-frame: address and control octet. -/
def answer (s : Ctx) (f : Received) : List (UInt8 × UInt8) :=
  let pf := ctrlPf f.ctrl
  if isIframe f.ctrl then
    if ctrlNs f.ctrl = s.vr then
      let vr := (s.vr + 1) % mod8
      if pf then [(s.myAddress, sCtrl (if s.localBusy then sRnr else sRr) vr true)]
      else if s.t2Active then []
      else if s.localBusy then [(s.myAddress, sCtrl sRnr vr false)]
      else []
    else if s.rejException then
      if pf then [(s.myAddress, sCtrl sRr s.vr true)] else []
    else [(s.peerAddress, sCtrl sRej s.vr pf)]
  else if isCmd s f.address && pf then [(s.myAddress, sCtrl sRr s.vr true)]
  else []

/-- V(R) behind an acceptable I- or S-frame. -/
def vrAfter (s : Ctx) (f : Received) : Nat :=
  if isIframe f.ctrl = true ∧ ctrlNs f.ctrl = s.vr then (s.vr + 1) % mod8 else s.vr

section Answer

variable {st : Station}

namespace LinkView

theorem heads_say (v : LinkView) (crc : CrcOps) (f : Frame) :
    heads (v.say crc f).line = heads v.line ++ [(f.address, f.ctrl)] := by
  rw [say, heads_append, heads_obs]

theorem heads_acknowledge (v : LinkView) (pf : Bool) :
    heads (v.acknowledge st pf).line = heads v.line ++
      (if pf then [(v.myAddress, sCtrl (if v.localBusy then sRnr else sRr) v.vr true)]
      else if v.t2Active then []
      else if v.localBusy then [(v.myAddress, sCtrl sRnr v.vr false)]
      else []) ∧
    (v.acknowledge st pf).vr = v.vr := by
  unfold acknowledge
  by_cases hpf : pf = true
  · rw [if_pos hpf, if_pos hpf]
    exact ⟨heads_say _ _ _, rfl⟩
  · rw [if_neg hpf, if_neg hpf]
    by_cases ht2 : v.t2Active = true
    · rw [if_pos ht2, if_pos ht2, List.append_nil]
      exact ⟨rfl, rfl⟩
    · rw [if_neg ht2, if_neg ht2]
      by_cases hbusy : v.localBusy = true
      · rw [if_pos hbusy, if_pos hbusy]
        exact ⟨heads_say _ _ _, rfl⟩
      · rw [if_neg hbusy, if_neg hbusy, List.append_nil]
        exact ⟨rfl, rfl⟩

theorem heads_refuse (v : LinkView) (pf : Bool) :
    heads (v.refuse st pf).line = heads v.line ++
      (if v.rejException then if pf then [(v.myAddress, sCtrl sRr v.vr true)] else []
      else [(v.peerAddress, sCtrl sRej v.vr pf)]) ∧
    (v.refuse st pf).vr = v.vr := by
  unfold refuse
  by_cases hrej : v.rejException = true
  · rw [if_pos hrej, if_pos hrej]
    by_cases hpf : pf = true
    · rw [if_pos hpf, if_pos hpf]
      exact ⟨heads_say _ _ _, rfl⟩
    · rw [if_neg hpf, if_neg hpf, List.append_nil]
      exact ⟨rfl, rfl⟩
  · rw [if_neg hrej, if_neg hrej]
    exact ⟨heads_say _ _ _, rfl⟩

theorem heads_poll (v : LinkView) (polled : Bool) :
    heads (v.poll st polled).line = heads v.line ++
      (if polled then [(v.myAddress, sCtrl sRr v.vr true)] else []) ∧
    (v.poll st polled).vr = v.vr := by
  unfold poll
  by_cases hpolled : polled = true
  · rw [if_pos hpolled, if_pos hpolled]
    exact ⟨heads_say _ _ _, rfl⟩
  · rw [if_neg hpolled, if_neg hpolled, List.append_nil]
    exact ⟨rfl, rfl⟩

theorem myAddress_busy (v : LinkView) (kind : Nat) : (v.busy st kind).myAddress = v.myAddress := by
  unfold busy
  split_ifs <;> rfl

/-- A connected station answers an acceptable I- or S-frame by `answer`. -/
theorem heads_next {s : Ctx} {f : Received} (hstate : s.currentState = .connected)
    (hu : isUframe f.ctrl = false) (hvalid : nrValid s (ctrlNr f.ctrl) = true) :
    heads ((linkView s).next st s f).line = heads (linkView s).line ++ answer s f ∧
      ((linkView s).next st s f).vr = vrAfter s f := by
  have hnot : ¬isUframe f.ctrl = true := by simp [hu]
  simp only [next, hstate]
  rw [if_neg hnot, answer, vrAfter]
  by_cases hi : isIframe f.ctrl = true
  · rw [if_pos hi, if_pos hi, if_neg (not_not.mpr hvalid)]
    by_cases hns : ctrlNs f.ctrl = s.vr
    · have hin : isIframe f.ctrl = true ∧ ctrlNs f.ctrl = s.vr := ⟨hi, hns⟩
      rw [if_pos hns, if_pos hns, if_pos hin]
      exact heads_acknowledge _ _
    · have hout : ¬(isIframe f.ctrl = true ∧ ctrlNs f.ctrl = s.vr) := fun h => hns h.2
      rw [if_neg hns, if_neg hns, if_neg hout]
      exact heads_refuse _ _
  · have hout : ¬(isIframe f.ctrl = true ∧ ctrlNs f.ctrl = s.vr) := fun h => hi h.1
    rw [if_neg hi, if_neg hi, if_neg hout, if_neg (not_not.mpr hvalid)]
    have hpoll := @heads_poll st ((linkView s).busy st (ctrlS f.ctrl)) (isCmd s f.address && ctrlPf f.ctrl)
    rw [line_busy, vr_busy, myAddress_busy] at hpoll
    exact hpoll

end LinkView

theorem heads_dispatch (hp : st.platform.Passive) {s : Ctx} {f : Received}
    (hstate : s.currentState = .connected) (hu : isUframe f.ctrl = false)
    (hvalid : nrValid s (ctrlNr f.ctrl) = true) :
    heads (f.dispatch st s).trace = heads s.trace ++ answer s f ∧ (f.dispatch st s).vr = vrAfter s f := by
  obtain ⟨hheads, hvr⟩ := @LinkView.heads_next st s f hstate hu hvalid
  rw [← dispatchFrame_linkView hp s f] at hheads hvr
  refine ⟨?_, hvr⟩
  rw [← heads_onLine, ← heads_onLine s.trace]
  exact hheads

end Answer

/-! ### Exactly one final -/

/-- A supervisory response with F=1. -/
def isFinal (myAddress : UInt8) (x : UInt8 × UInt8) : Bool :=
  x.1 == myAddress && isSframe x.2 && ctrlPf x.2

/-- What is owed to a received command: to a poll one final with the current V(R) and no command with P=1,
to any other frame nothing with the P/F bit. -/
def Answered (myAddress : UInt8) (vr : Nat) (polled : Bool) (sent : List (UInt8 × UInt8)) : Prop :=
  if polled then
    (sent.filter (isFinal myAddress)).map (fun x => ctrlNr x.2) = [vr] ∧
      ∀ x ∈ sent, x.1 ≠ myAddress → ctrlPf x.2 = false
  else ∀ x ∈ sent, ctrlPf x.2 = false

instance (myAddress : UInt8) (vr : Nat) (polled : Bool) (sent : List (UInt8 × UInt8)) :
    Decidable (Answered myAddress vr polled sent) :=
  haveI (P : UInt8 × UInt8 → Prop) [DecidablePred P] : Decidable (∀ x ∈ sent, P x) := List.decidableBAll P sent
  inferInstanceAs (Decidable (if polled then _ ∧ (∀ x ∈ sent, x.1 ≠ myAddress → ctrlPf x.2 = false)
    else ∀ x ∈ sent, ctrlPf x.2 = false))

/-- The one frame to which a poll gets no final: an I-frame out of sequence that the REJ answers. -/
def RejectedPoll (s : Ctx) (f : Received) : Prop :=
  isIframe f.ctrl = true ∧ ctrlNs f.ctrl ≠ s.vr ∧ ctrlPf f.ctrl = true ∧ s.rejException = false

instance (s : Ctx) (f : Received) : Decidable (RejectedPoll s f) := inferInstanceAs (Decidable (_ ∧ _ ∧ _ ∧ _))

/-- I-frames with P=0 change nothing about an answer. -/
theorem answered_append {myAddress : UInt8} {vr : Nat} {polled : Bool} {sent l : List (UInt8 × UInt8)}
    (hkind : ∀ x ∈ l, isIframe x.2 = true ∧ ctrlPf x.2 = false) :
    Answered myAddress vr polled (sent ++ l) ↔ Answered myAddress vr polled sent := by
  have hfinal : l.filter (isFinal myAddress) = [] := by
    refine List.filter_eq_nil_iff.mpr fun x hx => ?_
    simp [isFinal, (hkind x hx).2]
  have hpf (P : UInt8 × UInt8 → Prop) :
      (∀ x ∈ sent ++ l, P x → ctrlPf x.2 = false) ↔ ∀ x ∈ sent, P x → ctrlPf x.2 = false := by
    refine ⟨fun h x hx => h x (List.mem_append_left l hx), fun h x hx => ?_⟩
    rcases List.mem_append.mp hx with hx | hx
    · exact h x hx
    · exact fun _ => (hkind x hx).2
  unfold Answered
  split_ifs
  · rw [List.filter_append, hfinal, List.append_nil, hpf (fun x => x.1 ≠ myAddress)]
  · simpa using hpf fun _ => True

theorem isFinal_sCtrl (myAddress address : UInt8) (kind nr : Nat) (pf : Bool) :
    isFinal myAddress (address, sCtrl kind nr pf) = (address == myAddress && pf) := by
  obtain ⟨hs, -, -, hpf⟩ := sCtrl_fields kind nr pf
  simp [isFinal, hs, hpf]

/-- One supervisory frame with F=1 is a proper answer exactly from the own address. -/
theorem answered_singleton (myAddress address : UInt8) (kind : Nat) {vr : Nat} (hvr : vr < mod8) :
    Answered myAddress vr true [(address, sCtrl kind vr true)] ↔ address = myAddress := by
  obtain ⟨-, -, hnr, hpf⟩ := sCtrl_fields kind vr true
  have hlt : vr < 8 := hvr
  unfold Answered
  rw [if_pos rfl, List.filter_singleton, isFinal_sCtrl]
  by_cases heq : address = myAddress
  · subst heq
    simp [hnr, Nat.mod_eq_of_lt hlt]
  · have hnone : (address == myAddress && true) = false := by simp [heq]
    simp [hnone, heq]

theorem answered_answer {s : Ctx} (hvr : s.vr < mod8) {f : Received} (hcmd : f.address = s.myAddress) :
    Answered s.myAddress (vrAfter s f) (ctrlPf f.ctrl) (answer s f) ↔
      ¬RejectedPoll s f ∨ s.peerAddress = s.myAddress := by
  have hisCmd : isCmd s f.address = true := by simp [isCmd, hcmd]
  have hnext : (s.vr + 1) % mod8 < mod8 := Nat.mod_lt _ (Nat.zero_lt_succ 7)
  have hcalm (sent : List (UInt8 × UInt8)) (h : ∀ x ∈ sent, ctrlPf x.2 = false) (vr : Nat) :
      Answered s.myAddress vr false sent := by
    unfold Answered
    rw [if_neg Bool.false_ne_true]
    exact h
  have hsupervisory (address : UInt8) (kind vr : Nat) :
      ∀ x ∈ [(address, sCtrl kind vr false)], ctrlPf x.2 = false := by
    intro x hx
    rw [List.mem_singleton.mp hx]
    exact (sCtrl_fields kind vr false).2.2.2
  unfold answer vrAfter RejectedPoll
  cases hpf : ctrlPf f.ctrl with
  | true =>
      by_cases hi : isIframe f.ctrl = true
      · by_cases hns : ctrlNs f.ctrl = s.vr
        · simp only [hi, hns, and_self, if_true]
          simpa using (answered_singleton s.myAddress s.myAddress _ hnext).mpr rfl
        · cases hrej : s.rejException with
          | true =>
              simp only [hi, hns, and_false, if_false, if_true]
              simpa using (answered_singleton s.myAddress s.myAddress sRr hvr).mpr rfl
          | false =>
              simp only [hi, hns, and_false, if_false, if_true, Bool.false_eq_true]
              simpa [hns] using answered_singleton s.myAddress s.peerAddress sRej hvr
      · simp only [hi, hisCmd, Bool.true_and, if_true, Bool.false_eq_true, false_and, if_false]
        simpa using (answered_singleton s.myAddress s.myAddress sRr hvr).mpr rfl
  | false =>
      refine iff_of_true (hcalm _ ?_ _) (Or.inl fun h => Bool.false_ne_true h.2.2.1)
      simp only [Bool.and_false, Bool.false_eq_true, if_false]
      split_ifs
      · simp
      · exact hsupervisory _ _ _
      · simp
      · simp
      · exact hsupervisory _ _ _
      · simp

/-- Every poll gets exactly one final, and a frame with P=0 nothing with the P/F bit, except for an I-frame
out of sequence with P=1 that the station answers by a REJ with P=1 from the peer's address, that is by a
command. The frame may be an inner or the last one of a chunk. -/
theorem poll_answered_iff {st : Station} (hp : st.platform.Passive) {mem : Memory} {s : Ctx}
    (hmid : Midway st mem s) {f : Received} (hf : completed s flag = some f)
    (hstate : s.currentState = .connected) (hu : isUframe f.ctrl = false) (hcmd : f.address = s.myAddress)
    (hvalid : nrValid s (ctrlNr f.ctrl) = true) {s' : Ctx}
    (hs' : s' = rxByte st s flag ∨ s' = dataIn st s [flag]) :
    Answered s.myAddress s'.vr (ctrlPf f.ctrl) (sentSince s s') ↔
      ¬RejectedPoll s f ∨ s.peerAddress = s.myAddress := by
  obtain ⟨hheads, hvr⟩ := heads_dispatch hp hstate hu hvalid
  have hrx : rxByte st s flag = rxRestart (f.dispatch st s) .addr := by rw [rxByte_completed, hf]
  have hsent : ∃ l, heads s'.trace = heads s.trace ++ (answer s f ++ l) ∧ s'.vr = vrAfter s f ∧
      ∀ x ∈ l, isIframe x.2 = true ∧ ctrlPf x.2 = false := by
    rcases hs' with rfl | rfl
    · rw [hrx]
      exact ⟨[], by rw [List.append_nil]; exact hheads, hvr, by simp⟩
    · obtain ⟨hkept, l, hl, hkind⟩ := @retransmitIfPending_heads st (rxByte st s flag)
      refine ⟨l, ?_, ?_, hkind⟩
      · calc heads (retransmitIfPending st (rxByte st s flag)).trace = heads (rxByte st s flag).trace ++ l := hl
          _ = heads s.trace ++ answer s f ++ l := by rw [hrx, ← hheads]; rfl
          _ = heads s.trace ++ (answer s f ++ l) := List.append_assoc _ _ _
      · calc (retransmitIfPending st (rxByte st s flag)).vr = (rxByte st s flag).vr := hkept
          _ = vrAfter s f := by rw [hrx]; exact hvr
  obtain ⟨l, hl, hvr', hkind⟩ := hsent
  rw [sentSince_eq hl, hvr', answered_append hkind]
  exact answered_answer (hmid.vr_lt hp) hcmd

/-- A connected station of the mock set-up that has read a frame but for its closing flag. -/
def mockHearing (f : Frame) : Ctx :=
  mockRun [.linkSetup 0x02, .dataIn (Frame.octets crcOpsDefault ⟨0x02, uCtrl uUa true, []⟩),
    .dataIn (f.octets crcOpsDefault).dropLast]

theorem mockHearing_reachable (f : Frame) :
    Reachable (mockStation 0x01 3 (by decide) (by decide)) zeroMemory (mockHearing f) :=
  mockRun_reachable (by simp [Call.Legal])

/-- A poll by an RR is answered. -/
theorem poll_answered_iff_mock :
    let s := mockHearing ⟨0x01, sCtrl sRr 0 true, []⟩
    let s' := dataIn (mockStation 0x01 3 (by decide) (by decide)) s [flag]
    Answered s.myAddress s'.vr true (sentSince s s') := by
  intro s s'
  obtain ⟨f, hf, hcmd, hpf, hu, hvalid, hnot⟩ : ∃ f ∈ completed s flag, f.address = s.myAddress ∧
      ctrlPf f.ctrl = true ∧ isUframe f.ctrl = false ∧ nrValid s (ctrlNr f.ctrl) = true ∧ ¬RejectedPoll s f := by
    decide +kernel
  have hanswered := poll_answered_iff mockPlatform_passive (mockHearing_reachable _).midway hf (by decide +kernel) hu hcmd
    hvalid (Or.inr rfl)
  rw [hpf] at hanswered
  exact hanswered.mpr (Or.inl hnot)

/-- A poll by an I-frame out of sequence is answered by a REJ command with P=1 and by no final. -/
theorem poll_answered_by_command :
    let st := mockStation 0x01 3 (by decide) (by decide)
    let s := mockHearing ⟨0x01, iCtrl 1 0 true, [0x55]⟩
    Reachable st zeroMemory s ∧ s.currentState = .connected ∧
      (∃ f ∈ completed s flag, isUframe f.ctrl = false ∧ f.address = s.myAddress ∧
        nrValid s (ctrlNr f.ctrl) = true ∧ ctrlPf f.ctrl = true) ∧
      sentSince s (dataIn st s [flag]) = [(s.peerAddress, sCtrl sRej 0 true)] ∧
      ¬Answered s.myAddress (dataIn st s [flag]).vr true (sentSince s (dataIn st s [flag])) :=
  ⟨mockHearing_reachable _, by decide +kernel⟩

end AtcHdlc
