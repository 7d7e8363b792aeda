import AtcHdlc.Answers

/-! The retransmission timer. Whatever a station waits for, T1 runs (`waits_timed`); and but for two
defects it runs only while the station waits for something. Inside a chunk an armed retransmission stands
for the timer that it is going to start. -/

namespace AtcHdlc

/-- The link state after a frame. -/
def linkAfter (s : Ctx) (ctrl : UInt8) : State :=
  match s.currentState with
  | .disconnected => if isUframe ctrl ∧ uCmd ctrl = .sabm then .connected else .disconnected
  | .connecting =>
      if isUframe ctrl ∧ ctrlPf ctrl ∧ uCmd ctrl = .ua then .connected
      else if isUframe ctrl ∧ ctrlPf ctrl ∧ uCmd ctrl = .dm then .disconnected
      else .connecting
  | .connected =>
      if isUframe ctrl then
        if uCmd ctrl = .disc ∨ uCmd ctrl = .dm then .disconnected
        else if uCmd ctrl = .frmr then .frmrError
        else .connected
      else if nrValid s (ctrlNr ctrl) then .connected
      else .frmrError
  | .disconnecting =>
      if isUframe ctrl ∧ ctrlPf ctrl ∧ (uCmd ctrl = .ua ∨ uCmd ctrl = .dm) then .disconnected
      else .disconnecting
  | .frmrError => if isUframe ctrl ∧ uCmd ctrl = .sabm then .connected else .frmrError

section Frames

variable {st : Station}

namespace LinkView

variable (v : LinkView)

@[simp] theorem currentState_say (crc : CrcOps) (f : Frame) :
    (v.say crc f).currentState = v.currentState := rfl

@[simp] theorem currentState_tell (os : List Obs) : (v.tell os).currentState = v.currentState := rfl

@[simp] theorem currentState_stopT2 : v.stopT2.currentState = v.currentState := rfl

@[simp] theorem currentState_sayUa (pf : Bool) : (v.sayUa st pf).currentState = v.currentState := rfl

@[simp] theorem currentState_sayDm (pf : Bool) : (v.sayDm st pf).currentState = v.currentState := rfl

@[simp] theorem currentState_accept (pf : Bool) : (v.accept st pf).currentState = .connected := rfl

@[simp] theorem currentState_leave (state : State) (event : Event) :
    (v.leave st state event).currentState = state := rfl

@[simp] theorem currentState_reject (frmr : Frame) : (v.reject st frmr).currentState = .frmrError := rfl

@[simp] theorem currentState_receive (pf : Bool) (payload : List UInt8) :
    (v.receive st pf payload).currentState = v.currentState := by
  unfold receive acknowledge
  split_ifs <;> rfl

@[simp] theorem currentState_refuse (pf : Bool) : (v.refuse st pf).currentState = v.currentState := by
  unfold refuse
  split_ifs <;> rfl

@[simp] theorem currentState_busy (kind : Nat) : (v.busy st kind).currentState = v.currentState := by
  unfold busy
  split_ifs <;> rfl

@[simp] theorem currentState_poll (polled : Bool) :
    (v.poll st polled).currentState = v.currentState := by
  unfold poll
  split_ifs <;> rfl

theorem currentState_unnumbered (s : Ctx) (f : Received) (h : v.currentState = .connected) :
    (v.unnumbered st s f).currentState =
      if uCmd f.ctrl = .disc ∨ uCmd f.ctrl = .dm then .disconnected
      else if uCmd f.ctrl = .frmr then .frmrError
      else .connected := by
  unfold unnumbered
  cases uCmd f.ctrl with
  | test =>
      simp only
      cases f.info <;> split_ifs <;> simp_all
  | _ => simp [h]

theorem currentState_next (s : Ctx) (f : Received) :
    ((linkView s).next st s f).currentState = linkAfter s f.ctrl := by
  have hstate : (linkView s).currentState = s.currentState := rfl
  unfold next linkAfter
  cases h : s.currentState with
  | disconnected | frmrError =>
      cases isUframe f.ctrl <;> cases uCmd f.ctrl <;> simp [hstate, h]
  | connecting | disconnecting =>
      cases isUframe f.ctrl <;> cases uCmd f.ctrl <;> cases ctrlPf f.ctrl <;> simp [hstate, h]
  | connected =>
      cases isUframe f.ctrl with
      | true => exact currentState_unnumbered (linkView s) s f (hstate.trans h)
      | false =>
          by_cases hvalid : nrValid s (ctrlNr f.ctrl) = true
          · cases isIframe f.ctrl <;> by_cases hseq : ctrlNs f.ctrl = s.vr <;>
              simp [hvalid, hseq, hstate, h]
          · cases isIframe f.ctrl <;> simp [hvalid]

end LinkView

theorem dispatchFrame_currentState (hp : st.platform.Passive) (s : Ctx) (f : Received) :
    (f.dispatch st s).currentState = linkAfter s f.ctrl :=
  (congrArg LinkView.currentState (dispatchFrame_linkView hp s f)).trans
    (LinkView.currentState_next s f)

/-- The station waits for the answer to a SABM or a DISC, for an acknowledgement, or for the SABM that
answers its FRMR. An FRMR that is received enters FRMR_ERROR through `reset_state`; so there the station
has sent one just when it has sent it since the last `reset_state`. -/
def Waits (s : Ctx) : Prop :=
  s.currentState = .connecting ∨ s.currentState = .disconnecting ∨
    s.currentState = .connected ∧ s.va ≠ s.vs ∨
    s.currentState = .frmrError ∧ frmrSent s.trace = true

/-- Inside a chunk: an armed retransmission is going to start T1. -/
def Timed (s : Ctx) : Prop := Waits s → s.t1Active = true ∨ s.retransmitPending = true

/-- In CONNECTED a frame that leaves something outstanding leaves T1 running, or arms a retransmission. -/
theorem next_timed {s : Ctx} (h : Timed s) (hstate : s.currentState = .connected) {f : Received}
    (hstay : linkAfter s f.ctrl = .connected)
    (hne : ((ackView s).next (s, f)).va ≠ ((ackView s).next (s, f)).vs) :
    ((ackView s).next (s, f)).t1Active = true ∨ ((ackView s).next (s, f)).retransmitPending = true := by
  have hresets : resets s f.ctrl = false := by
    by_contra hr
    simp only [AckView.next, Bool.not_eq_false] at hr hne
    simp [hr] at hne
  have hsame (hva : ((ackView s).next (s, f)).va = s.va) (ht1 : t1Change s f.ctrl = none) :
      ((ackView s).next (s, f)).t1Active = true ∨
        ((ackView s).next (s, f)).retransmitPending = true := by
    have hvs : ((ackView s).next (s, f)).vs = s.vs := by simp [AckView.next, hresets, ackView]
    rw [hva, hvs] at hne
    have htimed := h (Or.inr (Or.inr (Or.inl ⟨hstate, hne⟩)))
    simp only [AckView.next, hresets, ht1, ackView, Bool.false_eq_true, if_false, Option.getD_none,
      Bool.or_eq_true]
    exact htimed.imp_right Or.inl
  cases hu : isUframe f.ctrl with
  | true =>
      have hacks : acks s f.ctrl = false := by simp [acks, hu]
      have hva : ((ackView s).next (s, f)).va = s.va := by simp [AckView.next, hresets, hacks, ackView]
      by_cases hcmd : uCmd f.ctrl = .ua ∨ uCmd f.ctrl = .unknown
      · have ht1 : t1Change s f.ctrl = some true := by
          simp only [t1Change, hresets, hstate, hu, Bool.false_eq_true, if_false, if_true]
          rw [if_pos hcmd]
        exact Or.inl (by simp [AckView.next, hresets, ht1])
      · refine hsame hva ?_
        simp only [t1Change, hresets, hstate, hu, Bool.false_eq_true, if_false, if_true]
        rw [if_neg hcmd]
  | false =>
      have hvalid : nrValid s (ctrlNr f.ctrl) = true := by
        by_contra hinvalid
        simp [linkAfter, hstate, hu, hinvalid] at hstay
      have hva : ((ackView s).next (s, f)).va = ctrlNr f.ctrl := by
        by_cases heq : ctrlNr f.ctrl = s.va
        · simp [AckView.next, hresets, ackView, heq]
        · simp [AckView.next, hresets, acks, hstate, hu, hvalid, heq]
      have hvs : ((ackView s).next (s, f)).vs = s.vs := by simp [AckView.next, hresets, ackView]
      rw [hva, hvs] at hne
      by_cases hrej : isSframe f.ctrl = true ∧ ctrlS f.ctrl = sRej
      · have harms : arms s f.address f.ctrl = true := by
          simp [arms, hstate, hrej.1, hrej.2, hvalid, hne]
        exact Or.inr (by simp [AckView.next, hresets, harms])
      · by_cases hmoved : ctrlNr f.ctrl ≠ s.va
        · have ht1 : t1Change s f.ctrl = some true := by
            simp only [t1Change, hresets, hstate, hu, hvalid, Bool.false_eq_true, if_false,
              not_true_eq_false]
            rw [if_neg hrej, if_neg hne, if_pos hmoved]
          exact Or.inl (by simp [AckView.next, hresets, ht1])
        · refine hsame (hva.trans (not_not.mp hmoved)) ?_
          simp only [t1Change, hresets, hstate, hu, hvalid, Bool.false_eq_true, if_false,
            not_true_eq_false]
          rw [if_neg hrej, if_neg hne, if_neg hmoved]

/-- Out of CONNECTED a frame that does not change the link state leaves T1 as it is. -/
theorem t1Change_of_stay {s : Ctx} (hstate : s.currentState ≠ .connected) {ctrl : UInt8}
    (hstay : linkAfter s ctrl = s.currentState) : resets s ctrl = false ∧ t1Change s ctrl = none := by
  revert hstate hstay
  unfold resets t1Change resets linkAfter
  cases s.currentState <;> cases isUframe ctrl <;> cases uCmd ctrl <;> cases ctrlPf ctrl <;> simp

/-- A frame leads to FRMR_ERROR by an invalid N(R), or by an FRMR that it is itself. -/
theorem frmrError_cases {s : Ctx} {f : Received} (hafter : linkAfter s f.ctrl = .frmrError) :
    s.currentState = .frmrError ∨
      s.currentState = .connected ∧ isUframe f.ctrl = false ∧ nrValid s (ctrlNr f.ctrl) = false ∨
      s.currentState = .connected ∧ isUframe f.ctrl = true ∧ uCmd f.ctrl = .frmr := by
  unfold linkAfter at hafter
  cases h : s.currentState <;> simp only [h] at hafter <;> split_ifs at hafter <;> simp_all

/-- A frame keeps T1 running while the station waits, or arms a retransmission. -/
theorem Timed.dispatch (hp : st.platform.Passive) {s : Ctx} (hw : Windowed st s) (h : Timed s)
    (f : Received) : Timed (f.dispatch st s) := by
  have hlink := dispatchFrame_currentState hp s f
  have hview := dispatchFrame_ackView hp hw f
  have hread {β} (field : AckView → β) :
      field (ackView (f.dispatch st s)) = field ((ackView s).next (s, f)) := congrArg field hview
  have ht1 : (f.dispatch st s).t1Active = ((ackView s).next (s, f)).t1Active := hread AckView.t1Active
  have hpending : (f.dispatch st s).retransmitPending = ((ackView s).next (s, f)).retransmitPending :=
    hread AckView.retransmitPending
  have hsent : frmrSent (f.dispatch st s).trace = ((linkView s).next st s f).frmrSent :=
    congrArg LinkView.frmrSent (dispatchFrame_linkView hp s f)
  have hstill (hstate : s.currentState ≠ .connected) (hstay : linkAfter s f.ctrl = s.currentState)
      (hwait : Waits s) :
      ((ackView s).next (s, f)).t1Active = true ∨ ((ackView s).next (s, f)).retransmitPending = true := by
    obtain ⟨hresets, hchange⟩ := t1Change_of_stay hstate hstay
    have htimed := h hwait
    simp only [AckView.next, hresets, hchange, ackView, Bool.false_eq_true, if_false, Option.getD_none,
      Bool.or_eq_true]
    exact htimed.imp_right Or.inl
  intro hwait
  rw [ht1, hpending]
  rcases hwait with hwait | hwait | ⟨hwait, hne⟩ | ⟨hwait, hfrmr⟩
  · rw [hlink] at hwait
    have hstate : s.currentState = .connecting := by
      unfold linkAfter at hwait
      cases hs : s.currentState <;> simp only [hs] at hwait <;> split_ifs at hwait
      rfl
    exact hstill (by rw [hstate]; decide) (hwait.trans hstate.symm) (Or.inl hstate)
  · rw [hlink] at hwait
    have hstate : s.currentState = .disconnecting := by
      unfold linkAfter at hwait
      cases hs : s.currentState <;> simp only [hs] at hwait <;> split_ifs at hwait
      rfl
    exact hstill (by rw [hstate]; decide) (hwait.trans hstate.symm) (Or.inr (Or.inl hstate))
  · rw [hlink] at hwait
    have hva : (f.dispatch st s).va = ((ackView s).next (s, f)).va := hread AckView.va
    have hvs : (f.dispatch st s).vs = ((ackView s).next (s, f)).vs := hread AckView.vs
    rw [hva, hvs] at hne
    by_cases hstate : s.currentState = .connected
    · exact next_timed h hstate hwait hne
    · have hresets : resets s f.ctrl = true := by
        unfold linkAfter at hwait
        unfold resets
        cases hs : s.currentState <;> simp only [hs] at hwait <;> split_ifs at hwait <;> simp_all
      simp [AckView.next, hresets] at hne
  · rw [hlink] at hwait
    rcases frmrError_cases hwait with hstate | ⟨hstate, hu, hinvalid⟩ | ⟨hstate, hu, hcmd⟩
    · have hsame : ((linkView s).next st s f).frmrSent = frmrSent s.trace := by
        have hnot : ¬(isUframe f.ctrl = true ∧ uCmd f.ctrl = .sabm) := by
          rintro ⟨hu, hcmd⟩
          simp [linkAfter, hstate, hu, hcmd] at hwait
        simp only [LinkView.next, hstate]
        rw [if_neg hnot]
        rfl
      rw [hsent, hsame] at hfrmr
      exact hstill (by rw [hstate]; decide) (hwait.trans hstate.symm)
        (Or.inr (Or.inr (Or.inr ⟨hstate, hfrmr⟩)))
    · have hresets : resets s f.ctrl = false := by simp [resets, hu]
      have hchange : t1Change s f.ctrl = some true := by
        simp [t1Change, hresets, hstate, hu, hinvalid]
      exact Or.inl (by simp [AckView.next, hresets, hchange])
    · have hnone : ((linkView s).next st s f).frmrSent = false := by
        simp only [LinkView.next, hstate, hu, hcmd, LinkView.unnumbered]
        rfl
      rw [hsent, hnone] at hfrmr
      exact absurd hfrmr (by decide)

/-- What decides whether the station waits. -/
theorem Waits.congr {s t : Ctx} (h : Waits t) (hstate : t.currentState = s.currentState)
    (hva : t.va = s.va) (hvs : t.vs = s.vs) (hsent : frmrSent t.trace = frmrSent s.trace) : Waits s := by
  unfold Waits at *
  rw [hstate, hva, hvs, hsent] at h
  exact h

theorem Timed.rxBytes (hp : st.platform.Passive) {s : Ctx} (hw : Windowed st s) (h : Timed s)
    (bytes : List UInt8) : Timed (rxBytes st s bytes) := by
  have hboth : Windowed st (AtcHdlc.rxBytes st s bytes) ∧ Timed (AtcHdlc.rxBytes st s bytes) :=
    rxBytes_frames st (P := fun t => Windowed st t ∧ Timed t) (K := fun _ => True) (fun _ _ h => h)
      (fun _ f h _ => ⟨h.1.dispatch hp f, h.2.dispatch hp h.1 f⟩) ⟨hw, h⟩ fun _ _ => trivial
  exact hboth.2

theorem dataIn_waits (hp : st.platform.Passive) {s : Ctx} (hw : Windowed st s)
    (hpending : s.retransmitPending = false) (h : Waits s → s.t1Active = true) (bytes : List UInt8) :
    Waits (dataIn st s bytes) → (dataIn st s bytes).t1Active = true := by
  have htimed : Timed (rxBytes st s bytes) := Timed.rxBytes hp hw (fun hwait => Or.inl (h hwait)) bytes
  unfold dataIn retransmitIfPending
  by_cases harmed : (rxBytes st s bytes).retransmitPending = true
  · rw [if_pos harmed]
    cases hwindow : st.txWindow with
    | none =>
        rw [rxBytes_pending hp hwindow, hpending] at harmed
        exact absurd harmed (by decide)
    | some w => exact fun _ => rfl
  · rw [if_neg harmed]
    exact fun hwait => (htimed hwait).resolve_right harmed

/-- What a call leaves that shows a frame and does nothing else that matters to T1. -/
theorem put_waits {s t : Ctx} (h : Waits s → s.t1Active = true) (f : Frame)
    (hnot : (f.ctrl == uCtrl uFrmr false) = false) (hstate : t.currentState = s.currentState)
    (hva : t.va = s.va) (hvs : t.vs = s.vs) (ht1 : t.t1Active = s.t1Active) (htrace : t.trace = s.trace) :
    Waits (t.put st f) → (t.put st f).t1Active = true := by
  intro hwait
  have hsent : frmrSent (t.put st f).trace = frmrSent s.trace := by
    simp only [Ctx.put, frmrSent_obs, hnot, Bool.or_false, htrace]
  exact ht1.trans (h (hwait.congr hstate hva hvs hsent))

theorem setState_t1Active (hp : st.platform.Passive) (s : Ctx) (newState : State) (event : Event) :
    (setState st s newState event).t1Active = s.t1Active :=
  congrArg AckView.t1Active (ackView_setState hp s newState event)

theorem setState_currentState (hp : st.platform.Passive) (s : Ctx) (newState : State) (event : Event) :
    (setState st s newState event).currentState = newState := by
  refine (congrArg LinkView.currentState (linkView_setState hp s newState event)).trans ?_
  split_ifs with h
  · rfl
  · exact not_not.mp fun hne => h (Or.inl hne)

theorem t1Expired_waits (hp : st.platform.Passive) (s : Ctx) :
    Waits (t1Expired st s) → (t1Expired st s).t1Active = true := by
  unfold t1Expired
  extract_lets s1 maxRetries s2
  by_cases hlost : maxRetries > 0 ∧ s2.n2 > maxRetries
  · rw [if_pos hlost]
    intro hwait
    simp [Waits, setState_currentState hp] at hwait
  · rw [if_neg hlost]
    cases hstate : s2.currentState with
    | connecting | disconnecting | frmrError => exact fun _ => rfl
    | connected =>
        simp only
        by_cases hne : s2.va ≠ s2.vs
        · rw [if_pos hne]
          exact fun _ => rfl
        · rw [if_neg hne]
          intro hwait
          unfold Waits at hwait
          simp [hstate, hne] at hwait
    | disconnected =>
        intro hwait
        unfold Waits at hwait
        simp [hstate] at hwait

theorem frameSend_waits {s : Ctx} (h : Waits s → s.t1Active = true) (address : UInt8) {ctrl : UInt8}
    (hnot : (ctrl == uCtrl uFrmr false) = false) {data : Payload} (hdata : data.NonNull) :
    Waits (frameSend st s address ctrl data) → (frameSend st s address ctrl data).t1Active = true := by
  rw [frameSend_of_nonNull st s address ctrl hdata]
  exact put_waits h ⟨address, ctrl, data.read⟩ hnot rfl rfl rfl rfl rfl

theorem transmitU_waits {s : Ctx} (h : Waits s → s.t1Active = true) {ctrl : UInt8}
    (hnot : (ctrl == uCtrl uFrmr false) = false) (address : UInt8) (data : Payload) :
    Waits (transmitU st s ctrl address data).2 → (transmitU st s ctrl address data).2.t1Active = true := by
  unfold transmitU
  split_ifs with hnull hlen
  · exact h
  · exact h
  · exact frameSend_waits h address hnot (Payload.nonNull_iff.mpr hnull)

/-- An accepted payload starts T1, unless something was outstanding already. -/
theorem acceptI_waits {w : TxWindow} {s : Ctx} (hstate : s.currentState = .connected) (h : Waits s → s.t1Active = true) {data : Payload}
    (hdata : data.NonNull) : (acceptI st w s data).t1Active = true := by
  rw [acceptI_eq s hdata]
  extract_lets next logged stored sent stopped
  split_ifs with hout
  · rfl
  · have hne : s.va ≠ s.vs := by
      intro heq
      refine hout ?_
      simp [outstanding, heq, u8, mod8]
    exact h (Or.inr (Or.inr (Or.inl ⟨hstate, hne⟩)))

/-- Octets on the line without the beginning of a frame. -/
theorem waits_of_sends {s t : Ctx} (h : Waits s → s.t1Active = true) {os : List Obs}
    (hos : ∀ o ∈ os, Plain o) (hstate : t.currentState = s.currentState) (hva : t.va = s.va)
    (hvs : t.vs = s.vs) (ht1 : t.t1Active = s.t1Active) (htrace : t.trace = s.trace ++ os) :
    Waits t → t.t1Active = true := by
  intro hwait
  refine ht1.trans (h (hwait.congr hstate hva hvs ?_))
  rw [htrace, frmrSent_append _ hos]

theorem plain_sends (octets : List UInt8) : ∀ o ∈ octets.map (Obs.send · false), Plain o := by
  intro o ho
  obtain ⟨byte, -, rfl⟩ := List.mem_map.mp ho
  trivial

/-- Every call keeps T1 running while the station waits. -/
theorem Call.waits (hp : st.platform.Passive) {s : Ctx} (hw : Windowed st s)
    (hpending : s.retransmitPending = false) (h : Waits s → s.t1Active = true)
    (call : Call) (hlegal : call.Legal) : Waits (call.run st s) → (call.run st s).t1Active = true := by
  cases call with
  | t1Expired => exact t1Expired_waits hp s
  | t2Expired =>
      simp only [run, AtcHdlc.t2Expired, sendRr, sendRnr, sendS_eq]
      split_ifs
      · exact put_waits h _ (sCtrl_ne_frmr _ _ _) rfl rfl rfl rfl rfl
      · exact put_waits h _ (sCtrl_ne_frmr _ _ _) rfl rfl rfl rfl rfl
  | linkSetup peerAddr =>
      simp only [run, AtcHdlc.linkSetup]
      split_ifs
      · exact h
      · exact fun _ => setState_t1Active hp _ _ _
  | disconnect =>
      simp only [run, AtcHdlc.disconnect]
      split_ifs
      · exact h
      · exact fun _ => setState_t1Active hp _ _ _
  | linkReset => exact fun _ => setState_t1Active hp _ _ _
  | abort =>
      intro hwait
      simp [run, AtcHdlc.abort, Waits] at hwait
  | setLocalBusy busy =>
      simp only [run, AtcHdlc.setLocalBusy, sendRr, sendS_eq]
      split_ifs
      · exact h
      · exact fun hwait => h (hwait.congr rfl rfl rfl rfl)
      · exact put_waits h _ (sCtrl_ne_frmr _ _ _) rfl rfl rfl rfl rfl
      · exact h
  | dataIn bytes => exact dataIn_waits hp hw hpending h bytes
  | transmitUi address data => exact transmitU_waits h (by decide) address data
  | transmitTest address data => exact transmitU_waits h (by decide) address data
  | transmitI data =>
      simp only [run, AtcHdlc.transmitI]
      cases st.txWindow with
      | none => split_ifs <;> exact h
      | some w =>
          simp only
          split_ifs with hstate
          · exact h
          · exact h
          · exact h
          · exact h
          · exact h
          · exact fun _ => acceptI_waits (not_not.mp hstate) h hlegal
  | transmitUiStart address =>
      simp only [run, AtcHdlc.transmitUiStart, frameBegin_eq]
      have hmark : frmrSent (s.trace ++ [.frame address (uCtrl uUi false) s.moment]) = frmrSent s.trace := by
        rw [frmrSent, List.foldl_append]
        exact Bool.or_false _
      intro hwait
      refine h (hwait.congr rfl rfl rfl ?_)
      rw [List.append_cons, frmrSent_append _ (plain_sends _), hmark]
  | transmitUiData data =>
      simp only [run, AtcHdlc.transmitUiData, emitAll_eq]
      split_ifs
      · exact h
      · exact waits_of_sends h (plain_sends _) rfl rfl rfl rfl rfl
  | transmitUiEnd =>
      simp only [run, AtcHdlc.transmitUiEnd, frameEnd_eq]
      refine waits_of_sends h (fun o ho => ?_) rfl rfl rfl rfl rfl
      rcases List.mem_append.mp ho with ho | ho
      · exact plain_sends _ o ho
      · rw [List.mem_singleton.mp ho]
        trivial

/-- Without a transmit window V(A) and V(S) stay 0. -/
theorem Call.windowed (hp : st.platform.Passive) {s : Ctx} (h : Windowed st s) (call : Call) :
    Windowed st (call.run st s) := by
  intro hnone
  obtain ⟨hva, hvs⟩ := h hnone
  have hreset (t : Ctx) : (resetState st t).va = 0 ∧ (resetState st t).vs = 0 :=
    ⟨congrArg AckView.va (ackView_resetState t), congrArg AckView.vs (ackView_resetState t)⟩
  have hset (t : Ctx) (ht : t.va = 0 ∧ t.vs = 0) (state : State) (event : Event) :
      (setState st t state event).va = 0 ∧ (setState st t state event).vs = 0 :=
    ⟨(congrArg AckView.va (ackView_setState hp t state event)).trans ht.1,
      (congrArg AckView.vs (ackView_setState hp t state event)).trans ht.2⟩
  have hsend (address ctrl : UInt8) (data : Payload) :
      (frameSend st s address ctrl data).va = 0 ∧ (frameSend st s address ctrl data).vs = 0 := by
    unfold frameSend
    rw [frameEnd_eq, emitAll_eq, frameBegin_eq]
    split_ifs <;> exact ⟨hva, hvs⟩
  have hU (ctrl address : UInt8) (data : Payload) :
      (transmitU st s ctrl address data).2.va = 0 ∧ (transmitU st s ctrl address data).2.vs = 0 := by
    unfold transmitU
    split_ifs
    · exact ⟨hva, hvs⟩
    · exact ⟨hva, hvs⟩
    · exact hsend address ctrl data
  cases call with
  | t1Expired =>
      simp only [run, AtcHdlc.t1Expired, sendU_eq, sendRr, sendRnr, sendS_eq, retransmitFrmr_eq]
      by_cases hlost : st.config.maxRetries > 0 ∧ (s.n2 + 1) % 256 > st.config.maxRetries
      · rw [if_pos hlost]
        exact hreset _
      · rw [if_neg hlost]
        split
        · exact ⟨hva, hvs⟩
        · exact ⟨hva, hvs⟩
        · split_ifs <;> exact ⟨hva, hvs⟩
        · exact ⟨hva, hvs⟩
        · exact ⟨hva, hvs⟩
  | t2Expired =>
      simp only [run, AtcHdlc.t2Expired, sendRr, sendRnr, sendS_eq]
      split_ifs <;> exact ⟨hva, hvs⟩
  | linkSetup peerAddr =>
      simp only [run, AtcHdlc.linkSetup, sendU_eq]
      split_ifs
      · exact ⟨hva, hvs⟩
      · refine hset _ ?_ _ _
        exact ⟨hva, hvs⟩
  | disconnect =>
      simp only [run, AtcHdlc.disconnect, sendU_eq]
      split_ifs
      · exact ⟨hva, hvs⟩
      · refine hset _ ?_ _ _
        exact ⟨hva, hvs⟩
  | linkReset =>
      simp only [run, AtcHdlc.linkReset, sendU_eq]
      refine hset _ ?_ _ _
      exact hreset s
  | abort => exact hreset _
  | setLocalBusy busy =>
      simp only [run, AtcHdlc.setLocalBusy, sendRr, sendS_eq]
      split_ifs <;> exact ⟨hva, hvs⟩
  | dataIn bytes =>
      have hread : Windowed st (rxBytes st s bytes) :=
        rxBytes_frames st (P := Windowed st) (K := fun _ => True) (fun _ _ h => h)
          (fun _ f h _ => h.dispatch hp f) h fun _ _ => trivial
      simp only [run, AtcHdlc.dataIn, retransmitIfPending, hnone]
      split_ifs
      · exact hread hnone
      · exact hread hnone
  | transmitUi address data => exact hU _ address data
  | transmitTest address data => exact hU _ address data
  | transmitI data =>
      simp only [run, AtcHdlc.transmitI, hnone]
      split_ifs <;> exact ⟨hva, hvs⟩
  | transmitUiStart address =>
      simp only [run, AtcHdlc.transmitUiStart, frameBegin_eq]
      exact ⟨hva, hvs⟩
  | transmitUiData data =>
      simp only [run, AtcHdlc.transmitUiData, emitAll_eq]
      split_ifs <;> exact ⟨hva, hvs⟩
  | transmitUiEnd =>
      simp only [run, AtcHdlc.transmitUiEnd, frameEnd_eq]
      exact ⟨hva, hvs⟩

theorem Reachable.windowed (hp : st.platform.Passive) {mem : Memory} {s : Ctx}
    (h : Reachable st mem s) : Windowed st s :=
  h.invariant (P := Windowed st) (fun _ => ⟨rfl, rfl⟩) fun _ hs call _ => Call.windowed hp hs call

/-- Between calls T1 runs whenever the station waits: for the answer to a SABM or to a DISC, for an
acknowledgement, or after it has sent an FRMR for an invalid N(R). -/
theorem waits_timed (hp : st.platform.Passive) {mem : Memory} {s : Ctx} (h : Reachable st mem s)
    (hwait : s.currentState = .connecting ∨ s.currentState = .disconnecting ∨
      s.currentState = .connected ∧ s.va ≠ s.vs ∨
      s.currentState = .frmrError ∧ frmrSent s.trace = true) : s.t1Active = true := by
  have hwaits : Waits s → s.t1Active = true := by
    clear hwait
    induction h with
    | init =>
        intro hwait
        simp [Waits, initCtx] at hwait
    | call call hs hlegal ih => exact call.waits hp (hs.windowed hp) (hs.not_pending hp) ih hlegal
  exact hwaits hwait

/-- Two I-frames on the way. -/
theorem waits_timed_mock : twoOutstanding.va ≠ twoOutstanding.vs ∧ twoOutstanding.t1Active = true := by
  have hstate : twoOutstanding.currentState = .connected := by decide +kernel
  have hne : twoOutstanding.va ≠ twoOutstanding.vs := by decide +kernel
  exact ⟨hne, waits_timed mockPlatform_passive twoOutstanding_reachable (Or.inr (Or.inr (Or.inl ⟨hstate, hne⟩)))⟩

/-! ### T1 runs for nothing else -/

/-- The station waits for nothing. -/
def Idle (s : Ctx) : Prop := s.currentState = .disconnected ∨ s.currentState = .connected ∧ s.va = s.vs

/-- A UA or an unknown command in a session with nothing outstanding: it is answered by an FRMR, which
starts T1, and yet the station stays in CONNECTED. -/
def Unexpected (x : Ctx × Received) : Prop :=
  x.1.currentState = .connected ∧ x.1.va = x.1.vs ∧ isUframe x.2.ctrl = true ∧
    (uCmd x.2.ctrl = .ua ∨ uCmd x.2.ctrl = .unknown)

/-- A frame after which nothing is outstanding any more. -/
def Settles (x : Ctx × Received) : Prop :=
  resets x.1 x.2.ctrl = true ∧ linkAfter x.1 x.2.ctrl ≠ .frmrError ∨
    acks x.1 x.2.ctrl = true ∧ ctrlNr x.2.ctrl = x.1.vs

/-- What holds inside a chunk: T1 does not run for nothing, and it is not going to. -/
structure Sober (s : Ctx) : Prop where
  idle : Idle s → s.t1Active = false
  armed : s.retransmitPending = true →
    s.currentState = .connected ∧ s.va ≠ s.vs ∨ s.currentState = .frmrError

/-- What a frame in CONNECTED that does not reset leaves of V(A). -/
theorem next_va {s : Ctx} (hstate : s.currentState = .connected) {f : Received}
    (hresets : resets s f.ctrl = false) :
    ((ackView s).next (s, f)).vs = s.vs ∧
      ((ackView s).next (s, f)).va =
        if isUframe f.ctrl = false ∧ nrValid s (ctrlNr f.ctrl) = true then ctrlNr f.ctrl else s.va := by
  refine ⟨by simp [AckView.next, hresets, ackView], ?_⟩
  have hva : ((ackView s).next (s, f)).va = if acks s f.ctrl then ctrlNr f.ctrl else s.va := by
    simp [AckView.next, hresets, ackView]
  rw [hva]
  by_cases heq : ctrlNr f.ctrl = s.va
  · rw [heq, ite_self, ite_self]
  · cases hu : isUframe f.ctrl <;> cases hvalid : nrValid s (ctrlNr f.ctrl) <;>
      simp [acks, hstate, hu, hvalid, heq]

/-- A frame stops T1 where it leaves nothing to wait for. -/
theorem idle_next {s : Ctx} (h : Sober s) {f : Received} (hexpected : ¬Unexpected (s, f))
    (hidle : linkAfter s f.ctrl = .disconnected ∨ linkAfter s f.ctrl = .connected ∧
      ((ackView s).next (s, f)).va = ((ackView s).next (s, f)).vs) :
    ((ackView s).next (s, f)).t1Active = false := by
  by_cases hresets : resets s f.ctrl = true
  · simp [AckView.next, hresets]
  · have hresets : resets s f.ctrl = false := by simpa using hresets
    have hkept (hchange : t1Change s f.ctrl = none) (hs : Idle s) :
        ((ackView s).next (s, f)).t1Active = false := by
      simp only [AckView.next, hresets, hchange, Bool.false_eq_true, if_false, Option.getD_none]
      exact h.idle hs
    have hstopped (hchange : t1Change s f.ctrl = some false) :
        ((ackView s).next (s, f)).t1Active = false := by
      simp [AckView.next, hresets, hchange]
    by_cases hstate : s.currentState = .connected
    · have hafter : linkAfter s f.ctrl = .connected := by
        rcases hidle with hdown | ⟨hup, -⟩
        · revert hdown hresets
          simp only [linkAfter, resets, hstate]
          cases isUframe f.ctrl <;> cases uCmd f.ctrl <;> simp
          all_goals split_ifs <;> simp
        · exact hup
      have heq := (hidle.resolve_left (by rw [hafter]; decide)).2
      obtain ⟨hvs, hva⟩ := next_va hstate hresets
      rw [hva, hvs] at heq
      cases hu : isUframe f.ctrl with
      | true =>
          have hquiet : s.va = s.vs := by simpa [hu] using heq
          have hcmd : ¬(uCmd f.ctrl = .ua ∨ uCmd f.ctrl = .unknown) :=
            fun hcmd => hexpected ⟨hstate, hquiet, hu, hcmd⟩
          refine hkept ?_ (Or.inr ⟨hstate, hquiet⟩)
          simp only [t1Change, hresets, hstate, hu, Bool.false_eq_true, if_false, if_true]
          rw [if_neg hcmd]
      | false =>
          have hvalid : nrValid s (ctrlNr f.ctrl) = true := by
            by_contra hinvalid
            simp [linkAfter, hstate, hu, hinvalid] at hafter
          rw [if_pos ⟨hu, hvalid⟩] at heq
          refine hstopped ?_
          simp only [t1Change, hresets, hstate, hu, hvalid, Bool.false_eq_true, if_false,
            not_true_eq_false]
          rw [if_pos heq, ite_self]
    · by_cases hstay : linkAfter s f.ctrl = s.currentState
      · have hdown : s.currentState = .disconnected := by
          rcases hidle with hdown | ⟨hup, -⟩
          · exact hstay.symm.trans hdown
          · exact absurd (hstay.symm.trans hup) hstate
        exact hkept (t1Change_of_stay hstate hstay).2 (Or.inl hdown)
      · refine hstopped ?_
        have hcase : linkAfter s f.ctrl = .disconnected ∨ linkAfter s f.ctrl = .connected :=
          hidle.imp_right And.left
        revert hstate hstay hresets hcase
        unfold t1Change resets linkAfter
        cases s.currentState <;> cases isUframe f.ctrl <;> cases uCmd f.ctrl <;> cases ctrlPf f.ctrl <;>
          simp

/-- While a retransmission is armed something is outstanding. -/
theorem armed_next {s : Ctx} (h : Sober s) {f : Received}
    (hsettles : s.retransmitPending = true → ¬Settles (s, f))
    (hpending : ((ackView s).next (s, f)).retransmitPending = true) :
    linkAfter s f.ctrl = .connected ∧
        ((ackView s).next (s, f)).va ≠ ((ackView s).next (s, f)).vs ∨
      linkAfter s f.ctrl = .frmrError := by
  by_cases harms : arms s f.address f.ctrl = true
  · simp only [arms, Bool.and_eq_true, decide_eq_true_eq] at harms
    obtain ⟨⟨⟨⟨hstate, hsframe⟩, hvalid⟩, hne⟩, -⟩ := harms
    have hu : isUframe f.ctrl = false := by
      rcases ctrl_cases f.ctrl with ⟨-, hs, -⟩ | ⟨-, -, hu⟩ | ⟨-, hs, -⟩
      · rw [hs] at hsframe
        exact absurd hsframe (by decide)
      · exact hu
      · rw [hs] at hsframe
        exact absurd hsframe (by decide)
    have hresets : resets s f.ctrl = false := by simp [resets, hu]
    obtain ⟨hvs, hva⟩ := next_va hstate hresets
    rw [if_pos ⟨hu, hvalid⟩] at hva
    refine Or.inl ⟨by simp [linkAfter, hstate, hu, hvalid], ?_⟩
    rw [hva, hvs]
    exact hne
  · have hbefore : s.retransmitPending = true := by
      by_cases hresets : resets s f.ctrl = true
      · simpa [AckView.next, hresets, ackView] using hpending
      · simpa [AckView.next, hresets, harms, ackView] using hpending
    have hnot := hsettles hbefore
    by_cases hresets : resets s f.ctrl = true
    · exact Or.inr (not_not.mp fun hne => hnot (Or.inl ⟨hresets, hne⟩))
    · have hresets : resets s f.ctrl = false := by simpa using hresets
      rcases h.armed hbefore with ⟨hstate, hne⟩ | hstate
      · by_cases hafter : linkAfter s f.ctrl = .connected
        · refine Or.inl ⟨hafter, ?_⟩
          obtain ⟨hvs, hva⟩ := next_va hstate hresets
          rw [hva, hvs]
          split_ifs with hnumbered
          · intro heq
            refine hnot (Or.inr ⟨?_, heq⟩)
            have hmoved : ctrlNr f.ctrl ≠ s.va := fun h => hne (h.symm.trans heq)
            simp [acks, hstate, hnumbered.1, hnumbered.2, hmoved]
          · exact hne
        · refine Or.inr ?_
          revert hafter hresets
          simp only [linkAfter, resets, hstate]
          cases isUframe f.ctrl <;> cases uCmd f.ctrl <;> simp
      · refine Or.inr ?_
        revert hresets
        simp only [linkAfter, resets, hstate]
        cases isUframe f.ctrl <;> cases uCmd f.ctrl <;> simp

/-- A frame keeps T1 from running for nothing, unless it is unexpected or settles what a retransmission is
armed for. -/
theorem Sober.dispatch (hp : st.platform.Passive) {s : Ctx} (hw : Windowed st s) (h : Sober s)
    {f : Received} (hexpected : ¬Unexpected (s, f))
    (hsettles : s.retransmitPending = true → ¬Settles (s, f)) : Sober (f.dispatch st s) := by
  have hlink := dispatchFrame_currentState hp s f
  have hview := dispatchFrame_ackView hp hw f
  have hread {β} (field : AckView → β) :
      field (ackView (f.dispatch st s)) = field ((ackView s).next (s, f)) := congrArg field hview
  have hva : (f.dispatch st s).va = ((ackView s).next (s, f)).va := hread AckView.va
  have hvs : (f.dispatch st s).vs = ((ackView s).next (s, f)).vs := hread AckView.vs
  have ht1 : (f.dispatch st s).t1Active = ((ackView s).next (s, f)).t1Active := hread AckView.t1Active
  have hpending : (f.dispatch st s).retransmitPending = ((ackView s).next (s, f)).retransmitPending :=
    hread AckView.retransmitPending
  constructor
  · intro hidle
    rw [Idle, hlink, hva, hvs] at hidle
    rw [ht1]
    exact idle_next h hexpected hidle
  · intro harmed
    rw [hpending] at harmed
    rw [hlink, hva, hvs]
    exact armed_next h hsettles harmed

/-- The frames of a chunk leave T1 as it should be: none of them is unexpected, and none settles what an
earlier one has armed a retransmission for. -/
def FramesSound (frames : List (Ctx × Received)) : Prop :=
  (∀ x ∈ frames, ¬Unexpected x) ∧ frames.Pairwise fun x y => armsFrame x → ¬Settles y

instance (x : Ctx × Received) : Decidable (Unexpected x) := inferInstanceAs (Decidable (_ ∧ _ ∧ _ ∧ _))

instance (x : Ctx × Received) : Decidable (Settles x) := inferInstanceAs (Decidable (_ ∧ _ ∨ _ ∧ _))

instance (frames : List (Ctx × Received)) : Decidable (FramesSound frames) :=
  inferInstanceAs (Decidable (_ ∧ _))

theorem Sober.rxBytes (hp : st.platform.Passive) {s : Ctx} (hw : Windowed st s) (h : Sober s)
    (bytes : List UInt8) (hsound : FramesSound (chunkFrames st s bytes))
    (harmed : s.retransmitPending = true → ∀ y ∈ chunkFrames st s bytes, ¬Settles y) :
    Sober (rxBytes st s bytes) := by
  induction bytes generalizing s with
  | nil => exact h
  | cons byte bytes ih =>
      have hbyte := rxByte_completed st s byte
      rw [chunkFrames] at hsound harmed
      cases hc : completed s byte with
      | none =>
          rw [hc] at hbyte hsound harmed
          have hs : Sober (rxByte st s byte) := by
            rw [hbyte]
            exact ⟨h.idle, h.armed⟩
          have hpending : (rxByte st s byte).retransmitPending = s.retransmitPending := by
            rw [hbyte]
            rfl
          exact ih (by rw [hbyte]; exact hw) hs hsound (by rw [hpending]; exact harmed)
      | some f =>
          rw [hc] at hbyte hsound harmed
          obtain ⟨hexpected, hpairs⟩ := hsound
          have hhead : (s, f) ∈ (some f).toList.map (s, ·) ++ chunkFrames st (rxByte st s byte) bytes := by
            simp
          have hpairs : ((s, f) :: chunkFrames st (rxByte st s byte) bytes).Pairwise
              fun x y => armsFrame x → ¬Settles y := hpairs
          obtain ⟨hfirst, hrest⟩ := List.pairwise_cons.mp hpairs
          have hstep := h.dispatch hp hw (hexpected _ hhead) fun hpending => harmed hpending _ hhead
          have hs : Sober (rxByte st s byte) := by
            rw [hbyte]
            exact ⟨hstep.idle, hstep.armed⟩
          refine ih (by rw [hbyte]; exact hw.dispatch hp f) hs
            ⟨fun x hx => hexpected x (List.mem_append_right _ hx), hrest⟩ fun hpending y hy => ?_
          have hview := congrArg AckView.retransmitPending (dispatchFrame_ackView hp hw f)
          have hafter : ((ackView s).next (s, f)).retransmitPending = true := by
            rw [← hview]
            rw [hbyte] at hpending
            exact hpending
          by_cases hbefore : s.retransmitPending = true
          · exact harmed hbefore y (List.mem_append_right _ hy)
          · refine hfirst y hy ?_
            simp only [AckView.next] at hafter
            have hnot : (ackView s).retransmitPending = false := by simpa [ackView] using hbefore
            cases hresets : resets s f.ctrl with
            | true => simp [hresets, hnot] at hafter
            | false =>
                have harms : arms s f.address f.ctrl = true := by simpa [hresets, hnot] using hafter
                exact harms

theorem retransmitLoop_currentState (w : TxWindow) (endVs fuel slotIdx : Nat) (s : Ctx) :
    (retransmitLoop st w endVs fuel slotIdx s).currentState = s.currentState := by
  induction fuel generalizing slotIdx s with
  | zero => rfl
  | succ fuel ih =>
      simp only [retransmitLoop, frameSend_octets]
      split_ifs
      · rfl
      · exact ih _ _

theorem retransmitIfPending_currentState (s : Ctx) :
    (retransmitIfPending st s).currentState = s.currentState := by
  unfold retransmitIfPending
  split_ifs
  · cases st.txWindow with
    | none => rfl
    | some w => exact retransmitLoop_currentState w _ _ _ _
  · rfl

section Accept

variable {w : TxWindow} {s : Ctx} {data : Payload}

/-- What an accepted payload leaves of the counters and the link state. -/
theorem acceptI_view (hdata : data.NonNull) :
    (acceptI st w s data).va = s.va ∧ (acceptI st w s data).vs = (s.vs + 1) % mod8 ∧
      (acceptI st w s data).currentState = s.currentState := by
  rw [acceptI_eq s hdata]
  extract_lets next logged stored sent stopped
  have hstopped : stopped.va = s.va ∧ stopped.vs = (s.vs + 1) % mod8 ∧
      stopped.currentState = s.currentState := ⟨rfl, rfl, rfl⟩
  by_cases hout : outstanding s = 0
  · rw [if_pos hout]
    exact hstopped
  · rw [if_neg hout]
    exact hstopped

end Accept

/-- The calls that keep T1 from running for nothing: all but those that deliver such frames. -/
def T1Sound (st : Station) (s : Ctx) : Call → Prop
  | .dataIn bytes => FramesSound (chunkFrames st s bytes)
  | _ => True

theorem dataIn_idle (hp : st.platform.Passive) {mem : Memory} {s : Ctx} (hreach : Reachable st mem s)
    (h : Idle s → s.t1Active = false) {bytes : List UInt8}
    (hsound : FramesSound (chunkFrames st s bytes)) :
    Idle (dataIn st s bytes) → (dataIn st s bytes).t1Active = false := by
  have hpending := hreach.not_pending hp
  have hs : Sober s := ⟨h, fun harmed => absurd (hpending.symm.trans harmed) (by decide)⟩
  have hread : Sober (rxBytes st s bytes) := hs.rxBytes hp (hreach.windowed hp) bytes hsound
    fun harmed => absurd (hpending.symm.trans harmed) (by decide)
  unfold dataIn retransmitIfPending
  by_cases harmed : (rxBytes st s bytes).retransmitPending = true
  · rw [if_pos harmed]
    cases hw : st.txWindow with
    | none =>
        rw [rxBytes_pending hp hw, hpending] at harmed
        exact absurd harmed (by decide)
    | some w =>
        have hinv := (hreach.windowInv hw hp).rxBytes hp bytes
        have hquiet := @retransmitOutstanding_quiet st w _ hinv.vs_lt hinv.from_lt
        have hstate : (retransmitOutstanding st w (rxBytes st s bytes)).currentState =
            (rxBytes st s bytes).currentState := retransmitLoop_currentState _ _ _ _ _
        intro hidle
        simp only [Idle, hstate, hquiet.va, hquiet.vs] at hidle
        rcases hread.armed harmed with ⟨hup, hne⟩ | herror
        · rw [hup] at hidle
          simp [hne] at hidle
        · rw [herror] at hidle
          simp at hidle
  · rw [if_neg harmed]
    exact hread.idle

theorem setState_idle (hp : st.platform.Passive) {s : Ctx} {state : State} (event : Event)
    (hne : state ≠ .disconnected) (hne' : state ≠ .connected) : ¬Idle (setState st s state event) := by
  intro hidle
  simp [Idle, setState_currentState hp, hne, hne'] at hidle

/-- Every call but one that delivers unsound frames keeps T1 from running for nothing. -/
theorem Call.idle (hp : st.platform.Passive) {mem : Memory} {s : Ctx} (hreach : Reachable st mem s)
    (h : Idle s → s.t1Active = false) (call : Call) (hlegal : call.Legal) (hsound : T1Sound st s call) :
    Idle (call.run st s) → (call.run st s).t1Active = false := by
  have hreset (t : Ctx) : (resetState st t).t1Active = false :=
    congrArg AckView.t1Active (@ackView_resetState st t)
  have hU (ctrl address : UInt8) (data : Payload) : Idle (transmitU st s ctrl address data).2 →
      (transmitU st s ctrl address data).2.t1Active = false := by
    unfold transmitU frameSend
    rw [frameEnd_eq, emitAll_eq, frameBegin_eq]
    split_ifs <;> exact h
  cases call with
  | t1Expired =>
      simp only [run, AtcHdlc.t1Expired, sendU_eq, sendRr, sendRnr, sendS_eq, retransmitFrmr_eq]
      by_cases hlost : st.config.maxRetries > 0 ∧ (s.n2 + 1) % 256 > st.config.maxRetries
      · rw [if_pos hlost]
        exact fun _ => hreset _
      · rw [if_neg hlost]
        cases hstate : s.currentState with
        | connecting | disconnecting | frmrError =>
            intro hidle
            simp [Idle, t1Start, Ctx.put, Ctx.logs] at hidle
        | connected =>
            simp only
            by_cases hne : s.va ≠ s.vs
            · rw [if_pos hne]
              intro hidle
              split_ifs at hidle <;> simp [Idle, t1Start, Ctx.put, Ctx.logs, hne] at hidle
            · rw [if_neg hne]
              exact fun _ => rfl
        | disconnected => exact fun _ => rfl
  | t2Expired =>
      simp only [run, AtcHdlc.t2Expired, sendRr, sendRnr, sendS_eq]
      split_ifs <;> exact h
  | linkSetup peerAddr =>
      simp only [run, AtcHdlc.linkSetup, sendU_eq]
      split_ifs
      · exact h
      · exact fun hidle => absurd hidle (setState_idle hp .setupReq (by decide) (by decide))
  | disconnect =>
      simp only [run, AtcHdlc.disconnect, sendU_eq]
      split_ifs
      · exact h
      · exact fun hidle => absurd hidle (setState_idle hp .discReq (by decide) (by decide))
  | linkReset =>
      exact fun hidle => absurd hidle (setState_idle hp .reset (by decide) (by decide))
  | abort =>
      simp only [run, AtcHdlc.abort]
      exact fun _ => hreset _
  | setLocalBusy busy =>
      simp only [run, AtcHdlc.setLocalBusy, sendRr, sendS_eq]
      split_ifs <;> exact h
  | dataIn bytes => exact dataIn_idle hp hreach h hsound
  | transmitUi address data => exact hU _ address data
  | transmitTest address data => exact hU _ address data
  | transmitI data =>
      cases hw : st.txWindow with
      | none =>
          simp only [run, AtcHdlc.transmitI, hw]
          split_ifs <;> exact h
      | some w =>
          simp only [run, AtcHdlc.transmitI, hw]
          split_ifs with hstate hbusy hlen hslot hfull
          · exact h
          · exact h
          · exact h
          · exact h
          · exact h
          · have hinv := hreach.windowInv hw hp
            have hstate : s.currentState = .connected := not_not.mp hstate
            obtain ⟨hva, hvs, hsame⟩ := @acceptI_view st w s data hlegal
            have hout := outstanding_eq hinv.va hinv.vs hinv.acked_le hinv.lt_mod8
            have hcount := w.slotCount_le
            intro hidle
            rw [Idle, hva, hvs, hsame, hstate] at hidle
            have heq : s.va = (s.vs + 1) % mod8 := by simpa using hidle
            have hacked := hinv.acked_le
            rw [hinv.va, hinv.vs] at heq
            rw [hout] at hfull
            simp only [mod8] at heq
            omega
  | transmitUiStart address =>
      simp only [run, AtcHdlc.transmitUiStart, frameBegin_eq]
      exact h
  | transmitUiData data =>
      simp only [run, AtcHdlc.transmitUiData, emitAll_eq]
      split_ifs <;> exact h
  | transmitUiEnd =>
      simp only [run, AtcHdlc.transmitUiEnd, frameEnd_eq]
      exact h

/-- In every run whose chunks are sound, T1 is clear between calls while the station waits for nothing. -/
theorem idle_untimed (hp : st.platform.Passive) {mem : Memory} {s : Ctx}
    (h : ReachableBy st mem (T1Sound st) s)
    (hidle : s.currentState = .disconnected ∨ s.currentState = .connected ∧ s.va = s.vs) :
    s.t1Active = false := by
  have huntimed : Idle s → s.t1Active = false := by
    clear hidle
    induction h with
    | init => exact fun _ => rfl
    | call call hs hlegal hsound ih => exact call.idle hp hs.reachable ih hlegal hsound
  exact huntimed hidle

instance (s : Ctx) (call : Call) : Decidable (T1Sound st s call) :=
  match call with
  | .dataIn _ => inferInstanceAs (Decidable (FramesSound _))
  | .t1Expired | .t2Expired | .linkSetup _ | .disconnect | .linkReset | .abort | .setLocalBusy _
  | .transmitUi _ _ | .transmitTest _ _ | .transmitI _ | .transmitUiStart _ | .transmitUiData _
  | .transmitUiEnd => .isTrue trivial

/-- A set-up, an I-frame, and the RR that acknowledges it. -/
theorem idle_untimed_mock :
    let st := mockStation 0x01 3 (by decide) (by decide)
    let calls : List Call := [.linkSetup 0x02,
      .dataIn (Frame.octets crcOpsDefault ⟨0x02, uCtrl uUa true, []⟩), .transmitI (.octets [0x11]),
      .dataIn (Frame.octets crcOpsDefault ⟨0x01, sCtrl sRr 1 false, []⟩)]
    (calls.foldl (Call.run st) (initCtx st zeroMemory)).t1Active = false := by
  intro st calls
  have hlegal : ∀ call ∈ calls, call.Legal := by simp [calls, Call.Legal, Payload.NonNull, Payload.isNull]
  have hsound : Along st (T1Sound st) (initCtx st zeroMemory) calls := by decide +kernel
  refine idle_untimed mockPlatform_passive (ReachableBy.init.foldl hlegal hsound) ?_
  decide +kernel

/-- A session in which a second UA arrives. -/
def secondUa : Ctx :=
  mockRun [.linkSetup 0x02, .dataIn (Frame.octets crcOpsDefault ⟨0x02, uCtrl uUa true, []⟩),
    .dataIn (Frame.octets crcOpsDefault ⟨0x02, uCtrl uUa true, []⟩)]

theorem secondUa_reachable :
    Reachable (mockStation 0x01 3 (by decide) (by decide)) zeroMemory secondUa :=
  mockRun_reachable (by simp [Call.Legal])

/-- The FRMR that a second UA draws starts T1 in an idle session. -/
theorem ua_starts_t1 :
    Reachable (mockStation 0x01 3 (by decide) (by decide)) zeroMemory secondUa ∧
      secondUa.currentState = .connected ∧ secondUa.va = secondUa.vs ∧ secondUa.t1Active = true :=
  ⟨secondUa_reachable, by decide +kernel⟩

end Frames

end AtcHdlc
