import AtcHdlc.Wakeup

/-! Callbacks that use the interface. An application may call `atc_hdlc_transmit_i`, `atc_hdlc_link_setup`
and `atc_hdlc_disconnect` from `on_data` and `on_event`. The nested call then runs in the middle of a
handler, which goes on with its old plan: what the nested call has started waits without T1 where the plan is
to stop T1. Everywhere else T1 is safe (`nested_waits_timed`). -/

namespace AtcHdlc

/-- The calls that an application makes from its callbacks. -/
def Call.Nested : Call → Prop
  | .transmitI data => data.NonNull
  | .linkSetup _ | .disconnect => True
  | _ => False

/-- Callbacks that do nothing to a context but call the interface. -/
structure Reentrant (st : Station) : Prop where
  onData : ∀ f ∈ st.platform.onData, ∀ payload s, ∃ calls : List Call,
    (∀ call ∈ calls, call.Nested) ∧ f payload s = calls.foldl (Call.run st) s
  onEvent : ∀ f ∈ st.platform.onEvent, ∀ event s, ∃ calls : List Call,
    (∀ call ∈ calls, call.Nested) ∧ f event s = calls.foldl (Call.run st) s

/-- The station waits for the answer to a SABM or to a DISC, or for an acknowledgement. -/
def Waiting (s : Ctx) : Prop :=
  s.currentState = .connecting ∨ s.currentState = .disconnecting ∨
    s.currentState = .connected ∧ s.va ≠ s.vs

instance (s : Ctx) : Decidable (Waiting s) := inferInstanceAs (Decidable (_ ∨ _ ∨ _ ∧ _))

/-- While the station waits T1 runs, or an armed retransmission is going to start it. -/
structure Guarded (st : Station) (s : Ctx) : Prop where
  timed : Waiting s → s.t1Active = true ∨ s.retransmitPending = true
  armed : s.retransmitPending = true → st.txWindow ≠ none
  windowless : st.txWindow = none → s.va = 0 ∧ s.vs = 0
  va_lt : s.va < mod8

section Nested

variable {st : Station}

/-- What a callback may do to a context that is guarded: it moves neither V(A) nor what is armed. -/
structure Nests (st : Station) (s t : Ctx) : Prop where
  guarded : Guarded st s → Guarded st t
  va : t.va = s.va
  pending : t.retransmitPending = s.retransmitPending

theorem Nests.refl (s : Ctx) : Nests st s s := ⟨id, rfl, rfl⟩

theorem Nests.trans {s t u : Ctx} (h : Nests st s t) (h' : Nests st t u) : Nests st s u :=
  ⟨fun hs => h'.guarded (h.guarded hs), h'.va.trans h.va, h'.pending.trans h.pending⟩

theorem Guarded.congr {s t : Ctx} (h : Guarded st s) (hstate : t.currentState = s.currentState)
    (hva : t.va = s.va) (hvs : t.vs = s.vs) (ht1 : t.t1Active = s.t1Active)
    (hpending : t.retransmitPending = s.retransmitPending) : Guarded st t where
  timed hwait := by
    rw [ht1, hpending]
    refine h.timed ?_
    rwa [Waiting, hstate, hva, hvs] at hwait
  armed harmed := h.armed (hpending.symm.trans harmed)
  windowless hnone := by
    rw [hva, hvs]
    exact h.windowless hnone
  va_lt := hva.trans_lt h.va_lt

/-- Where T1 runs a context is guarded. -/
theorem Guarded.of_t1 {s t : Ctx} (h : Guarded st s) (ht1 : t.t1Active = true) (hva : t.va = s.va)
    (hvs : t.vs = s.vs) (hpending : t.retransmitPending = s.retransmitPending) : Guarded st t where
  timed _ := Or.inl ht1
  armed harmed := h.armed (hpending.symm.trans harmed)
  windowless hnone := by
    rw [hva, hvs]
    exact h.windowless hnone
  va_lt := hva.trans_lt h.va_lt

/-- While the station waits for an answer every nested call is refused. -/
theorem nested_refused {s : Ctx} (hstate : s.currentState = .connecting ∨ s.currentState = .disconnecting)
    {call : Call} (hcall : call.Nested) : call.run st s = s := by
  cases call with
  | transmitI data =>
      rcases @transmitI_cases st s data with hsame | ⟨-, -, hup, -⟩
      · exact hsame
      · rcases hstate with hstate | hstate <;> exact absurd (hup.symm.trans hstate) (by decide)
  | linkSetup peerAddr =>
      have hbad : s.currentState ≠ .disconnected := by
        rcases hstate with hstate | hstate <;> rw [hstate] <;> decide
      simp only [Call.run, AtcHdlc.linkSetup, if_pos hbad]
  | disconnect =>
      have hbad : s.currentState ≠ .connected ∧ s.currentState ≠ .frmrError := by
        rcases hstate with hstate | hstate <;> rw [hstate] <;> decide
      simp only [Call.run, AtcHdlc.disconnect, if_pos hbad]
  | _ => exact hcall.elim

theorem onEvent_refused (hr : Reentrant st) {s : Ctx}
    (hstate : s.currentState = .connecting ∨ s.currentState = .disconnecting) (event : Event) :
    onEvent st s event = s.logs (eventObs st event) := by
  unfold onEvent eventObs
  cases hf : st.platform.onEvent with
  | none => simp [Ctx.logs]
  | some f =>
      obtain ⟨calls, hnested, hrun⟩ := hr.onEvent f hf event (s.log (.event event))
      have hsame : calls.foldl (Call.run st) (s.log (.event event)) = s.log (.event event) := by
        clear hrun
        induction calls with
        | nil => rfl
        | cons call calls ih =>
            have hcall : call.run st (s.log (.event event)) = s.log (.event event) :=
              nested_refused (s := s.log (.event event)) hstate (hnested call List.mem_cons_self)
            rw [List.foldl_cons, hcall]
            exact ih fun c hc => hnested c (List.mem_cons_of_mem call hc)
      simp only [hrun, hsame]
      rfl

/-- A nested set-up or release starts T1 and ends in a state that refuses all further ones. -/
theorem setState_waiting (hr : Reentrant st) {s : Ctx} {state : State}
    (hstate : state = .connecting ∨ state = .disconnecting) (hne : s.currentState ≠ state) (event : Event) :
    setState st s state event = { s with currentState := state }.logs (eventObs st event) := by
  rw [setState, if_pos (Or.inl hne)]
  exact onEvent_refused hr hstate event

theorem nested_nests (hr : Reentrant st) (s : Ctx) {call : Call} (hcall : call.Nested) :
    Nests st s (call.run st s) := by
  cases call with
  | transmitI data =>
      rcases @transmitI_cases st s data with hsame | ⟨w, hw, hup, -, -, -, haccepted⟩
      · simp only [Call.run, hsame]
        exact .refl s
      · have hrun : Call.run st s (.transmitI data) = acceptI st w s data := haccepted
        rw [hrun, acceptI_eq s hcall]
        extract_lets next logged stored sent stopped
        have hva : stopped.va = s.va := rfl
        have hpending : stopped.retransmitPending = s.retransmitPending := rfl
        have ht1 : stopped.t1Active = s.t1Active := rfl
        clear_value stopped
        have hwindow : st.txWindow ≠ none := by rw [hw]; exact Option.some_ne_none w
        by_cases hout : outstanding s = 0
        · rw [if_pos hout]
          exact ⟨fun h => ⟨fun _ => Or.inl rfl, fun harmed => h.armed (hpending.symm.trans harmed),
            fun hnone => absurd hnone hwindow, hva.trans_lt h.va_lt⟩, hva, hpending⟩
        · rw [if_neg hout]
          have hne : s.va ≠ s.vs := by
            intro heq
            refine hout ?_
            rw [outstanding, heq, sub_self]
            rfl
          refine ⟨fun h => ⟨fun _ => ?_, fun harmed => h.armed (hpending.symm.trans harmed),
            fun hnone => absurd hnone hwindow, hva.trans_lt h.va_lt⟩, hva, hpending⟩
          rw [ht1, hpending]
          exact h.timed (Or.inr (Or.inr ⟨hup, hne⟩))
  | linkSetup peerAddr =>
      simp only [Call.run, AtcHdlc.linkSetup, sendU_eq]
      by_cases hstate : s.currentState ≠ .disconnected
      · rw [if_pos hstate]
        exact .refl s
      · rw [if_neg hstate]
        have hdown : s.currentState = .disconnected := not_not.mp hstate
        have hne : (t1Start st ({ s with peerAddress := peerAddr }.put st
            ⟨peerAddr, uCtrl uSabm true, []⟩)).currentState ≠ .connecting := by
          intro h
          exact absurd (hdown.symm.trans h) (by decide)
        simp only [setState_waiting hr (Or.inl rfl) hne]
        exact ⟨fun h => h.of_t1 rfl rfl rfl rfl, rfl, rfl⟩
  | disconnect =>
      simp only [Call.run, AtcHdlc.disconnect, sendU_eq]
      by_cases hstate : s.currentState ≠ .connected ∧ s.currentState ≠ .frmrError
      · rw [if_pos hstate]
        exact .refl s
      · rw [if_neg hstate]
        have hne : (t1Start st (s.put st ⟨s.peerAddress, uCtrl uDisc true, []⟩)).currentState ≠
            .disconnecting := by
          intro h
          have hdisc : s.currentState = .disconnecting := h
          exact hstate (by rw [hdisc]; decide)
        simp only [setState_waiting hr (Or.inr rfl) hne]
        exact ⟨fun h => h.of_t1 rfl rfl rfl rfl, rfl, rfl⟩
  | _ => exact hcall.elim

theorem foldl_nests (hr : Reentrant st) (s : Ctx) {calls : List Call}
    (hnested : ∀ call ∈ calls, call.Nested) : Nests st s (calls.foldl (Call.run st) s) := by
  induction calls generalizing s with
  | nil => exact .refl s
  | cons call calls ih =>
      exact (nested_nests hr s (hnested call List.mem_cons_self)).trans
        (ih _ fun c hc => hnested c (List.mem_cons_of_mem call hc))

theorem log_nests (s : Ctx) (o : Obs) : Nests st s (s.log o) :=
  ⟨fun h => h.congr rfl rfl rfl rfl rfl, rfl, rfl⟩

theorem onEvent_nests (hr : Reentrant st) (s : Ctx) (event : Event) : Nests st s (onEvent st s event) := by
  unfold onEvent
  cases hf : st.platform.onEvent with
  | none => exact .refl s
  | some f =>
      obtain ⟨calls, hnested, hrun⟩ := hr.onEvent f hf event (s.log (.event event))
      simp only [hrun]
      exact (log_nests s _).trans (foldl_nests hr _ hnested)

theorem onData_nests (hr : Reentrant st) (s : Ctx) (payload : List UInt8) :
    Nests st s (onData st s payload) := by
  unfold onData
  cases hf : st.platform.onData with
  | none => exact .refl s
  | some f =>
      obtain ⟨calls, hnested, hrun⟩ := hr.onData f hf payload (s.log (.data payload))
      simp only [hrun]
      exact (log_nests s _).trans (foldl_nests hr _ hnested)

/-- A session without anything outstanding, or none at all. -/
theorem Guarded.of_calm {s : Ctx} (hcalm : ¬Waiting s) (harmed : s.retransmitPending = true → st.txWindow ≠ none)
    (hva : s.va = 0) (hvs : s.vs = 0) : Guarded st s where
  timed hwait := absurd hwait hcalm
  armed := harmed
  windowless _ := ⟨hva, hvs⟩
  va_lt := hva.trans_lt (Nat.zero_lt_succ 7)

theorem put_guarded {s : Ctx} (h : Guarded st s) (f : Frame) : Guarded st (s.put st f) :=
  h.congr rfl rfl rfl rfl rfl

theorem setState_guarded (hr : Reentrant st) {s : Ctx} {state : State}
    (h : Guarded st { s with currentState := state }) (event : Event) :
    Guarded st (setState st s state event) := by
  by_cases hchange : s.currentState ≠ state ∨ event = .connReq
  · rw [setState, if_pos hchange]
    exact (onEvent_nests hr _ event).guarded h
  · rw [setState, if_neg hchange]
    push Not at hchange
    exact h.congr hchange.1 rfl rfl rfl rfl

/-- Nothing waits in DISCONNECTED or in FRMR_ERROR. -/
theorem leave_guarded (hr : Reentrant st) {s : Ctx} (h : Guarded st s) {state : State}
    (hstate : state = .disconnected ∨ state = .frmrError) (event : Event) :
    Guarded st (setState st s state event) := by
  have hset : Guarded st { s with currentState := state } := by
    refine ⟨fun hwait => ?_, h.armed, h.windowless, h.va_lt⟩
    rcases hstate with rfl | rfl <;> simp [Waiting] at hwait
  exact setState_guarded hr hset event

/-- What `reset_state` and an answer leave, whatever the link state. -/
theorem reset_guarded {s t : Ctx} (h : Guarded st s) (hva : t.va = 0) (hvs : t.vs = 0)
    (hpending : t.retransmitPending = s.retransmitPending) {state : State}
    (hstate : state = .connected ∨ state = .disconnected ∨ state = .frmrError) :
    Guarded st { t with currentState := state } := by
  refine .of_calm ?_ (fun harmed => h.armed (hpending.symm.trans harmed)) hva hvs
  rcases hstate with rfl | rfl | rfl <;> simp [Waiting, hva, hvs]

theorem resetState_fields (s : Ctx) :
    (resetState st s).va = 0 ∧ (resetState st s).vs = 0 ∧
      (resetState st s).retransmitPending = s.retransmitPending :=
  ⟨congrArg AckView.va (ackView_resetState s), congrArg AckView.vs (ackView_resetState s),
    congrArg AckView.retransmitPending (ackView_resetState s)⟩

theorem sendFrmr_guarded {s : Ctx} (h : Guarded st s) (ctrl : UInt8) (w x y z : Bool) :
    Guarded st (sendFrmr st s ctrl w x y z) := by
  simp only [sendFrmr, retransmitFrmr_eq]
  exact h.of_t1 rfl rfl rfl rfl

theorem rejectNr_guarded (hr : Reentrant st) {s : Ctx} (h : Guarded st s) (ctrl : UInt8) :
    Guarded st (rejectNr st s ctrl) :=
  leave_guarded hr (sendFrmr_guarded h ctrl false false false true) (Or.inr rfl) _

/-- With nothing outstanding only V(A) is a valid N(R). -/
theorem eq_va_of_nrValid {s : Ctx} (hlt : s.va < mod8) (heq : s.va = s.vs) {nr : Nat} (hnr : nr < mod8)
    (hvalid : nrValid s nr = true) : nr = s.va := by
  rw [nrValid, decide_eq_true_eq, ← heq] at hvalid
  simp only [u8, mod8] at *
  omega

/-- An acknowledgement, with what the callback makes of it. -/
theorem framesAcked_guarded (hr : Reentrant st) {s : Ctx} (h : Guarded st s) {nr : Nat} (hnr : nr < mod8)
    (hvalid : nrValid s nr = true) :
    Guarded st (framesAcked st s nr) ∧ (framesAcked st s nr).va = nr ∧
      (framesAcked st s nr).retransmitPending = s.retransmitPending := by
  unfold framesAcked
  by_cases heq : nr = s.va
  · rw [if_pos heq]
    exact ⟨h, heq.symm, rfl⟩
  · rw [if_neg heq]
    have hne : s.va ≠ s.vs := fun hsame => heq (eq_va_of_nrValid h.va_lt hsame hnr hvalid)
    have hwindow : st.txWindow ≠ none := fun hnone =>
      hne ((h.windowless hnone).1.trans (h.windowless hnone).2.symm)
    have hmoved : Guarded st { s.log (.acked nr) with va := nr, n2 := 0 } := by
      refine ⟨fun hwait => h.timed ?_, h.armed, fun hnone => absurd hnone hwindow, hnr⟩
      exact hwait.imp_right fun hw => hw.imp_right fun hup => ⟨hup.1, hne⟩
    cases hw : st.txWindow with
    | none => exact absurd hw hwindow
    | some w =>
        simp only
        split_ifs
        · have hnests := onEvent_nests hr { s.log (.acked nr) with va := nr, n2 := 0 } .windowOpen
          exact ⟨hnests.guarded hmoved, hnests.va, hnests.pending⟩
        · exact ⟨hmoved, rfl, rfl⟩

/-- T1 is stopped where nothing waits, or where a retransmission is going to start it. -/
theorem t1Stop_guarded {s : Ctx} (h : Guarded st s) (hcalm : Waiting s → s.retransmitPending = true) :
    Guarded st (t1Stop st s) where
  timed hwait := Or.inr (hcalm hwait)
  armed := h.armed
  windowless := h.windowless
  va_lt := h.va_lt

theorem t1Start_guarded {s : Ctx} (h : Guarded st s) : Guarded st (t1Start st s) := h.of_t1 rfl rfl rfl rfl

theorem processNr_guarded (hr : Reentrant st) {s : Ctx} (h : Guarded st s) {nr : Nat} (hnr : nr < mod8)
    (hvalid : nrValid s nr = true)
    (hcalm : s.vs = nr → Waiting (framesAcked st s nr) → s.retransmitPending = true) :
    Guarded st (processNr st s nr) := by
  obtain ⟨hacked, -, hpending⟩ := framesAcked_guarded hr h hnr hvalid
  unfold processNr
  split_ifs with hvs hva
  · exact t1Stop_guarded hacked fun hwait => hpending.trans (hcalm hvs hwait)
  · exact t1Start_guarded hacked
  · exact h

/-- A retransmission is armed where something is outstanding. -/
theorem triggerRetransmit_guarded {s : Ctx} (h : Guarded st s) {fromSeq : Nat} (hne : s.vs ≠ fromSeq)
    (hout : s.va ≠ s.vs) : Guarded st (triggerRetransmit st s fromSeq) := by
  have hwindow : st.txWindow ≠ none := fun hnone =>
    hout ((h.windowless hnone).1.trans (h.windowless hnone).2.symm)
  have hskip : ¬(st.txWindow.isNone = true ∨ s.vs = fromSeq) := by simp [hwindow, hne]
  rw [triggerRetransmit, if_neg hskip]
  exact ⟨fun _ => Or.inr rfl, fun _ => hwindow, h.windowless, h.va_lt⟩

/-- The context in which a numbered frame acknowledges: after what a supervisory frame says of the peer's
busy condition, and after the answer to a poll. -/
def heard (st : Station) (s : Ctx) (f : Received) : Ctx :=
  if isIframe f.ctrl then s
  else
    let busy := updateRemoteBusy st s (ctrlS f.ctrl)
    if isCmd s f.address ∧ ctrlPf f.ctrl then t2Stop st (sendRrResp st busy true) else busy

/-- Whether the acknowledgement of a numbered frame stops T1: its N(R) is the V(S) of the moment, or it is a
REJ after which nothing is outstanding. -/
def stopsT1 (f : Received) (s acked : Ctx) : Bool :=
  if isSframe f.ctrl && ctrlS f.ctrl == sRej then acked.va == acked.vs else s.vs == ctrlNr f.ctrl

/-- A numbered frame stops T1 although the callbacks of PEER_READY, PEER_BUSY and WINDOW_OPEN that it has
called leave something to wait for. -/
def Overtaken (st : Station) (x : Ctx × Received) : Prop :=
  let s := heard st (x.1.log (.dispatch x.2.address x.2.ctrl x.2.info)) x.2
  let acked := framesAcked st s (ctrlNr x.2.ctrl)
  x.1.currentState = .connected ∧ isUframe x.2.ctrl = false ∧ nrValid s (ctrlNr x.2.ctrl) = true ∧
    stopsT1 x.2 s acked = true ∧ Waiting acked ∧ s.retransmitPending = false

instance (x : Ctx × Received) : Decidable (Overtaken st x) :=
  inferInstanceAs (Decidable (_ ∧ _ ∧ _ ∧ _ ∧ _ ∧ _))

theorem handleInSequenceIframe_guarded (hr : Reentrant st) {s : Ctx} (h : Guarded st s) (pf : Bool)
    (info : Option (List UInt8)) : Guarded st (handleInSequenceIframe st s pf info) := by
  simp only [handleInSequenceIframe, sendRnr, sendRrResp, sendS_eq]
  have htaken : Guarded st { s.log (.received (info.getD [])) with
      vr := (s.vr + 1) % mod8, rejException := false } := h.congr rfl rfl rfl rfl rfl
  have hdata := (onData_nests hr _ (info.getD [])).guarded htaken
  generalize onData st { s.log (.received (info.getD [])) with
    vr := (s.vr + 1) % mod8, rejException := false } (info.getD []) = t at *
  split_ifs <;> exact hdata.congr rfl rfl rfl rfl rfl

theorem handleOutOfSequenceIframe_guarded {s : Ctx} (h : Guarded st s) (pf : Bool) :
    Guarded st (handleOutOfSequenceIframe st s pf) := by
  simp only [handleOutOfSequenceIframe, sendRrResp, sendRej, sendS_eq]
  split_ifs <;> exact h.congr rfl rfl rfl rfl rfl

theorem handleIframe_guarded (hr : Reentrant st) {s : Ctx} (h : Guarded st s) (ctrl : UInt8)
    (info : Option (List UInt8))
    (hcalm : nrValid s (ctrlNr ctrl) = true → s.vs = ctrlNr ctrl →
      Waiting (framesAcked st s (ctrlNr ctrl)) → s.retransmitPending = true) :
    Guarded st (handleIframe st s ctrl info) := by
  simp only [handleIframe]
  by_cases hvalid : nrValid s (ctrlNr ctrl) = true
  · rw [if_neg (not_not.mpr hvalid)]
    have hacked := processNr_guarded hr h (ctrlNr_lt ctrl) hvalid (hcalm hvalid)
    split_ifs
    · exact handleInSequenceIframe_guarded hr hacked _ _
    · exact handleOutOfSequenceIframe_guarded hacked _
  · rw [if_pos hvalid]
    exact rejectNr_guarded hr h ctrl

theorem updateRemoteBusy_guarded (hr : Reentrant st) {s : Ctx} (h : Guarded st s) (kind : Nat) :
    Guarded st (updateRemoteBusy st s kind) := by
  have hset (busy : Bool) : Guarded st { s with remoteBusy := busy } := h.congr rfl rfl rfl rfl rfl
  simp only [updateRemoteBusy]
  split_ifs
  · exact (onEvent_nests hr _ _).guarded (hset false)
  · exact hset false
  · exact h
  · exact (onEvent_nests hr _ _).guarded (hset true)
  · exact hset false
  · exact h

/-- A REJ stops T1 and arms the retransmission of what is outstanding. -/
theorem rejected_guarded {s : Ctx} (h : Guarded st s)
    (hcalm : s.va = s.vs → Waiting s → s.retransmitPending = true) :
    Guarded st (if (t1Stop st s).va ≠ (t1Stop st s).vs then triggerRetransmit st (t1Stop st s) s.va
      else t1Stop st s) := by
  by_cases hne : s.va ≠ s.vs
  · have hwindow : st.txWindow ≠ none := fun hnone =>
      hne ((h.windowless hnone).1.trans (h.windowless hnone).2.symm)
    have hskip : ¬(st.txWindow.isNone = true ∨ (t1Stop st s).vs = s.va) := by
      simp only [Option.isNone_iff_eq_none, hwindow, false_or]
      exact hne.symm
    have hne' : (t1Stop st s).va ≠ (t1Stop st s).vs := hne
    rw [if_pos hne', triggerRetransmit, if_neg hskip]
    exact ⟨fun _ => Or.inr rfl, fun _ => hwindow, h.windowless, h.va_lt⟩
  · have hne' : ¬(t1Stop st s).va ≠ (t1Stop st s).vs := hne
    rw [if_neg hne']
    exact t1Stop_guarded h (hcalm (not_not.mp hne))

theorem handleSframe_guarded (hr : Reentrant st) {s : Ctx} (h : Guarded st s) (f : Received)
    (hi : isIframe f.ctrl = false) (hs : isSframe f.ctrl = true)
    (hcalm : let t := heard st s f
      let acked := framesAcked st t (ctrlNr f.ctrl)
      nrValid t (ctrlNr f.ctrl) = true → stopsT1 f t acked = true → Waiting acked →
        t.retransmitPending = true) :
    Guarded st (handleSframe st s f.address f.ctrl) := by
  unfold handleSframe
  extract_lets kind nr pf cmd busy polled stopped acked
  have hheard : heard st s f = polled := by
    rw [heard, hi]
    rfl
  have hpolled : Guarded st polled := by
    have hbusy : Guarded st busy := updateRemoteBusy_guarded hr h kind
    unfold polled
    split_ifs
    · simp only [sendRrResp, sendS_eq]
      exact hbusy.congr rfl rfl rfl rfl rfl
    · exact hbusy
  simp only [hheard, stopsT1, hs, Bool.true_and] at hcalm
  clear_value polled
  by_cases hvalid : nrValid polled nr = true
  · rw [if_neg (not_not.mpr hvalid)]
    obtain ⟨hframes, hva, hpending⟩ := framesAcked_guarded hr hpolled (ctrlNr_lt f.ctrl) hvalid
    have hacked : Guarded st acked := by
      unfold acked
      by_cases hrej : kind = sRej
      · have hcalm' := hcalm hvalid
        have hrejected := rejected_guarded hframes fun heq hwait => by
          have hkind : (ctrlS f.ctrl == sRej) = true := beq_iff_eq.mpr hrej
          rw [hkind, if_pos rfl, beq_iff_eq] at hcalm'
          exact hpending.trans (hcalm' heq hwait)
        rw [hva] at hrejected
        rw [if_pos hrej]
        exact hrejected
      · have hcalm' := hcalm hvalid
        have hkind : (ctrlS f.ctrl == sRej) = false := beq_eq_false_iff_ne.mpr hrej
        rw [hkind, if_neg (by decide), beq_iff_eq] at hcalm'
        rw [if_neg hrej]
        exact processNr_guarded hr hpolled (ctrlNr_lt f.ctrl) hvalid hcalm'
    clear_value acked
    split_ifs with hfinal hne
    · exact triggerRetransmit_guarded hacked hne.symm hne
    · exact hacked
    · exact hacked
  · rw [if_pos hvalid]
    exact rejectNr_guarded hr hpolled f.ctrl

/-- The answer to a SABM opens a session with nothing outstanding. -/
theorem answerSabm_guarded (hr : Reentrant st) {s : Ctx} (h : Guarded st s) (pf : Bool) :
    Guarded st (setState st (sendUa st (resetState st s) pf) .connected .connReq) := by
  obtain ⟨hva, hvs, hpending⟩ := @resetState_fields st s
  simp only [sendUa, sendU_eq]
  have hset : Guarded st { (resetState st s).put st
      ⟨(resetState st s).myAddress, uCtrl uUa pf, []⟩ with currentState := .connected } :=
    reset_guarded (t := (resetState st s).put st _) h hva hvs hpending (Or.inl rfl)
  exact setState_guarded hr hset _

/-- The end of a session resets it. -/
theorem ended_guarded (hr : Reentrant st) {s : Ctx} (h : Guarded st s) {state : State}
    (hstate : state = .disconnected ∨ state = .frmrError) (event : Event) :
    Guarded st (setState st (resetState st s) state event) := by
  obtain ⟨hva, hvs, hpending⟩ := @resetState_fields st s
  exact setState_guarded hr (reset_guarded h hva hvs hpending (Or.inr hstate)) event

theorem handleUframe_guarded (hr : Reentrant st) {s : Ctx} (h : Guarded st s) (address ctrl : UInt8)
    (info : Option (List UInt8)) : Guarded st (handleUframe st s address ctrl info) := by
  unfold handleUframe
  cases uCmd ctrl with
  | sabm => exact answerSabm_guarded hr h _
  | disc =>
      obtain ⟨hva, hvs, hpending⟩ := @resetState_fields st s
      simp only [sendUa, sendU_eq]
      have hset : Guarded st { (resetState st s).put st
          ⟨(resetState st s).myAddress, uCtrl uUa (ctrlPf ctrl), []⟩ with currentState := .disconnected } :=
        reset_guarded (t := (resetState st s).put st _) h hva hvs hpending (Or.inr (Or.inl rfl))
      exact setState_guarded hr hset _
  | dm => exact ended_guarded hr h (Or.inl rfl) _
  | frmr => exact ended_guarded hr h (Or.inr rfl) _
  | ui => exact (onData_nests hr s _).guarded h
  | test =>
      simp only [frameSend_octets]
      split_ifs
      · exact put_guarded h _
      · cases info with
        | some payload => exact (onData_nests hr s payload).guarded h
        | none => exact h
  | snrm | sabme | snrme | sarme =>
      simp only [sendDm, sendU_eq]
      exact put_guarded h _
  | ua | unknown => exact sendFrmr_guarded h ctrl true false false false

theorem stateDisconnected_guarded (hr : Reentrant st) {s : Ctx} (h : Guarded st s) (ctrl : UInt8)
    (info : Option (List UInt8)) : Guarded st (stateDisconnected st s ctrl info) := by
  unfold stateDisconnected
  split_ifs
  · cases uCmd ctrl with
    | sabm => exact answerSabm_guarded hr h _
    | ui => exact (onData_nests hr s _).guarded h
    | disc | snrm | sabme | snrme | sarme =>
        simp only [sendUa, sendDm, sendU_eq]
        exact put_guarded h _
    | ua | dm | frmr | test | unknown => exact h
  · exact h

/-- The answer that ends an attempt or a release stops T1. -/
theorem settled_guarded (hr : Reentrant st) {s : Ctx} (h : Guarded st s) (event : Event) :
    Guarded st (setState st (t1Stop st s) .disconnected event) := by
  have hset : Guarded st { t1Stop st s with currentState := .disconnected } :=
    ⟨fun hwait => by simp [Waiting] at hwait, h.armed, h.windowless, h.va_lt⟩
  exact setState_guarded hr hset event

theorem stateConnecting_guarded (hr : Reentrant st) {s : Ctx} (h : Guarded st s) (ctrl : UInt8) :
    Guarded st (stateConnecting st s ctrl) := by
  simp only [stateConnecting, sendUa, sendDm, sendU_eq]
  cases isUframe ctrl with
  | false => exact h
  | true =>
      cases uCmd ctrl with
      | sabm | disc => exact put_guarded h _
      | ua =>
          cases ctrlPf ctrl with
          | false => exact h
          | true =>
              obtain ⟨hva, hvs, hpending⟩ := @resetState_fields st (t1Stop st s)
              exact setState_guarded hr (reset_guarded h hva hvs hpending (Or.inl rfl)) _
      | dm =>
          cases ctrlPf ctrl with
          | false => exact h
          | true => exact settled_guarded hr h _
      | frmr | ui | test | snrm | sabme | snrme | sarme | unknown => exact h

theorem stateDisconnecting_guarded (hr : Reentrant st) {s : Ctx} (h : Guarded st s) (ctrl : UInt8) :
    Guarded st (stateDisconnecting st s ctrl) := by
  simp only [stateDisconnecting, sendUa, sendDm, sendU_eq]
  cases isUframe ctrl with
  | false =>
      cases ctrlPf ctrl with
      | false => exact h
      | true => exact put_guarded h _
  | true =>
      cases uCmd ctrl with
      | sabm | sabme | disc => exact put_guarded h _
      | ua | dm =>
          cases ctrlPf ctrl with
          | false => exact h
          | true => exact settled_guarded hr h _
      | frmr | ui | test | snrm | snrme | sarme | unknown => exact h

theorem stateFrmrError_guarded (hr : Reentrant st) {s : Ctx} (h : Guarded st s) (ctrl : UInt8) :
    Guarded st (stateFrmrError st s ctrl) := by
  unfold stateFrmrError
  split_ifs
  · exact answerSabm_guarded hr h _
  · exact h
  · exact h

/-- A frame keeps a context guarded, unless it overtakes a nested call. -/
theorem dispatch_guarded (hr : Reentrant st) {s : Ctx} (h : Guarded st s) {f : Received}
    (hf : ¬Overtaken st (s, f)) : Guarded st (f.dispatch st s) := by
  have hcalm (hstate : s.currentState = .connected) (hu : isUframe f.ctrl = false) :
      let t := heard st (s.log (.dispatch f.address f.ctrl f.info)) f
      let acked := framesAcked st t (ctrlNr f.ctrl)
      nrValid t (ctrlNr f.ctrl) = true → stopsT1 f t acked = true → Waiting acked →
        t.retransmitPending = true := by
    intro t acked hvalid hstop hwait
    by_contra hpending
    exact hf ⟨hstate, hu, hvalid, hstop, hwait, by simpa using hpending⟩
  have hlogged : Guarded st (s.log (.dispatch f.address f.ctrl f.info)) := h.congr rfl rfl rfl rfl rfl
  have hsame : (s.log (.dispatch f.address f.ctrl f.info)).currentState = s.currentState := rfl
  unfold Received.dispatch dispatchFrame
  generalize s.log (.dispatch f.address f.ctrl f.info) = t at *
  dsimp only
  cases hstate : t.currentState with
  | disconnected => exact stateDisconnected_guarded hr hlogged _ _
  | connecting => exact stateConnecting_guarded hr hlogged _
  | disconnecting => exact stateDisconnecting_guarded hr hlogged _
  | frmrError => exact stateFrmrError_guarded hr hlogged _
  | connected =>
      have hcalm' := hcalm (hsame.symm.trans hstate)
      simp only [stateConnected]
      rcases ctrl_cases f.ctrl with ⟨hi, hs, hu⟩ | ⟨hi, hs, hu⟩ | ⟨hi, hs, hu⟩
      · rw [if_pos hi]
        have hheard : heard st t f = t := by
          rw [heard, hi]
          rfl
        refine handleIframe_guarded hr hlogged f.ctrl f.info fun hvalid hvs hwait => ?_
        have hout := hcalm' hu
        simp only [hheard] at hout
        exact hout hvalid (by simp [stopsT1, hs, hvs]) hwait
      · rw [if_neg (by simp [hi]), if_pos hs]
        exact handleSframe_guarded hr hlogged f hi hs (hcalm' hu)
      · rw [if_neg (by simp [hi]), if_neg (by simp [hs]), if_pos hu]
        exact handleUframe_guarded hr hlogged _ _ _

/-! ### Runs with callbacks that call -/

/-- The context of T1's expiry once it is counted. -/
def counted (s : Ctx) : Ctx := { s with t1Active := false, n2 := (s.n2 + 1) % 256 }

/-- The expiry of T1 that gives the link up, when the callback of LINK_FAILURE sets up the next one. -/
def Relinked (st : Station) (s : Ctx) : Prop :=
  (st.config.maxRetries > 0 ∧ (s.n2 + 1) % 256 > st.config.maxRetries) ∧ s.currentState ≠ .disconnected ∧
    (onEvent st { counted s with currentState := .disconnected } .linkFailure).currentState ≠ .disconnected

instance (s : Ctx) : Decidable (Relinked st s) := inferInstanceAs (Decidable (_ ∧ _ ∧ _))

/-- The calls in which nothing that a callback has started loses T1. -/
def Timely (st : Station) (s : Ctx) : Call → Prop
  | .dataIn bytes => ∀ x ∈ chunkFrames st s bytes, ¬Overtaken st x
  | .t1Expired => ¬Relinked st s
  | _ => True

instance (s : Ctx) (call : Call) : Decidable (Timely st s call) :=
  match call with
  | .dataIn bytes => inferInstanceAs (Decidable (∀ x ∈ chunkFrames st s bytes, _))
  | .t1Expired => inferInstanceAs (Decidable (¬_))
  | .t2Expired | .linkSetup _ | .disconnect | .linkReset | .abort | .setLocalBusy _
  | .transmitUi _ _ | .transmitTest _ _ | .transmitI _ | .transmitUiStart _ | .transmitUiData _
  | .transmitUiEnd => .isTrue trivial

theorem setState_pending_nested (hr : Reentrant st) (s : Ctx) (state : State) (event : Event) :
    (setState st s state event).retransmitPending = s.retransmitPending := by
  by_cases hchange : s.currentState ≠ state ∨ event = .connReq
  · rw [setState, if_pos hchange]
    exact (onEvent_nests hr { s with currentState := state } event).pending
  · rw [setState, if_neg hchange]

theorem t1Expired_guarded (hr : Reentrant st) {s : Ctx} (h : Guarded st s) (htimely : ¬Relinked st s) :
    Guarded st (t1Expired st s) ∧ (t1Expired st s).retransmitPending = s.retransmitPending := by
  simp only [t1Expired, sendRr, sendRnr, sendU_eq, sendS_eq, retransmitFrmr_eq]
  by_cases hlost : st.config.maxRetries > 0 ∧ (s.n2 + 1) % 256 > st.config.maxRetries
  · rw [if_pos hlost]
    have hbase : Guarded st { counted s with currentState := .disconnected } :=
      ⟨fun hwait => by simp [Waiting] at hwait, h.armed, h.windowless, h.va_lt⟩
    have hfailed : Guarded st (setState st (counted s) .disconnected .linkFailure) :=
      setState_guarded hr hbase _
    have hdown : (setState st (counted s) .disconnected .linkFailure).currentState = .disconnected := by
      by_cases hstate : s.currentState = .disconnected
      · have hsame : setState st (counted s) .disconnected .linkFailure = counted s := by
          simp [setState, counted, hstate]
        rw [hsame]
        exact hstate
      · have hset : setState st (counted s) .disconnected .linkFailure =
            onEvent st { counted s with currentState := .disconnected } .linkFailure :=
          if_pos (Or.inl hstate)
        rw [hset]
        by_contra hup
        exact htimely ⟨hlost, hstate, hup⟩
    obtain ⟨hva, hvs, hpending⟩ := @resetState_fields st (setState st (counted s) .disconnected .linkFailure)
    have hkept := setState_pending_nested hr (counted s) .disconnected .linkFailure
    refine ⟨.of_calm ?_ (fun harmed => hfailed.armed (hpending.symm.trans harmed)) hva hvs,
      hpending.trans hkept⟩
    have hstate : (resetState st (setState st (counted s) .disconnected .linkFailure)).currentState =
        .disconnected := (resetState_currentState _).trans hdown
    rintro (hup | hup | ⟨hup, -⟩)
    · exact absurd (hstate.symm.trans hup) (by decide)
    · exact absurd (hstate.symm.trans hup) (by decide)
    · exact absurd (hstate.symm.trans hup) (by decide)
  · rw [if_neg hlost]
    cases hstate : s.currentState with
    | connecting | disconnecting | frmrError =>
        exact ⟨⟨fun _ => Or.inl rfl, h.armed, h.windowless, h.va_lt⟩, rfl⟩
    | connected =>
        simp only
        by_cases hne : s.va ≠ s.vs
        · rw [if_pos hne]
          split_ifs <;> exact ⟨⟨fun _ => Or.inl rfl, h.armed, h.windowless, h.va_lt⟩, rfl⟩
        · rw [if_neg hne]
          refine ⟨⟨fun hwait => ?_, h.armed, h.windowless, h.va_lt⟩, rfl⟩
          simp [Waiting, hne] at hwait
    | disconnected =>
        refine ⟨⟨fun hwait => ?_, h.armed, h.windowless, h.va_lt⟩, rfl⟩
        simp [Waiting] at hwait

/-- A chunk ends with T1 running where a retransmission was armed. -/
theorem dataIn_guarded (hr : Reentrant st) {s : Ctx} (h : Guarded st s) {bytes : List UInt8}
    (htimely : ∀ x ∈ chunkFrames st s bytes, ¬Overtaken st x) :
    Guarded st (dataIn st s bytes) ∧ (dataIn st s bytes).retransmitPending = false := by
  have hread : Guarded st (rxBytes st s bytes) :=
    rxBytes_frames st (P := Guarded st) (K := fun x => ¬Overtaken st x)
      (fun _ _ hs => hs.congr rfl rfl rfl rfl rfl) (fun _ _ hs hf => dispatch_guarded hr hs hf) h htimely
  unfold dataIn retransmitIfPending
  by_cases harmed : (rxBytes st s bytes).retransmitPending = true
  · rw [if_pos harmed]
    have hwindow := hread.armed harmed
    cases hw : st.txWindow with
    | none => exact absurd hw hwindow
    | some w =>
        simp only [retransmitOutstanding]
        generalize u8 _ = slotIdx
        generalize hstart : ({ rxBytes st s bytes with
          retransmitPending := false, vs := (rxBytes st s bytes).retransmitFrom } : Ctx) = t
        have hpending : (t1Start st (retransmitLoop st w (rxBytes st s bytes).vs 8 slotIdx t)).retransmitPending =
            false := by
          have hloop := @retransmitLoop_pending st w (rxBytes st s bytes).vs 8 slotIdx t
          rw [← hstart] at hloop ⊢
          exact hloop
        have hva : (t1Start st (retransmitLoop st w (rxBytes st s bytes).vs 8 slotIdx t)).va =
            (rxBytes st s bytes).va := by
          have hloop := (@retransmitLoop_still st w (rxBytes st s bytes).vs 8 slotIdx t).va
          rw [← hstart] at hloop ⊢
          exact hloop
        exact ⟨⟨fun _ => Or.inl rfl, fun _ => hwindow, fun hnone => absurd hnone hwindow,
          hva.trans_lt hread.va_lt⟩, hpending⟩
  · rw [if_neg harmed]
    exact ⟨hread, by simpa using harmed⟩

theorem Call.guarded (hr : Reentrant st) {s : Ctx} (h : Guarded st s) (hpending : s.retransmitPending = false)
    {call : Call} (hlegal : call.Legal) (htimely : Timely st s call) :
    Guarded st (call.run st s) ∧ (call.run st s).retransmitPending = false := by
  cases call with
  | t1Expired =>
      obtain ⟨hguarded, hkept⟩ := t1Expired_guarded hr h htimely
      exact ⟨hguarded, hkept.trans hpending⟩
  | t2Expired =>
      simp only [run, AtcHdlc.t2Expired, sendRr, sendRnr, sendS_eq]
      split_ifs <;> exact ⟨h.congr rfl rfl rfl rfl rfl, hpending⟩
  | linkSetup peerAddr =>
      have hnests := nested_nests hr s (show (Call.linkSetup peerAddr).Nested from trivial)
      exact ⟨hnests.guarded h, hnests.pending.trans hpending⟩
  | disconnect =>
      have hnests := nested_nests hr s (show Call.disconnect.Nested from trivial)
      exact ⟨hnests.guarded h, hnests.pending.trans hpending⟩
  | transmitI data =>
      have hnests := nested_nests hr s (show (Call.transmitI data).Nested from hlegal)
      exact ⟨hnests.guarded h, hnests.pending.trans hpending⟩
  | linkReset =>
      obtain ⟨hva, hvs, hkept⟩ := @resetState_fields st s
      simp only [run, AtcHdlc.linkReset, sendU_eq]
      have harmed : (resetState st s).retransmitPending = true → st.txWindow ≠ none :=
        fun harmed => h.armed (hkept.symm.trans harmed)
      have hset : Guarded st { t1Start st ((resetState st s).put st
          ⟨(resetState st s).peerAddress, uCtrl uSabm true, []⟩) with currentState := .connecting } :=
        ⟨fun _ => Or.inl rfl, harmed, fun _ => ⟨hva, hvs⟩, hva.trans_lt (Nat.zero_lt_succ 7)⟩
      exact ⟨setState_guarded hr hset _, (setState_pending_nested hr _ _ _).trans (hkept.trans hpending)⟩
  | abort =>
      obtain ⟨hva, hvs, hkept⟩ := @resetState_fields st ((s.log (.send flag false)).log (.send flag true))
      simp only [run, AtcHdlc.abort]
      generalize resetState st ((s.log (.send flag false)).log (.send flag true)) = t at *
      refine ⟨.of_calm ?_ (fun harmed => h.armed (hkept.symm.trans harmed)) hva hvs, hkept.trans hpending⟩
      simp [Waiting]
  | setLocalBusy busy =>
      simp only [run, AtcHdlc.setLocalBusy, sendRr, sendS_eq]
      split_ifs <;> exact ⟨h.congr rfl rfl rfl rfl rfl, hpending⟩
  | dataIn bytes => exact dataIn_guarded hr h htimely
  | transmitUi address data | transmitTest address data =>
      simp only [run, AtcHdlc.transmitUi, AtcHdlc.transmitTest]
      rcases transmitU_cases st s _ address data with hsame | hput
      · rw [hsame]
        exact ⟨h, hpending⟩
      · rw [hput]
        exact ⟨put_guarded h _, hpending⟩
  | transmitUiStart address =>
      simp only [run, AtcHdlc.transmitUiStart, frameBegin_eq]
      exact ⟨h.congr rfl rfl rfl rfl rfl, hpending⟩
  | transmitUiData data =>
      simp only [run, AtcHdlc.transmitUiData, emitAll_eq]
      split_ifs <;> exact ⟨h.congr rfl rfl rfl rfl rfl, hpending⟩
  | transmitUiEnd =>
      simp only [run, AtcHdlc.transmitUiEnd, frameEnd_eq]
      exact ⟨h.congr rfl rfl rfl rfl rfl, hpending⟩

/-- In every run in which no frame overtakes what a callback has started, and no link is set up again from
LINK_FAILURE, T1 runs between calls while the station waits. -/
theorem nested_waits_timed (hr : Reentrant st) {mem : Memory} {s : Ctx}
    (h : ReachableBy st mem (Timely st) s)
    (hwait : s.currentState = .connecting ∨ s.currentState = .disconnecting ∨
      s.currentState = .connected ∧ s.va ≠ s.vs) : s.t1Active = true := by
  have hguarded : Guarded st s ∧ s.retransmitPending = false := by
    clear hwait
    induction h with
    | init =>
        exact ⟨.of_calm (by simp [Waiting, initCtx]) (fun harmed => absurd harmed Bool.false_ne_true) rfl rfl, rfl⟩
    | call call _ hlegal htimely ih => exact Call.guarded hr ih.1 ih.2 hlegal htimely
  rcases hguarded.1.timed hwait with ht1 | harmed
  · exact ht1
  · exact absurd (hguarded.2.symm.trans harmed) (by decide)

/-- The callback of WINDOW_OPEN sends the next payload. -/
def sendingOn (st : Station) : Event → Ctx → Ctx
  | .windowOpen, s => (transmitI st s (.octets [0x33])).2
  | _, s => s

/-- The mock set-up with `slotCount` slots and such a callback. -/
def sendingStation (slotCount : Nat) (hpos : 0 < slotCount) (hle : slotCount ≤ 7) : Station :=
  { mockStation 0x01 slotCount hpos hle with
    platform := { mockPlatform with onEvent := some (sendingOn (mockStation 0x01 slotCount hpos hle)) } }

theorem sendingStation_reentrant (slotCount : Nat) (hpos : 0 < slotCount) (hle : slotCount ≤ 7) :
    Reentrant (sendingStation slotCount hpos hle) where
  onData := by
    rintro f ⟨⟩ payload s
    exact ⟨[], by simp, rfl⟩
  onEvent := by
    rintro f ⟨⟩ event s
    cases event with
    | windowOpen => exact ⟨[.transmitI (.octets [0x33])], by simp [Call.Nested, Payload.NonNull, Payload.isNull], rfl⟩
    | _ => exact ⟨[], by simp, rfl⟩

/-- Two I-frames fill two slots; the RR acknowledges the first of them. -/
theorem nested_waits_timed_mock :
    let st := sendingStation 2 (by decide) (by decide)
    let calls : List Call := [.linkSetup 0x02,
      .dataIn (Frame.octets crcOpsDefault ⟨0x02, uCtrl uUa true, []⟩), .transmitI (.octets [0x11]),
      .transmitI (.octets [0x22]), .dataIn (Frame.octets crcOpsDefault ⟨0x01, sCtrl sRr 1 false, []⟩)]
    (calls.foldl (Call.run st) (initCtx st zeroMemory)).t1Active = true := by
  intro st calls
  have hlegal : ∀ call ∈ calls, call.Legal := by simp [calls, Call.Legal, Payload.NonNull, Payload.isNull]
  have htimely : Along st (Timely st) (initCtx st zeroMemory) calls := by decide +kernel
  refine nested_waits_timed (sendingStation_reentrant 2 _ _) (ReachableBy.init.foldl hlegal htimely) ?_
  decide +kernel

/-- One I-frame fills the only slot, and the RR acknowledges it. -/
def sentOn : Ctx :=
  [.linkSetup 0x02, .dataIn (Frame.octets crcOpsDefault ⟨0x02, uCtrl uUa true, []⟩),
    .transmitI (.octets [0x11]),
    .dataIn (Frame.octets crcOpsDefault ⟨0x01, sCtrl sRr 1 false, []⟩)].foldl
    (Call.run (sendingStation 1 (by decide) (by decide)))
    (initCtx (sendingStation 1 (by decide) (by decide)) zeroMemory)

/-- The I-frame that the callback has sent waits for its acknowledgement without T1. -/
theorem nested_transmit_stalls :
    let st := sendingStation 1 (by decide) (by decide)
    Reentrant st ∧ Reachable st zeroMemory sentOn ∧ sentOn.currentState = .connected ∧
      sentOn.va ≠ sentOn.vs ∧ sentOn.t1Active = false :=
  ⟨sendingStation_reentrant 1 _ _,
    Reachable.init.foldl (by simp [Call.Legal, Payload.NonNull, Payload.isNull]), by decide +kernel⟩

end Nested

end AtcHdlc
