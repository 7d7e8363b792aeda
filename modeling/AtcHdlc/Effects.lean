import Mathlib.Logic.Relation
import AtcHdlc.Encode

/-! What the receive side can do, said once. Every handler is a sequence of elementary effects, each
with the guard under which the code performs it; a property of contexts that every effect keeps is
kept by the dispatch of any frame in any state, and its proof looks at the effects only. -/

namespace AtcHdlc

/-- Callbacks that do not change what `π` sees of the context. -/
def Platform.Preserves {β : Type} (p : Platform) (π : Ctx → β) : Prop :=
  (∀ f ∈ p.onData, ∀ payload s, π (f payload s) = π s) ∧ ∀ f ∈ p.onEvent, ∀ event s, π (f event s) = π s

theorem Platform.Passive.preserves {β : Type} {p : Platform} (h : p.Passive) (π : Ctx → β) :
    p.Preserves π :=
  ⟨fun f hf payload s => by rw [h.1 f hf], fun f hf event s => by rw [h.2 f hf]⟩

/-- The trace entry of a data callback, if there is one. -/
def dataObs (st : Station) (payload : List UInt8) : List Obs :=
  if st.platform.onData.isSome then [.data payload] else []

/-- The trace entry of an event callback, if there is one. -/
def eventObs (st : Station) (event : Event) : List Obs :=
  if st.platform.onEvent.isSome then [.event event] else []

theorem onData_passive {st : Station} (hp : st.platform.Passive) (s : Ctx) (payload : List UInt8) :
    onData st s payload = s.logs (dataObs st payload) := by
  unfold onData dataObs
  cases hf : st.platform.onData with
  | none => simp [Ctx.logs]
  | some f => simp [hp.1 f hf, Ctx.log, Ctx.logs]

theorem onEvent_passive {st : Station} (hp : st.platform.Passive) (s : Ctx) (event : Event) :
    onEvent st s event = s.logs (eventObs st event) := by
  unfold onEvent eventObs
  cases hf : st.platform.onEvent with
  | none => simp [Ctx.logs]
  | some f => simp [hp.2 f hf, Ctx.log, Ctx.logs]

/-! ### Elementary effects -/

/-- One elementary effect of the handling of a frame with control octet `ctrl`. -/
inductive Effect (st : Station) (ctrl : UInt8) : Ctx → Ctx → Prop where
  | put (s : Ctx) (f : Frame) : Effect st ctrl s (s.put st f)
  | t1Start (s : Ctx) : Effect st ctrl s (t1Start st s)
  | t1Stop (s : Ctx) : Effect st ctrl s (t1Stop st s)
  | t2Start (s : Ctx) : Effect st ctrl s (t2Start st s)
  | t2Stop (s : Ctx) : Effect st ctrl s (t2Stop st s)
  | data (s : Ctx) (payload : List UInt8) : Effect st ctrl s (onData st s payload)
  | event (s : Ctx) (event : Event) : Effect st ctrl s (onEvent st s event)
  | link (s : Ctx) (state : State) : Effect st ctrl s { s with currentState := state }
  | reset (s : Ctx) : Effect st ctrl s (resetState st s)
  | ack (s : Ctx) (hvalid : nrValid s (ctrlNr ctrl)) (hne : ctrlNr ctrl ≠ s.va) :
      Effect st ctrl s { s.log (.acked (ctrlNr ctrl)) with va := ctrlNr ctrl, n2 := 0 }
  | nullWindow (s : Ctx) (hnone : st.txWindow = none) (hacked : Obs.acked (ctrlNr ctrl) ∈ s.trace) :
      Effect st ctrl s (s.log .nullWindow)
  | receive (s : Ctx) (payload : List UInt8) :
      Effect st ctrl s { s.log (.received payload) with vr := (s.vr + 1) % mod8, rejException := false }
  | rejException (s : Ctx) : Effect st ctrl s { s with rejException := true }
  | remoteBusy (s : Ctx) (busy : Bool) : Effect st ctrl s { s with remoteBusy := busy }
  | arm (s : Ctx) (fromSeq : Nat) (hsome : st.txWindow ≠ none) (hne : s.vs ≠ fromSeq)
      (hva : st.platform.Passive → fromSeq = s.va) :
      Effect st ctrl s { s with retransmitFrom := fromSeq, retransmitPending := true }
  | frmr (s : Ctx) (flags : UInt8) :
      Effect st ctrl s { s with frmrCtrl := ctrl, frmrFlags := flags }

/-- A sequence of elementary effects. -/
abbrev Effects (st : Station) (ctrl : UInt8) : Ctx → Ctx → Prop :=
  Relation.ReflTransGen (Effect st ctrl)

/-- What every effect keeps, every sequence of effects keeps. -/
theorem Effects.induct {st : Station} {ctrl : UInt8} {P : Ctx → Prop}
    (hstep : ∀ s s', Effect st ctrl s s' → P s → P s') {s s' : Ctx} (h : Effects st ctrl s s') (hs : P s) :
    P s' := by
  induction h with
  | refl => exact hs
  | tail _ he ih => exact hstep _ _ he ih

/-- The effect that an `if` without an `else` may leave out. -/
theorem Effects.ite {st : Station} {ctrl : UInt8} {c : Prop} [Decidable c] {s t : Ctx} (h : c → Effects st ctrl s t) :
    Effects st ctrl s (if c then t else s) := by
  split_ifs with hc
  · exact h hc
  · exact .refl

theorem ctrlNr_lt (ctrl : UInt8) : ctrlNr ctrl < 8 := by
  have h : ((ctrl >>> 5) &&& 0x07).toNat ≤ 7 := by
    rw [UInt8.toNat_and]
    exact Nat.and_le_right
  exact Nat.lt_succ_of_le h

section Handlers

variable (st : Station) (ctrl : UInt8)

theorem setState_effects (s : Ctx) (newState : State) (event : Event) :
    Effects st ctrl s (setState st s newState event) :=
  Effects.ite fun _ => (Relation.ReflTransGen.single (.link s newState)).tail (.event _ event)

theorem framesAcked_effects (s : Ctx) (hvalid : nrValid s (ctrlNr ctrl)) :
    Effects st ctrl s (framesAcked st s (ctrlNr ctrl)) := by
  unfold framesAcked
  split_ifs with heq
  · exact .refl
  · have hack : Effects st ctrl s { s.log (.acked (ctrlNr ctrl)) with va := ctrlNr ctrl, n2 := 0 } :=
      .single (.ack s hvalid heq)
    cases hw : st.txWindow with
    | none => exact hack.tail (.nullWindow _ hw (List.mem_append_right _ List.mem_cons_self))
    | some w => exact hack.trans (Effects.ite fun _ => .single (.event _ .windowOpen))

theorem processNr_effects (s : Ctx) (hvalid : nrValid s (ctrlNr ctrl)) :
    Effects st ctrl s (processNr st s (ctrlNr ctrl)) := by
  have hacked := framesAcked_effects st ctrl s hvalid
  unfold processNr
  split_ifs
  · exact hacked.tail (.t1Stop _)
  · exact hacked.tail (.t1Start _)
  · exact .refl

theorem sendFrmr_effects (s : Ctx) (w x y z : Bool) :
    Effects st ctrl s (sendFrmr st s ctrl w x y z) := by
  simp only [sendFrmr, retransmitFrmr_eq]
  exact (((Relation.ReflTransGen.single (.frmr s _)).tail (.t2Stop _)).tail (.put _ _)).tail
    (.t1Start _)

theorem rejectNr_effects (s : Ctx) : Effects st ctrl s (rejectNr st s ctrl) :=
  (sendFrmr_effects st ctrl s false false false true).trans (setState_effects st ctrl _ _ _)

theorem handleInSequenceIframe_effects (s : Ctx) (pf : Bool) (info : Option (List UInt8)) :
    Effects st ctrl s (handleInSequenceIframe st s pf info) := by
  have hdata := (Relation.ReflTransGen.single (@Effect.receive st ctrl s (info.getD []))).tail
    (.data _ (info.getD []))
  simp only [handleInSequenceIframe, sendRnr, sendRrResp, sendS_eq]
  split_ifs
  · exact (hdata.tail (.put _ _)).tail (.t2Stop _)
  · exact (hdata.tail (.put _ _)).tail (.t2Stop _)
  · exact hdata
  · exact hdata.tail (.put _ _)
  · exact hdata.tail (.t2Start _)

theorem handleOutOfSequenceIframe_effects (s : Ctx) (pf : Bool) :
    Effects st ctrl s (handleOutOfSequenceIframe st s pf) := by
  simp only [handleOutOfSequenceIframe, sendRrResp, sendRej, sendS_eq]
  split_ifs
  · exact .single (.put _ _)
  · exact .refl
  · exact ((Relation.ReflTransGen.single (.rejException s)).tail (.put _ _)).tail (.t2Stop _)

theorem handleIframe_effects (s : Ctx) (info : Option (List UInt8)) :
    Effects st ctrl s (handleIframe st s ctrl info) := by
  unfold handleIframe
  by_cases hvalid : nrValid s (ctrlNr ctrl)
  · have hnr := processNr_effects st ctrl s hvalid
    simp only [hvalid, not_true_eq_false, if_false]
    split_ifs
    · exact hnr.trans (handleInSequenceIframe_effects st ctrl _ _ _)
    · exact hnr.trans (handleOutOfSequenceIframe_effects st ctrl _ _)
  · simp only [hvalid, Bool.false_eq_true, not_false_eq_true, if_true]
    exact rejectNr_effects st ctrl s

theorem updateRemoteBusy_effects (s : Ctx) (kind : Nat) :
    Effects st ctrl s (updateRemoteBusy st s kind) := by
  simp only [updateRemoteBusy]
  split_ifs
  · exact (Relation.ReflTransGen.single (.remoteBusy s false)).tail (.event _ .peerReady)
  · exact .single (.remoteBusy s false)
  · exact .refl
  · exact (Relation.ReflTransGen.single (.remoteBusy s true)).tail (.event _ .peerBusy)
  · exact .single (.remoteBusy s false)
  · exact .refl

theorem triggerRetransmit_effects (s : Ctx) (fromSeq : Nat)
    (hva : st.platform.Passive → fromSeq = s.va) :
    Effects st ctrl s (triggerRetransmit st s fromSeq) := by
  unfold triggerRetransmit
  split_ifs with h
  · exact .refl
  · push Not at h
    exact .single (.arm s fromSeq (by simpa using h.1) h.2 hva)

/-- V(A) after an acknowledgement, when callbacks leave it alone. -/
theorem framesAcked_va {st : Station} (hp : st.platform.Passive) (s : Ctx) (nr : Nat) :
    (framesAcked st s nr).va = nr := by
  unfold framesAcked
  split_ifs with h
  · exact h.symm
  · cases st.txWindow with
    | none => rfl
    | some w =>
        simp only
        split_ifs
        · rw [onEvent_passive hp]
          rfl
        · rfl

theorem handleSframe_effects (s : Ctx) (address : UInt8) :
    Effects st ctrl s (handleSframe st s address ctrl) := by
  have hbusy := updateRemoteBusy_effects st ctrl s (ctrlS ctrl)
  unfold handleSframe
  extract_lets kind nr pf cmd busy polled stopped acked
  have hpolled : Effects st ctrl s polled := by
    refine hbusy.trans (Effects.ite fun _ => ?_)
    simp only [sendRrResp, sendS_eq]
    exact (Relation.ReflTransGen.single (.put _ _)).tail (.t2Stop _)
  by_cases hvalid : nrValid polled nr
  · simp only [hvalid, not_true_eq_false, if_false]
    have hacked : Effects st ctrl s acked := by
      refine hpolled.trans ?_
      unfold acked stopped
      split_ifs
      · have hframes := framesAcked_effects st ctrl polled hvalid
        refine (hframes.tail (.t1Stop _)).trans (triggerRetransmit_effects st ctrl _ nr ?_)
        intro hp
        exact (framesAcked_va hp polled nr).symm
      · exact (framesAcked_effects st ctrl polled hvalid).tail (.t1Stop _)
      · exact processNr_effects st ctrl polled hvalid
    split_ifs
    · exact hacked.trans (triggerRetransmit_effects st ctrl acked acked.va fun _ => rfl)
    · exact hacked
    · exact hacked
  · simp only [hvalid, Bool.false_eq_true, not_false_eq_true, if_true]
    exact hpolled.trans (rejectNr_effects st ctrl polled)

/-- The answer of `handle_uframe`, `state_disconnected` and `state_frmr_error` to a SABM. -/
theorem answerSabm_effects (s : Ctx) (pf : Bool) :
    Effects st ctrl s (setState st (sendUa st (resetState st s) pf) .connected .connReq) := by
  simp only [sendUa, sendU_eq]
  exact ((Relation.ReflTransGen.single (.reset s)).tail (.put _ _)).trans (setState_effects st ctrl _ _ _)

theorem handleUframe_effects (s : Ctx) (address : UInt8) (info : Option (List UInt8)) :
    Effects st ctrl s (handleUframe st s address ctrl info) := by
  unfold handleUframe
  cases uCmd ctrl with
  | sabm => exact answerSabm_effects st ctrl s _
  | disc =>
      simp only [sendUa, sendU_eq]
      exact ((Relation.ReflTransGen.single (.reset s)).tail (.put _ _)).trans
        (setState_effects st ctrl _ _ _)
  | dm => exact (Relation.ReflTransGen.single (.reset s)).trans (setState_effects st ctrl _ _ _)
  | frmr => exact (Relation.ReflTransGen.single (.reset s)).trans (setState_effects st ctrl _ _ _)
  | ui => exact .single (.data s _)
  | test =>
      simp only [frameSend_octets]
      split_ifs
      · exact .single (.put s _)
      · cases info with
        | some payload => exact .single (.data s _)
        | none => exact .refl
  | snrm | sabme | snrme | sarme => 
      simp only [sendDm, sendU_eq]
      exact .single (.put s _)
  | ua | unknown => exact sendFrmr_effects st ctrl s true false false false

theorem stateConnected_effects (s : Ctx) (address : UInt8) (info : Option (List UInt8)) :
    Effects st ctrl s (stateConnected st s address ctrl info) := by
  unfold stateConnected
  split_ifs
  · exact handleIframe_effects st ctrl s info
  · exact handleSframe_effects st ctrl s address
  · exact handleUframe_effects st ctrl s address info
  · exact .refl

theorem stateDisconnected_effects (s : Ctx) (info : Option (List UInt8)) :
    Effects st ctrl s (stateDisconnected st s ctrl info) := by
  unfold stateDisconnected
  split_ifs
  · cases uCmd ctrl with
    | sabm => exact answerSabm_effects st ctrl s _
    | ui => exact .single (.data s _)
    | disc | snrm | sabme | snrme | sarme =>
        simp only [sendUa, sendDm, sendU_eq]
        exact .single (.put s _)
    | ua | dm | frmr | test | unknown => exact .refl
  · exact .refl

/-- The end of a set-up or of a release that an answer with the final bit brings. -/
theorem settled_effects (s : Ctx) (final : Bool) (newState : State) (event : Event) :
    Effects st ctrl s (if final then setState st (t1Stop st s) newState event else s) :=
  Effects.ite fun _ => (Relation.ReflTransGen.single (.t1Stop s)).trans (setState_effects st ctrl _ _ _)

theorem stateConnecting_effects (s : Ctx) : Effects st ctrl s (stateConnecting st s ctrl) := by
  simp only [stateConnecting, sendUa, sendDm, sendU_eq]
  by_cases hu : isUframe ctrl
  · simp only [hu, not_true_eq_false, if_false]
    cases uCmd ctrl with
    | ua =>
        exact Effects.ite fun _ => ((Relation.ReflTransGen.single (.t1Stop s)).tail (.reset _)).trans
          (setState_effects st ctrl _ _ _)
    | dm => exact settled_effects st ctrl s _ .disconnected .peerReject
    | sabm | disc => exact .single (.put s _)
    | frmr | ui | test | snrm | sabme | snrme | sarme | unknown => exact .refl
  · simp only [hu, Bool.false_eq_true, not_false_eq_true, if_true]
    exact .refl

theorem stateDisconnecting_effects (s : Ctx) :
    Effects st ctrl s (stateDisconnecting st s ctrl) := by
  simp only [stateDisconnecting, sendUa, sendDm, sendU_eq]
  by_cases hu : isUframe ctrl
  · simp only [hu, not_true_eq_false, if_false]
    cases uCmd ctrl with
    | ua => exact settled_effects st ctrl s _ .disconnected .discDone
    | dm => exact settled_effects st ctrl s _ .disconnected .peerReject
    | sabm | sabme | disc => exact .single (.put s _)
    | frmr | ui | test | snrm | snrme | sarme | unknown => exact .refl
  · simp only [hu, Bool.false_eq_true, not_false_eq_true, if_true]
    exact Effects.ite fun _ => .single (.put s _)

theorem stateFrmrError_effects (s : Ctx) : Effects st ctrl s (stateFrmrError st s ctrl) := by
  unfold stateFrmrError
  split_ifs
  · exact answerSabm_effects st ctrl s _
  · exact .refl
  · exact .refl

/-- The dispatch of a frame is a sequence of elementary effects. -/
theorem dispatchFrame_effects (s : Ctx) (address : UInt8) (info : Option (List UInt8)) :
    Effects st ctrl (s.log (.dispatch address ctrl info)) (dispatchFrame st s address ctrl info) := by
  simp only [dispatchFrame]
  cases (s.log (.dispatch address ctrl info)).currentState with
  | disconnected => exact stateDisconnected_effects st ctrl _ info
  | connecting => exact stateConnecting_effects st ctrl _
  | connected => exact stateConnected_effects st ctrl _ address info
  | disconnecting => exact stateDisconnecting_effects st ctrl _
  | frmrError => exact stateFrmrError_effects st ctrl _

end Handlers

end AtcHdlc
