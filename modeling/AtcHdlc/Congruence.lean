import AtcHdlc.Answers

/-! Relations between two contexts that the handling of a frame keeps. A handler chooses by a few fields
and performs elementary effects; a relation under which these fields are equal and which every effect
keeps is kept by the dispatch of any frame. -/

namespace AtcHdlc

/-- The fields by which the handlers choose. -/
structure ControlView where
  currentState : State
  myAddress : UInt8
  peerAddress : UInt8
  vs : Nat
  va : Nat
  vr : Nat
  t2Active : Bool
  rejException : Bool
  remoteBusy : Bool
  localBusy : Bool

def controlView (s : Ctx) : ControlView :=
  ⟨s.currentState, s.myAddress, s.peerAddress, s.vs, s.va, s.vr, s.t2Active, s.rejException, s.remoteBusy,
    s.localBusy⟩

/-- A step that two related contexts do alike. -/
def Keeping (R : Ctx → Ctx → Prop) (f : Ctx → Ctx) : Prop := ∀ ⦃s t⦄, R s t → R (f s) (f t)

namespace Keeping

variable {R : Ctx → Ctx → Prop} {f g : Ctx → Ctx}

theorem id : Keeping R fun s => s := fun _ _ h => h

theorem comp (hg : Keeping R g) (hf : Keeping R f) : Keeping R fun s => g (f s) :=
  fun _ _ h => hg (hf h)

/-- A choice that related contexts make alike. -/
theorem ite {c : Ctx → Prop} [DecidablePred c] (hc : ∀ ⦃s t⦄, R s t → (c s ↔ c t)) (hf : Keeping R f)
    (hg : Keeping R g) : Keeping R fun s => if c s then f s else g s := by
  intro s t h
  by_cases hs : c s
  · simp only [if_pos hs, if_pos ((hc h).mp hs)]
    exact hf h
  · simp only [if_neg hs, if_neg (mt (hc h).mpr hs)]
    exact hg h

/-- A choice that does not look at the context. -/
theorem ite_const {c : Prop} [Decidable c] (hf : Keeping R f) (hg : Keeping R g) :
    Keeping R fun s => if c then f s else g s :=
  ite (c := fun _ => c) (fun _ _ _ => Iff.rfl) hf hg

/-- A step whose choice is read off beforehand. -/
theorem read {β : Type} {k : Ctx → β} {f : β → Ctx → Ctx} (hk : ∀ ⦃s t⦄, R s t → k s = k t)
    (hf : ∀ b, Keeping R (f b)) : Keeping R fun s => f (k s) s := by
  intro s t h
  simp only [hk h]
  exact hf (k t) h

end Keeping

/-- A relation that determines the choices of the handlers and that the elementary effects keep. -/
structure Congruence (st : Station) (R : Ctx → Ctx → Prop) : Prop where
  control {s t : Ctx} (h : R s t) : controlView s = controlView t
  put (f : Frame) (hf : (f.ctrl == uCtrl uFrmr false) = false) : Keeping R fun s => s.put st f
  t1Start : Keeping R (t1Start st)
  t1Stop : Keeping R (t1Stop st)
  t2Start : Keeping R (t2Start st)
  t2Stop : Keeping R (t2Stop st)
  data (payload : List UInt8) : Keeping R fun s => onData st s payload
  event (event : Event) : Keeping R fun s => onEvent st s event
  dispatch (r : Received) : Keeping R fun s => s.log (.dispatch r.address r.ctrl r.info)
  link (state : State) : Keeping R fun s => { s with currentState := state }
  reset : Keeping R (resetState st)
  ack (nr : Nat) : Keeping R fun s => { s.log (.acked nr) with va := nr, n2 := 0 }
  nullWindow : Keeping R fun s => s.log .nullWindow
  receive (payload : List UInt8) :
    Keeping R fun s => { s.log (.received payload) with vr := (s.vr + 1) % mod8, rejException := false }
  rejException : Keeping R fun s => { s with rejException := true }
  remoteBusy (busy : Bool) : Keeping R fun s => { s with remoteBusy := busy }
  arm (fromSeq : Nat) : Keeping R fun s => { s with retransmitFrom := fromSeq, retransmitPending := true }
  frmr (ctrl flags : UInt8) :
    Keeping R fun s => retransmitFrmr st (AtcHdlc.t2Stop st { s with frmrCtrl := ctrl, frmrFlags := flags })

namespace Congruence

variable {st : Station} {R : Ctx → Ctx → Prop}

/-- A choice by the control fields. -/
theorem ite (C : Congruence st R) (k : ControlView → Prop) [DecidablePred k] {f g : Ctx → Ctx}
    (hf : Keeping R f) (hg : Keeping R g) : Keeping R fun s => if k (controlView s) then f s else g s :=
  Keeping.ite (fun s t h => by rw [C.control h]) hf hg

/-- A step that reads a control field beforehand. -/
theorem read (C : Congruence st R) {β : Type} (k : ControlView → β) {f : β → Ctx → Ctx}
    (hf : ∀ b, Keeping R (f b)) : Keeping R fun s => f (k (controlView s)) s :=
  Keeping.read (k := fun s => k (controlView s)) (fun _ _ h => congrArg k (C.control h)) hf

variable (C : Congruence st R)
include C

theorem sendU (address : ControlView → UInt8) {ctrl : UInt8} (hctrl : (ctrl == uCtrl uFrmr false) = false) :
    Keeping R fun s => sendU st s (address (controlView s)) ctrl := by
  simp only [sendU_eq]
  exact C.read address (f := fun b s => s.put st ⟨b, ctrl, []⟩) fun b => C.put ⟨b, ctrl, []⟩ hctrl

theorem sendS (address : ControlView → UInt8) (kind : Nat) (pf : Bool) :
    Keeping R fun s => sendS st s (address (controlView s)) kind s.vr pf := by
  simp only [sendS_eq]
  exact C.read (fun v => (address v, v.vr)) (f := fun b s => s.put st ⟨b.1, sCtrl kind b.2 pf, []⟩)
    fun b => C.put ⟨b.1, sCtrl kind b.2 pf, []⟩ (sCtrl_ne_frmr kind b.2 pf)

theorem sendUa (pf : Bool) : Keeping R fun s => sendUa st s pf :=
  C.sendU (·.myAddress) (by cases pf <;> decide)

theorem sendDm (pf : Bool) : Keeping R fun s => sendDm st s pf :=
  C.sendU (·.myAddress) (by cases pf <;> decide)

theorem sendRr (pf : Bool) : Keeping R fun s => sendRr st s pf := C.sendS (·.peerAddress) sRr pf

theorem sendRrResp (pf : Bool) : Keeping R fun s => sendRrResp st s pf := C.sendS (·.myAddress) sRr pf

theorem sendRnr (pf : Bool) : Keeping R fun s => sendRnr st s pf := C.sendS (·.myAddress) sRnr pf

theorem sendRej (pf : Bool) : Keeping R fun s => sendRej st s pf := C.sendS (·.peerAddress) sRej pf

theorem sendFrmr (ctrl : UInt8) (w x y z : Bool) : Keeping R fun s => sendFrmr st s ctrl w x y z :=
  C.t1Start.comp (C.frmr ctrl _)

/-! ### Handlers -/

theorem setState (newState : State) (event : Event) : Keeping R fun s => setState st s newState event :=
  C.ite (fun v => v.currentState ≠ newState ∨ event = .connReq) ((C.event event).comp (C.link newState)) .id

theorem framesAcked (nr : Nat) : Keeping R fun s => framesAcked st s nr := by
  unfold AtcHdlc.framesAcked
  cases st.txWindow with
  | none => exact C.ite (fun v => nr = v.va) .id (C.nullWindow.comp (C.ack nr))
  | some w =>
      exact C.ite (fun v => nr = v.va) .id
        (C.ite (fun v => u8 (((v.vs : Int) - v.va) % mod8) ≥ w.slotCount)
          ((C.event .windowOpen).comp (C.ack nr)) (C.ack nr))

theorem processNr (nr : Nat) : Keeping R fun s => processNr st s nr :=
  C.ite (fun v => v.vs = nr) (C.t1Stop.comp (C.framesAcked nr))
    (C.ite (fun v => v.va ≠ nr) (C.t1Start.comp (C.framesAcked nr)) .id)

theorem triggerRetransmit (fromSeq : Nat) : Keeping R fun s => triggerRetransmit st s fromSeq :=
  C.ite (fun v => st.txWindow.isNone ∨ v.vs = fromSeq) .id (C.arm fromSeq)

theorem rejectNr (ctrl : UInt8) : Keeping R fun s => rejectNr st s ctrl :=
  (C.setState .frmrError .protocolError).comp (C.sendFrmr ctrl false false false true)

theorem handleInSequenceIframe (pf : Bool) (info : Option (List UInt8)) :
    Keeping R fun s => handleInSequenceIframe st s pf info := by
  have hdata := (C.data (info.getD [])).comp (C.receive (info.getD []))
  have hpolled : Keeping R fun s =>
      AtcHdlc.t2Stop st (if s.localBusy then AtcHdlc.sendRnr st s true else AtcHdlc.sendRrResp st s true) :=
    C.t2Stop.comp (C.ite (·.localBusy) (C.sendRnr true) (C.sendRrResp true))
  have hdelayed : Keeping R fun s =>
      if ¬s.t2Active then
        if s.localBusy then AtcHdlc.sendRnr st s false else AtcHdlc.t2Start st s
      else s :=
    C.ite (fun v => ¬v.t2Active) (C.ite (·.localBusy) (C.sendRnr false) C.t2Start) .id
  cases pf with
  | true => exact hpolled.comp hdata
  | false => exact hdelayed.comp hdata

theorem handleOutOfSequenceIframe (pf : Bool) : Keeping R fun s => handleOutOfSequenceIframe st s pf := by
  have hrej : Keeping R fun s => AtcHdlc.t2Stop st (AtcHdlc.sendRej st s pf) := C.t2Stop.comp (C.sendRej pf)
  cases pf with
  | true => exact C.ite (·.rejException) (C.sendRrResp true) (hrej.comp C.rejException)
  | false => exact C.ite (·.rejException) .id (hrej.comp C.rejException)

theorem handleIframe (ctrl : UInt8) (info : Option (List UInt8)) :
    Keeping R fun s => handleIframe st s ctrl info := by
  have hsequence : Keeping R fun s =>
      if ctrlNs ctrl = s.vr then AtcHdlc.handleInSequenceIframe st s (ctrlPf ctrl) info
      else AtcHdlc.handleOutOfSequenceIframe st s (ctrlPf ctrl) :=
    C.ite (fun v => ctrlNs ctrl = v.vr) (C.handleInSequenceIframe _ info) (C.handleOutOfSequenceIframe _)
  have hvalid : ∀ ⦃s t⦄, R s t → (¬nrValid s (ctrlNr ctrl) ↔ ¬nrValid t (ctrlNr ctrl)) := by
    intro s t h
    have hva : s.va = t.va := congrArg ControlView.va (C.control h)
    have hvs : s.vs = t.vs := congrArg ControlView.vs (C.control h)
    rw [nrValid, nrValid, hva, hvs]
  exact .ite hvalid (C.rejectNr ctrl) (hsequence.comp (C.processNr _))

theorem updateRemoteBusy (kind : Nat) : Keeping R fun s => updateRemoteBusy st s kind :=
  .ite_const
    (C.ite (·.remoteBusy) ((C.event .peerReady).comp (C.remoteBusy false)) (C.remoteBusy false))
    (.ite_const
      (C.ite (fun v => ¬v.remoteBusy) ((C.event .peerBusy).comp (C.remoteBusy true)) .id)
      (.ite_const (C.remoteBusy false) .id))

theorem handleSframe (address ctrl : UInt8) : Keeping R fun s => handleSframe st s address ctrl := by
  have hpoll (cmd : Bool) : Keeping R fun s =>
      if cmd ∧ ctrlPf ctrl then AtcHdlc.t2Stop st (AtcHdlc.sendRrResp st s true) else s :=
    .ite_const (C.t2Stop.comp (C.sendRrResp true)) .id
  have hrej : Keeping R fun s =>
      if s.va ≠ s.vs then AtcHdlc.triggerRetransmit st s (ctrlNr ctrl) else s :=
    C.ite (fun v => v.va ≠ v.vs) (C.triggerRetransmit (ctrlNr ctrl)) .id
  have hacked : Keeping R fun s =>
      if ctrlS ctrl = sRej then
        let s := AtcHdlc.t1Stop st (AtcHdlc.framesAcked st s (ctrlNr ctrl))
        if s.va ≠ s.vs then AtcHdlc.triggerRetransmit st s (ctrlNr ctrl) else s
      else AtcHdlc.processNr st s (ctrlNr ctrl) :=
    .ite_const (hrej.comp (C.t1Stop.comp (C.framesAcked _))) (C.processNr _)
  have hresend : Keeping R fun s => AtcHdlc.triggerRetransmit st s s.va :=
    C.read (·.va) (f := fun nr s => AtcHdlc.triggerRetransmit st s nr) C.triggerRetransmit
  have hfinal (cmd : Bool) : Keeping R fun s =>
      if ¬cmd ∧ ctrlPf ctrl then
        if s.va ≠ s.vs then AtcHdlc.triggerRetransmit st s s.va else s
      else s :=
    .ite_const (C.ite (fun v => v.va ≠ v.vs) hresend .id) .id
  have hvalid : ∀ ⦃s t⦄, R s t → (¬nrValid s (ctrlNr ctrl) ↔ ¬nrValid t (ctrlNr ctrl)) := by
    intro s t h
    have hva : s.va = t.va := congrArg ControlView.va (C.control h)
    have hvs : s.vs = t.vs := congrArg ControlView.vs (C.control h)
    rw [nrValid, nrValid, hva, hvs]
  have hnumbered (cmd : Bool) := Keeping.ite hvalid (C.rejectNr ctrl) ((hfinal cmd).comp hacked)
  exact C.read (fun v => address == v.myAddress) (f := fun cmd s => _) fun cmd =>
    (hnumbered cmd).comp ((hpoll cmd).comp (C.updateRemoteBusy (ctrlS ctrl)))

/-- The answer to a SABM. -/
theorem answerSabm (pf : Bool) : Keeping R fun s =>
    AtcHdlc.setState st (AtcHdlc.sendUa st (resetState st s) pf) .connected .connReq :=
  (C.setState .connected .connReq).comp ((C.sendUa pf).comp C.reset)

theorem handleUframe (address ctrl : UInt8) (info : Option (List UInt8)) :
    Keeping R fun s => handleUframe st s address ctrl info := by
  unfold AtcHdlc.handleUframe
  cases uCmd ctrl with
  | sabm => exact C.answerSabm _
  | disc => exact (C.setState .disconnected .peerDisc).comp ((C.sendUa _).comp C.reset)
  | dm => exact (C.setState .disconnected .peerReject).comp C.reset
  | frmr => exact (C.setState .frmrError .protocolError).comp C.reset
  | ui => exact C.data _
  | test =>
      have hanswer : Keeping R fun s =>
          frameSend st s s.myAddress (uCtrl uTest (ctrlPf ctrl)) (.octets (info.getD [])) := by
        simp only [frameSend_octets]
        have hctrl : (uCtrl uTest (ctrlPf ctrl) == uCtrl uFrmr false) = false := by
          cases ctrlPf ctrl <;> decide
        exact C.read (·.myAddress)
          (f := fun a s => s.put st ⟨a, uCtrl uTest (ctrlPf ctrl), info.getD []⟩) fun _ => C.put _ hctrl
      refine C.ite (fun v => (address == v.myAddress) = true) hanswer ?_
      cases info with
      | none => exact .id
      | some payload => exact C.data payload
  | snrm | sabme | snrme | sarme => exact C.sendDm _
  | ua | unknown => exact C.sendFrmr ctrl true false false false

theorem stateConnected (address ctrl : UInt8) (info : Option (List UInt8)) :
    Keeping R fun s => stateConnected st s address ctrl info :=
  .ite_const (C.handleIframe ctrl info)
    (.ite_const (C.handleSframe address ctrl) (.ite_const (C.handleUframe address ctrl info) .id))

theorem stateDisconnected (ctrl : UInt8) (info : Option (List UInt8)) :
    Keeping R fun s => stateDisconnected st s ctrl info := by
  refine .ite_const .id ?_
  cases uCmd ctrl with
  | sabm => exact C.answerSabm _
  | disc => exact C.sendUa _
  | ui => exact C.data _
  | snrm | sabme | snrme | sarme => exact C.sendDm _
  | ua | dm | frmr | test | unknown => exact .id

/-- The end of a set-up or of a release that an answer with the final bit brings. -/
theorem settled (final : Bool) (newState : State) (event : Event) : Keeping R fun s =>
    if final then AtcHdlc.setState st (AtcHdlc.t1Stop st s) newState event else s :=
  .ite_const ((C.setState newState event).comp C.t1Stop) .id

theorem stateConnecting (ctrl : UInt8) : Keeping R fun s => stateConnecting st s ctrl := by
  refine .ite_const .id ?_
  cases uCmd ctrl with
  | sabm => exact C.sendUa _
  | disc => exact C.sendDm _
  | ua => exact .ite_const ((C.setState .connected .connAccepted).comp (C.reset.comp C.t1Stop)) .id
  | dm => exact C.settled (ctrlPf ctrl) .disconnected .peerReject
  | frmr | ui | test | snrm | sabme | snrme | sarme | unknown => exact .id

theorem stateDisconnecting (ctrl : UInt8) : Keeping R fun s => stateDisconnecting st s ctrl := by
  refine .ite_const (.ite_const (C.sendDm true) .id) ?_
  cases uCmd ctrl with
  | sabm | sabme => exact C.sendDm _
  | disc => exact C.sendUa _
  | ua => exact C.settled (ctrlPf ctrl) .disconnected .discDone
  | dm => exact C.settled (ctrlPf ctrl) .disconnected .peerReject
  | frmr | ui | test | snrm | snrme | sarme | unknown => exact .id

theorem stateFrmrError (ctrl : UInt8) : Keeping R fun s => stateFrmrError st s ctrl :=
  .ite_const .id (.ite_const (C.answerSabm _) .id)

/-- The handling of a frame in the state that the contexts share. -/
theorem dispatchFrame (r : Received) : Keeping R (r.dispatch st) := by
  intro s t h
  have hlogged : R (s.log (.dispatch r.address r.ctrl r.info)) (t.log (.dispatch r.address r.ctrl r.info)) :=
    C.dispatch r h
  change R (AtcHdlc.dispatchFrame st s r.address r.ctrl r.info) (AtcHdlc.dispatchFrame st t r.address r.ctrl r.info)
  unfold AtcHdlc.dispatchFrame
  generalize s.log (.dispatch r.address r.ctrl r.info) = s' at hlogged
  generalize t.log (.dispatch r.address r.ctrl r.info) = t' at hlogged
  have hsame : s'.currentState = t'.currentState := congrArg ControlView.currentState (C.control hlogged)
  simp only [hsame]
  cases t'.currentState with
  | disconnected => exact C.stateDisconnected r.ctrl r.info hlogged
  | connecting => exact C.stateConnecting r.ctrl hlogged
  | connected => exact C.stateConnected r.address r.ctrl r.info hlogged
  | disconnecting => exact C.stateDisconnecting r.ctrl hlogged
  | frmrError => exact C.stateFrmrError r.ctrl hlogged

end Congruence

end AtcHdlc
