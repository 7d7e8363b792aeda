import AtcHdlc.Frame

/-! Frame dispatch and the receive side of the protocol, function by function as in
`hdlc_dispatch.c`, with `set_state` of `hdlc_station.c`. A frame is its address, its control octet
and the octets that `info` points to; `none` is the `NULL` that the parser passes for a frame without
information. -/

namespace AtcHdlc

section Dispatch

variable (st : Station)

/-- `memset(slot_lens, 0, slot_count)`, which a context without a window skips. -/
def clearSlotLens (s : Ctx) : Ctx :=
  match st.txWindow with
  | some w => { s with slotLens := fun i => if i < w.slotCount then 0 else s.slotLens i }
  | none => s

/-- `set_state`. -/
def setState (s : Ctx) (newState : State) (event : Event) : Ctx :=
  let stateChanged := s.currentState ≠ newState
  if stateChanged ∨ event = .connReq then
    onEvent st { s with currentState := newState } event
  else s

/-- `reset_state`. The bit `HDLC_F_RETRANSMIT_PENDING` is not among those it clears. -/
def resetState (s : Ctx) : Ctx :=
  let s := s.log .reset
  let s := { s with vs := 0, vr := 0, va := 0, txNextSlot := 0 }
  let s := clearSlotLens st s
  let s := { s with rejException := false, remoteBusy := false, localBusy := false, n2 := 0 }
  let s := t1Stop st s
  t2Stop st s

def framesAcked (s : Ctx) (nr : Nat) : Ctx :=
  if nr = s.va then s
  else
    let prevOut := u8 (((s.vs : Int) - s.va) % mod8)
    let s := { s.log (.acked nr) with va := nr, n2 := 0 }
    match st.txWindow with
    | some w => if prevOut ≥ w.slotCount then onEvent st s .windowOpen else s
    | none => s.log .nullWindow

def processNr (s : Ctx) (nr : Nat) : Ctx :=
  if s.vs = nr then t1Stop st (framesAcked st s nr)
  else if s.va ≠ nr then t1Start st (framesAcked st s nr)
  else s

def triggerRetransmit (s : Ctx) (fromSeq : Nat) : Ctx :=
  if st.txWindow.isNone ∨ s.vs = fromSeq then s
  else { s with retransmitFrom := fromSeq, retransmitPending := true }

def stateDisconnected (s : Ctx) (ctrl : UInt8) (info : Option (List UInt8)) : Ctx :=
  if ¬isUframe ctrl then s
  else match uCmd ctrl with
    | .sabm =>
        let s := resetState st s
        let s := sendUa st s (ctrlPf ctrl)
        setState st s .connected .connReq
    | .disc => sendUa st s (ctrlPf ctrl)
    | .ui => onData st s (info.getD [])
    | .snrm | .sabme | .snrme | .sarme => sendDm st s (ctrlPf ctrl)
    | _ => s

def stateConnecting (s : Ctx) (ctrl : UInt8) : Ctx :=
  if ¬isUframe ctrl then s
  else match uCmd ctrl with
    | .sabm => sendUa st s (ctrlPf ctrl)
    | .ua =>
        if ctrlPf ctrl then
          let s := t1Stop st s
          let s := resetState st s
          setState st s .connected .connAccepted
        else s
    | .dm =>
        if ctrlPf ctrl then
          let s := t1Stop st s
          setState st s .disconnected .peerReject
        else s
    | .disc => sendDm st s (ctrlPf ctrl)
    | _ => s

/-- The test of `validate_nr`: N(R) lies in the cyclic window from V(A) to V(S). -/
def nrValid (s : Ctx) (nr : Nat) : Bool :=
  u8 (((nr : Int) - s.va) % mod8) ≤ u8 (((s.vs : Int) - s.va) % mod8)

/-- What `validate_nr` does about an invalid N(R). -/
def rejectNr (s : Ctx) (ctrl : UInt8) : Ctx :=
  let s := sendFrmr st s ctrl false false false true
  setState st s .frmrError .protocolError

def handleInSequenceIframe (s : Ctx) (pf : Bool) (info : Option (List UInt8)) : Ctx :=
  let s := { s.log (.received (info.getD [])) with vr := (s.vr + 1) % mod8, rejException := false }
  let s := onData st s (info.getD [])
  if pf then
    let s := if s.localBusy then sendRnr st s true else sendRrResp st s true
    t2Stop st s
  else if ¬s.t2Active then
    if s.localBusy then sendRnr st s false else t2Start st s
  else s

def handleOutOfSequenceIframe (s : Ctx) (pf : Bool) : Ctx :=
  if s.rejException then
    if pf then sendRrResp st s true else s
  else
    let s := { s with rejException := true }
    let s := sendRej st s pf
    t2Stop st s

def handleIframe (s : Ctx) (ctrl : UInt8) (info : Option (List UInt8)) : Ctx :=
  let ns := ctrlNs ctrl
  let nr := ctrlNr ctrl
  let pf := ctrlPf ctrl
  if ¬nrValid s nr then rejectNr st s ctrl
  else
    let s := processNr st s nr
    if ns = s.vr then handleInSequenceIframe st s pf info
    else handleOutOfSequenceIframe st s pf

/-- The first part of `handle_sframe`: what the frame says about the peer's busy condition. -/
def updateRemoteBusy (s : Ctx) (kind : Nat) : Ctx :=
  if kind = sRr then
    let wasBusy := s.remoteBusy
    let s := { s with remoteBusy := false }
    if wasBusy then onEvent st s .peerReady else s
  else if kind = sRnr then
    if ¬s.remoteBusy then onEvent st { s with remoteBusy := true } .peerBusy else s
  else if kind = sRej then { s with remoteBusy := false }
  else s

def handleSframe (s : Ctx) (address ctrl : UInt8) : Ctx :=
  let kind := ctrlS ctrl
  let nr := ctrlNr ctrl
  let pf := ctrlPf ctrl
  let cmd := isCmd s address
  let s := updateRemoteBusy st s kind
  let s := if cmd ∧ pf then t2Stop st (sendRrResp st s true) else s
  if ¬nrValid s nr then rejectNr st s ctrl
  else
    let s :=
      if kind = sRej then
        let s := t1Stop st (framesAcked st s nr)
        if s.va ≠ s.vs then triggerRetransmit st s nr else s
      else processNr st s nr
    if ¬cmd ∧ pf then
      if s.va ≠ s.vs then triggerRetransmit st s s.va else s
    else s

def handleUframe (s : Ctx) (address ctrl : UInt8) (info : Option (List UInt8)) : Ctx :=
  let pf := ctrlPf ctrl
  match uCmd ctrl with
  | .sabm =>
      let s := resetState st s
      let s := sendUa st s pf
      setState st s .connected .connReq
  | .disc =>
      let s := resetState st s
      let s := sendUa st s pf
      setState st s .disconnected .peerDisc
  | .dm =>
      let s := resetState st s
      setState st s .disconnected .peerReject
  | .frmr =>
      let s := resetState st s
      setState st s .frmrError .protocolError
  | .ui => onData st s (info.getD [])
  | .test =>
      if isCmd s address then
        frameSend st s s.myAddress (uCtrl uTest pf) (.octets (info.getD []))
      else match info with
        | some payload => onData st s payload
        | none => s
  | .snrm | .sabme | .snrme | .sarme => sendDm st s pf
  | .ua | .unknown => sendFrmr st s ctrl true false false false

def stateConnected (s : Ctx) (address ctrl : UInt8) (info : Option (List UInt8)) : Ctx :=
  if isIframe ctrl then handleIframe st s ctrl info
  else if isSframe ctrl then handleSframe st s address ctrl
  else if isUframe ctrl then handleUframe st s address ctrl info
  else s

def stateDisconnecting (s : Ctx) (ctrl : UInt8) : Ctx :=
  if ¬isUframe ctrl then
    if ctrlPf ctrl then sendDm st s true else s
  else match uCmd ctrl with
    | .sabm | .sabme => sendDm st s (ctrlPf ctrl)
    | .disc => sendUa st s (ctrlPf ctrl)
    | .ua =>
        if ctrlPf ctrl then
          let s := t1Stop st s
          setState st s .disconnected .discDone
        else s
    | .dm =>
        if ctrlPf ctrl then
          let s := t1Stop st s
          setState st s .disconnected .peerReject
        else s
    | _ => s

def stateFrmrError (s : Ctx) (ctrl : UInt8) : Ctx :=
  if ¬isUframe ctrl then s
  else if uCmd ctrl = .sabm then
    let s := resetState st s
    let s := sendUa st s (ctrlPf ctrl)
    setState st s .connected .connReq
  else s

/-- `dispatch_frame`. -/
def dispatchFrame (s : Ctx) (address ctrl : UInt8) (info : Option (List UInt8)) : Ctx :=
  let s := s.log (.dispatch address ctrl info)
  match s.currentState with
  | .disconnected => stateDisconnected st s ctrl info
  | .connecting => stateConnecting st s ctrl
  | .connected => stateConnected st s address ctrl info
  | .disconnecting => stateDisconnecting st s ctrl
  | .frmrError => stateFrmrError st s ctrl

end Dispatch

end AtcHdlc
