import AtcHdlc.Out

/-! The station calls of `hdlc_station.c`: initialisation, link set-up and release, local busy, the
two timers and the abort. -/

namespace AtcHdlc

/-- `atc_hdlc_txwin_t` as the application fills it in; a pointer is `NULL` or not. -/
structure RawTxWindow where
  slots : Bool
  slotLens : Bool
  slotCapacity : Nat
  slotCount : Nat

/-- `atc_hdlc_rxbuf_t` as the application fills it in. -/
structure RawRxBuf where
  buffer : Bool
  capacity : Nat

/-- `atc_hdlc_plat_ops_t` as the application fills it in. -/
structure RawPlatform where
  onSend : Bool
  callbacks : Platform

/-- `atc_hdlc_params_t`. -/
structure Params where
  config : Option Config
  platform : Option RawPlatform
  txWindow : Option RawTxWindow
  rxBuf : Option RawRxBuf
  crc : Option CrcOps

/-- What the memories behind a context's pointers hold before the library writes to them. -/
structure Memory where
  slots : Nat → UInt8
  slotLens : Nat → Nat
  rxBuffer : Nat → UInt8

/-- The context that `atc_hdlc_init` leaves: all zero but for the address and the parser. -/
def initCtx (st : Station) (mem : Memory) : Ctx where
  currentState := .disconnected
  rxIndex := 0
  rxCrc := fcsInitValue
  txCrc := 0
  rxState := .hunt
  retransmitFrom := 0
  txNextSlot := 0
  myAddress := st.config.address
  peerAddress := 0
  vs := 0
  vr := 0
  va := 0
  n2 := 0
  frmrCtrl := 0
  frmrFlags := 0
  t1Active := false
  t2Active := false
  rejException := false
  remoteBusy := false
  localBusy := false
  retransmitPending := false
  slots := mem.slots
  slotLens := mem.slotLens
  rxBuffer := mem.rxBuffer
  trace := []

/-- The checks of `atc_hdlc_init` on the transmit window. -/
def checkTxWindow (config : Config) :
    (raw : Option RawTxWindow) →
      Except Error { o : Option TxWindow // ∀ w ∈ o, config.maxInfoSize ≤ w.slotCapacity }
  | none => .ok ⟨none, by simp⟩
  | some w =>
      if ¬w.slots ∨ ¬w.slotLens then .error .badBuf
      else if hcount : w.slotCount < 1 ∨ w.slotCount > 7 then .error .badParam
      else if hcap : w.slotCapacity < config.maxInfoSize then .error .badBuf
      else .ok ⟨some ⟨w.slotCapacity, w.slotCount, by omega, by omega⟩, by simp; omega⟩

/-- `atc_hdlc_init`. -/
def init (params : Params) (mem : Memory) : Except Error (Station × Ctx) :=
  match params.config, params.platform, params.rxBuf with
  | some config, some platform, some rxBuf =>
      if ¬platform.onSend then .error .badParam
      else if ¬rxBuf.buffer then .error .badParam
      else if hmode : config.mode ≠ modeAbm then .error .badMode
      else if hcap : rxBuf.capacity < (config.maxInfoSize + 4) % 2 ^ 32 ∨ rxBuf.capacity < minFrameLen then
        .error .badBuf
      else match checkTxWindow config params.txWindow with
        | .error e => .error e
        | .ok ⟨w, hw⟩ =>
            let st : Station :=
              { config := config
                platform := platform.callbacks
                crc := params.crc.getD crcOpsDefault
                txWindow := w
                rxCapacity := rxBuf.capacity
                mode_abm := not_not.mp hmode
                rxCapacity_min := by omega
                rxCapacity_frame := by simp only [minFrameLen, addrLen, ctrlLen, fcsLen] at hcap; omega
                slotCapacity_min := hw }
            .ok (st, initCtx st mem)
  | _, _, _ => .error .badParam

/-- What `atc_hdlc_init` takes over from its parameters. -/
theorem init_station {params : Params} {mem : Memory} {st : Station} {s : Ctx}
    (hinit : init params mem = .ok (st, s)) :
    s = initCtx st mem ∧ params.config = some st.config ∧
      params.txWindow.map (fun raw => (raw.slotCapacity, raw.slotCount)) =
        st.txWindow.map (fun w => (w.slotCapacity, w.slotCount)) ∧
      params.rxBuf.map RawRxBuf.capacity = some st.rxCapacity := by
  unfold init at hinit
  cases hconfig : params.config with
  | none => simp [hconfig] at hinit
  | some config =>
      cases hplatform : params.platform with
      | none => simp [hconfig, hplatform] at hinit
      | some platform =>
          cases hrx : params.rxBuf with
          | none => simp [hconfig, hplatform, hrx] at hinit
          | some rxBuf =>
              simp only [hconfig, hplatform, hrx] at hinit
              split_ifs at hinit
              cases hwindow : params.txWindow with
              | none =>
                  simp only [hwindow, checkTxWindow] at hinit
                  obtain ⟨rfl, rfl⟩ := Prod.ext_iff.mp (Except.ok.inj hinit)
                  exact ⟨rfl, rfl, rfl, rfl⟩
              | some raw =>
                  simp only [hwindow, checkTxWindow] at hinit
                  split_ifs at hinit
                  obtain ⟨rfl, rfl⟩ := Prod.ext_iff.mp (Except.ok.inj hinit)
                  exact ⟨rfl, rfl, rfl, rfl⟩

/-! ### The set-up of the unit tests -/

/-- The mock callbacks: all of them are there, none calls back. -/
def mockPlatform : Platform where
  onData := some fun _ s => s
  onEvent := some fun _ s => s
  t1Start := true
  t1Stop := true
  t2Start := true
  t2Stop := true

theorem mockPlatform_passive : mockPlatform.Passive := by
  constructor
  all_goals
    intro f hf
    cases hf
    exact fun _ _ => rfl

/-- `s_default_config` with a window of slots of 1024 octets. -/
def mockStation (address : UInt8) (slotCount : Nat) (hpos : 0 < slotCount) (hle : slotCount ≤ 7) :
    Station where
  config := ⟨modeAbm, address, 1024, 3, 1000, 10⟩
  platform := mockPlatform
  crc := crcOpsDefault
  txWindow := some ⟨1024, slotCount, hpos, hle⟩
  rxCapacity := 16384
  mode_abm := rfl
  rxCapacity_min := by simp
  rxCapacity_frame := by decide
  slotCapacity_min := by simp

/-- The window of most tests. -/
theorem threeSlots_pos : 0 < 3 := by decide

theorem threeSlots_le : 3 ≤ 7 := by decide

/-- Static storage. -/
def zeroMemory : Memory := ⟨fun _ => 0, fun _ => 0, fun _ => 0⟩

section Station

variable (st : Station)

def linkSetup (s : Ctx) (peerAddr : UInt8) : Error × Ctx :=
  if s.currentState ≠ .disconnected then (.badState, s)
  else
    let s := { s with peerAddress := peerAddr }
    let s := sendU st s s.peerAddress (uCtrl uSabm true)
    let s := t1Start st s
    (.ok, setState st s .connecting .setupReq)

def disconnect (s : Ctx) : Error × Ctx :=
  if s.currentState ≠ .connected ∧ s.currentState ≠ .frmrError then (.badState, s)
  else
    let s := sendU st s s.peerAddress (uCtrl uDisc true)
    let s := t1Start st s
    (.ok, setState st s .disconnecting .discReq)

def linkReset (s : Ctx) : Error × Ctx :=
  let s := resetState st s
  let s := sendU st s s.peerAddress (uCtrl uSabm true)
  let s := t1Start st s
  (.ok, setState st s .connecting .reset)

def setLocalBusy (s : Ctx) (busy : Bool) : Error × Ctx :=
  if s.currentState ≠ .connected then (.badState, s)
  else if busy ∧ ¬s.localBusy then (.ok, { s with localBusy := true })
  else if ¬busy ∧ s.localBusy then (.ok, sendRr st { s with localBusy := false } false)
  else (.ok, s)

def t1Expired (s : Ctx) : Ctx :=
  let s := { s with t1Active := false }
  let maxRetries := st.config.maxRetries
  let s := { s with n2 := (s.n2 + 1) % 256 }
  if maxRetries > 0 ∧ s.n2 > maxRetries then
    resetState st (setState st s .disconnected .linkFailure)
  else match s.currentState with
    | .connecting => t1Start st (sendU st s s.peerAddress (uCtrl uSabm true))
    | .disconnecting => t1Start st (sendU st s s.peerAddress (uCtrl uDisc true))
    | .connected =>
        if s.va ≠ s.vs then
          t1Start st (if s.localBusy then sendRnr st s true else sendRr st s true)
        else s
    | .frmrError => t1Start st (retransmitFrmr st s)
    | .disconnected => s

def t2Expired (s : Ctx) : Ctx :=
  let s := { s with t2Active := false }
  if s.localBusy then sendRnr st s false else sendRr st s false

def getState (s : Ctx) : State := s.currentState

def abort (s : Ctx) : Ctx :=
  let s := s.log (.send flag false)
  let s := s.log (.send flag true)
  let s := resetState st s
  { s with rxState := .hunt, currentState := .disconnected }

end Station

end AtcHdlc
