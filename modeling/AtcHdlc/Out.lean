import AtcHdlc.In

/-! The transmit calls of `hdlc_out.c`. -/

namespace AtcHdlc

section Out

variable (st : Station)

/-- `atc_hdlc_transmit_ui` and `atc_hdlc_transmit_test` differ in the control octet only. -/
def transmitU (s : Ctx) (ctrl address : UInt8) (data : Payload) : Error × Ctx :=
  if data.isNull ∧ 0 < data.len then (.badParam, s)
  else if data.len > st.config.maxInfoSize then (.frameSize, s)
  else (.ok, frameSend st s address ctrl data)

def transmitUi (s : Ctx) (address : UInt8) (data : Payload) : Error × Ctx :=
  transmitU st s (uCtrl uUi false) address data

def transmitTest (s : Ctx) (address : UInt8) (data : Payload) : Error × Ctx :=
  transmitU st s (uCtrl uTest true) address data

/-- The number of unacknowledged I-frames as `atc_hdlc_transmit_i` computes it. -/
def outstanding (s : Ctx) : Nat := u8 (((s.vs : Int) - s.va + mod8).tmod mod8)

/-- `memcpy` of a payload to the start of a slot. -/
def copyToSlot (w : TxWindow) (s : Ctx) (slot : Nat) (data : List UInt8) : Ctx :=
  { s with slots := fun i =>
      if slotOffset w slot ≤ i ∧ i < slotOffset w slot + data.length then
        data.getD (i - slotOffset w slot) 0
      else s.slots i }

/-- What `atc_hdlc_transmit_i` does once no check refuses the call. -/
def acceptI (w : TxWindow) (s : Ctx) (data : Payload) : Ctx :=
  let out := outstanding s
  let slot := s.txNextSlot
  let s := { s with txNextSlot := u8 (((slot + 1) % w.slotCount : Nat) : Int) }
  let s := if 0 < data.len ∧ ¬data.isNull then copyToSlot w s slot data.read else s
  let s := { s.log (.accept data.read) with slotLens := Function.update s.slotLens slot data.len }
  let s := frameSend st s s.peerAddress (iCtrl s.vs s.vr false) data
  let s := { s with vs := (s.vs + 1) % mod8 }
  let s := t2Stop st s
  if out = 0 then t1Start st s else s

/-- `atc_hdlc_transmit_i`. -/
def transmitI (s : Ctx) (data : Payload) : Error × Ctx :=
  if s.currentState ≠ .connected then (.badState, s)
  else if s.remoteBusy then (.remoteBusy, s)
  else match st.txWindow with
    | none => (.noBuffer, s)
    | some w =>
        if data.len > st.config.maxInfoSize then (.frameSize, s)
        else if 0 < data.len ∧ ¬data.isNull ∧ data.len > w.slotCapacity then (.frameSize, s)
        else if outstanding s ≥ w.slotCount then (.windowFull, s)
        else (.ok, acceptI st w s data)

def transmitUiStart (s : Ctx) (address : UInt8) : Ctx := frameBegin st s address (uCtrl uUi false)

def transmitUiData (s : Ctx) (data : Payload) : Ctx :=
  if data.isNull ∧ 0 < data.len then s else emitAll st s data.read

def transmitUiEnd (s : Ctx) : Ctx := frameEnd s

end Out

end AtcHdlc
