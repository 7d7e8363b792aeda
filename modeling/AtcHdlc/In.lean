import AtcHdlc.Dispatch

/-! The receive path of `hdlc_in.c`: the octet parser, the closing flag, and the deferred
retransmission at the end of `atc_hdlc_data_in`. -/

namespace AtcHdlc

section In

variable (st : Station)

/-- The 32-bit product by which the code finds a slot in the flat buffer. -/
def slotOffset (w : TxWindow) (slot : Nat) : Nat := slot * w.slotCapacity % 2 ^ 32

/-- The octets of a slot as the retransmission reads them. -/
def readSlot (w : TxWindow) (s : Ctx) (slot : Nat) : List UInt8 :=
  (List.range (s.slotLens slot)).map fun i => s.slots (slotOffset w slot + i)

/-- The loop of `retransmit_outstanding`. The fuel bounds a walk of `vs` modulo 8 and is never what
stops it: eight steps pass every residue. -/
def retransmitLoop (w : TxWindow) (endVs : Nat) : Nat → Nat → Ctx → Ctx
  | 0, _, s => s
  | fuel + 1, slotIdx, s =>
      if s.vs = endVs then s
      else
        let s := s.log (.slotRead slotIdx)
        let s := frameSend st s s.peerAddress (iCtrl s.vs s.vr false) (.octets (readSlot w s slotIdx))
        let s := { s with vs := (s.vs + 1) % mod8 }
        retransmitLoop w endVs fuel ((slotIdx + 1) % w.slotCount) s

/-- `retransmit_outstanding`. The index of the first slot is computed with C's remainder, which keeps
the sign of a negative dividend, and is then cut to eight bits. -/
def retransmitOutstanding (w : TxWindow) (s : Ctx) : Ctx :=
  let s := { s with retransmitPending := false }
  let endVs : Nat := s.vs
  let outstanding := u8 (((endVs : Int) - s.retransmitFrom + mod8).tmod mod8)
  let slotIdx := u8 (((s.txNextSlot : Int) + w.slotCount - outstanding).tmod w.slotCount)
  let s := { s with vs := s.retransmitFrom }
  let s := retransmitLoop st w endVs 8 slotIdx s
  t1Start st s

/-- Where both jump labels of the parser leave it, but for the receive state. -/
def rxRestart (s : Ctx) (rxState : RxState) : Ctx :=
  { s with rxState := rxState, rxIndex := 0, rxCrc := fcsInitValue }

/-- The two FCS octets, low octet first. -/
def rxFcs (low high : UInt8) : UInt16 := low.toUInt16 ||| (high.toUInt16 <<< 8)

/-- The `n` octets of the receive buffer from index `start` on. -/
def readBuffer (s : Ctx) (start n : Nat) : List UInt8 :=
  (List.range n).map fun i => s.rxBuffer (start + i)

def handleFlag (s : Ctx) : Ctx :=
  if s.rxState = .hunt ∨ s.rxIndex < minFrameLen then rxRestart s .addr
  else
    let dlen := s.rxIndex - fcsLen
    if s.rxCrc ≠ rxFcs (s.rxBuffer dlen) (s.rxBuffer (dlen + 1)) then rxRestart s .addr
    else
      let address := s.rxBuffer 0
      let ctrl := s.rxBuffer 1
      let info :=
        if dlen > addrLen + ctrlLen then
          some (readBuffer s (addrLen + ctrlLen) ((dlen - (addrLen + ctrlLen)) % 2 ^ 16))
        else none
      rxRestart (dispatchFrame st s address ctrl info) .addr

/-- The part of `rx_byte` after the escape is resolved. -/
def rxStore (s : Ctx) (byte : UInt8) : Ctx :=
  if s.rxIndex ≥ st.rxCapacity then rxRestart s .hunt
  else
    let s := { s with rxBuffer := Function.update s.rxBuffer s.rxIndex byte }
    let s :=
      if s.rxIndex ≥ fcsLen then { s with rxCrc := st.crc s.rxCrc [s.rxBuffer (s.rxIndex - fcsLen)] }
      else s
    let s := { s with rxIndex := s.rxIndex + 1 }
    if s.rxIndex = 1 then
      if byte ≠ s.myAddress ∧ byte ≠ s.peerAddress ∧ byte ≠ broadcastAddress then rxRestart s .hunt
      else { s with rxState := .data }
    else s

def rxByte (s : Ctx) (byte : UInt8) : Ctx :=
  if byte = flag then handleFlag st s
  else if s.rxState = .hunt then s
  else if byte = esc then { s with rxState := .esc }
  else if s.rxState = .esc then rxStore st { s with rxState := .data } (byte ^^^ xorMask)
  else rxStore st s byte

def rxBytes (s : Ctx) (bytes : List UInt8) : Ctx := bytes.foldl (rxByte st) s

/-- The last statement of `atc_hdlc_data_in`. -/
def retransmitIfPending (s : Ctx) : Ctx :=
  if s.retransmitPending then
    match st.txWindow with
    | some w => retransmitOutstanding st w s
    | none => s.log .nullWindow
  else s

/-- `atc_hdlc_data_in`. -/
def dataIn (s : Ctx) (bytes : List UInt8) : Ctx := retransmitIfPending st (rxBytes st s bytes)

end In

end AtcHdlc
