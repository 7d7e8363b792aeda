import AtcHdlc.Crc

/-! The frame header `hdlc_frame.h` and the timer helpers of `hdlc_private.h`: constants, control
octets, and every helper that puts a frame on the line. -/

namespace AtcHdlc

def flag : UInt8 := 0x7E

def esc : UInt8 := 0x7D

def xorMask : UInt8 := 0x20

def addrLen : Nat := 1

def ctrlLen : Nat := 1

def fcsLen : Nat := 2

def minFrameLen : Nat := addrLen + ctrlLen + fcsLen

def mod8 : Nat := 8

def ctrlPf (ctrl : UInt8) : Bool := (ctrl >>> 4) &&& 0x01 == 1

def ctrlNr (ctrl : UInt8) : Nat := ((ctrl >>> 5) &&& 0x07).toNat

def ctrlNs (ctrl : UInt8) : Nat := ((ctrl >>> 1) &&& 0x07).toNat

def ctrlS (ctrl : UInt8) : Nat := ((ctrl >>> 2) &&& 0x03).toNat

/-- `I_CTRL`. -/
def iCtrl (ns nr : Nat) (pf : Bool) : UInt8 :=
  .ofNat ((ns &&& 0x07) <<< 1 ||| (if pf then 1 else 0) <<< 4 ||| (nr &&& 0x07) <<< 5)

/-- `S_CTRL`. -/
def sCtrl (s nr : Nat) (pf : Bool) : UInt8 :=
  .ofNat (0x01 ||| (s &&& 0x03) <<< 2 ||| (if pf then 1 else 0) <<< 4 ||| (nr &&& 0x07) <<< 5)

def pfBit : UInt8 := 0x10

/-- `U_CTRL`. -/
def uCtrl (cmd : UInt8) (pf : Bool) : UInt8 := cmd ||| (if pf then pfBit else 0)

def sRr : Nat := 0

def sRnr : Nat := 1

def sRej : Nat := 2

def uSabm : UInt8 := 0x2F

def uDisc : UInt8 := 0x43

def uUa : UInt8 := 0x63

def uDm : UInt8 := 0x0F

def uFrmr : UInt8 := 0x87

def uUi : UInt8 := 0x03

def uTest : UInt8 := 0xE3

def uSnrm : UInt8 := 0x83

def uSabme : UInt8 := 0x6F

def uSnrme : UInt8 := 0xCF

def uSarme : UInt8 := 0x4F

def frmrW : UInt8 := 0x01

def frmrX : UInt8 := 0x02

def frmrY : UInt8 := 0x04

def frmrZ : UInt8 := 0x08

def isIframe (ctrl : UInt8) : Bool := ctrl &&& 0x01 == 0

def isSframe (ctrl : UInt8) : Bool := ctrl &&& 0x03 == 0x01

def isUframe (ctrl : UInt8) : Bool := ctrl &&& 0x03 == 0x03

def isCmd (s : Ctx) (address : UInt8) : Bool := address == s.myAddress

/-- The unnumbered commands and responses that the handlers tell apart. -/
inductive UCmd where
  | sabm
  | disc
  | ua
  | dm
  | frmr
  | ui
  | test
  | snrm
  | sabme
  | snrme
  | sarme
  | unknown
  deriving DecidableEq, Repr

/-- The label that `switch (ctrl & ~PF_BIT)` jumps to. -/
def uCmd (ctrl : UInt8) : UCmd :=
  let cmd := ctrl &&& ~~~pfBit
  if cmd = uSabm then .sabm
  else if cmd = uDisc then .disc
  else if cmd = uUa then .ua
  else if cmd = uDm then .dm
  else if cmd = uFrmr then .frmr
  else if cmd = uUi then .ui
  else if cmd = uTest then .test
  else if cmd = uSnrm then .snrm
  else if cmd = uSabme then .sabme
  else if cmd = uSnrme then .snrme
  else if cmd = uSarme then .sarme
  else .unknown

section Helpers

variable (st : Station)

/-! ### Platform callbacks and timers -/

def onData (s : Ctx) (payload : List UInt8) : Ctx :=
  match st.platform.onData with
  | some f => f payload (s.log (.data payload))
  | none => s

def onEvent (s : Ctx) (event : Event) : Ctx :=
  match st.platform.onEvent with
  | some f => f event (s.log (.event event))
  | none => s

def t1Start (s : Ctx) : Ctx :=
  { s.logs (if st.platform.t1Start then [.t1Start st.config.t1Ms] else []) with t1Active := true }

def t1Stop (s : Ctx) : Ctx :=
  { s.logs (if s.t1Active && st.platform.t1Stop then [.t1Stop] else []) with t1Active := false }

def t2Start (s : Ctx) : Ctx :=
  { s.logs (if st.platform.t2Start then [.t2Start st.config.t2Ms] else []) with t2Active := true }

def t2Stop (s : Ctx) : Ctx :=
  { s.logs (if s.t2Active && st.platform.t2Stop then [.t2Stop] else []) with t2Active := false }

def putRaw (s : Ctx) (byte : UInt8) (flush : Bool) : Ctx := s.log (.send byte flush)

def putEscaped (s : Ctx) (byte : UInt8) : Ctx :=
  if byte = flag ∨ byte = esc then
    putRaw (putRaw s esc false) (byte ^^^ xorMask) false
  else putRaw s byte false

def emit (s : Ctx) (byte : UInt8) : Ctx :=
  putEscaped { s with txCrc := st.crc s.txCrc [byte] } byte

def frameBegin (s : Ctx) (address control : UInt8) : Ctx :=
  let s := { s.log (.frame address control s.moment) with txCrc := fcsInitValue }
  let s := putRaw s flag false
  let s := emit st s address
  emit st s control

def frameEnd (s : Ctx) : Ctx :=
  let s := putEscaped s (s.txCrc &&& 0xFF).toUInt8
  let s := putEscaped s (s.txCrc >>> 8).toUInt8
  putRaw s flag true

def emitAll (s : Ctx) (octets : List UInt8) : Ctx := octets.foldl (emit st) s

/-- `frame_send`; `data` with a length but without octets is read all the same. -/
def frameSend (s : Ctx) (address ctrl : UInt8) (data : Payload) : Ctx :=
  let s := frameBegin st s address ctrl
  let s := if data.isNull ∧ 0 < data.len then s.log .nullRead else s
  let s := emitAll st s data.read
  frameEnd s

def sendU (s : Ctx) (address ctrl : UInt8) : Ctx := frameEnd (frameBegin st s address ctrl)

def sendUa (s : Ctx) (pf : Bool) : Ctx := sendU st s s.myAddress (uCtrl uUa pf)

def sendDm (s : Ctx) (pf : Bool) : Ctx := sendU st s s.myAddress (uCtrl uDm pf)

def sendS (s : Ctx) (address : UInt8) (kind nr : Nat) (pf : Bool) : Ctx :=
  frameEnd (frameBegin st s address (sCtrl kind nr pf))

def sendRr (s : Ctx) (pf : Bool) : Ctx := sendS st s s.peerAddress sRr s.vr pf

def sendRrResp (s : Ctx) (pf : Bool) : Ctx := sendS st s s.myAddress sRr s.vr pf

def sendRnr (s : Ctx) (pf : Bool) : Ctx := sendS st s s.myAddress sRnr s.vr pf

def sendRej (s : Ctx) (pf : Bool) : Ctx := sendS st s s.peerAddress sRej s.vr pf

def retransmitFrmr (s : Ctx) : Ctx :=
  let status : UInt8 := .ofNat ((s.vr &&& 0x07) <<< 5 ||| (s.vs &&& 0x07) <<< 1)
  let s := frameBegin st s s.myAddress (uCtrl uFrmr false)
  let s := emit st s s.frmrCtrl
  let s := emit st s status
  let s := emit st s s.frmrFlags
  frameEnd s

def sendFrmr (s : Ctx) (rejectedCtrl : UInt8) (w x y z : Bool) : Ctx :=
  let s := { s with
    frmrCtrl := rejectedCtrl
    frmrFlags := (if w then frmrW else 0) ||| (if x then frmrX else 0) ||| (if y then frmrY else 0)
      ||| (if z then frmrZ else 0) }
  let s := t2Stop st s
  let s := retransmitFrmr st s
  t1Start st s

end Helpers

end AtcHdlc
