import Mathlib.Algebra.Group.Nat.Defs
import Mathlib.Data.Nat.Basic
import Mathlib.Logic.Function.Basic

/-! The data types of the public headers (`hdlc_types.h`) and of the frame header's receive states.
`Station` holds what a context points to and `atc_hdlc_init` fixes once: configuration, platform
callbacks, CRC driver, geometry of the transmit window and of the receive buffer. `Ctx` holds the
fields that calls change, the three memories reached through the context, and the trace of
everything a call does that another party can see. Octet counts and counters are natural numbers;
each wrap of the source is written out where it happens. -/

namespace AtcHdlc

/-- `atc_hdlc_state_t`. -/
inductive State where
  | disconnected
  | connecting
  | connected
  | frmrError
  | disconnecting
  deriving DecidableEq, Repr

/-- `atc_hdlc_event_t`. -/
inductive Event where
  | setupReq
  | connAccepted
  | connReq
  | reset
  | discReq
  | discDone
  | peerDisc
  | peerReject
  | protocolError
  | linkFailure
  | peerBusy
  | peerReady
  | windowOpen
  deriving DecidableEq, Repr

/-- The codes of `atc_hdlc_error_t` that a call can return. -/
inductive Error where
  | ok
  | noBuffer
  | badState
  | badMode
  | badParam
  | badBuf
  | remoteBusy
  | windowFull
  | frameSize
  deriving DecidableEq, Repr

/-- `rx_state_t`. -/
inductive RxState where
  | hunt
  | addr
  | data
  | esc
  deriving DecidableEq, Repr

/-- `atc_hdlc_config_t`. The only mode is `ATC_HDLC_MODE_ABM = 0`. -/
structure Config where
  mode : Nat
  address : UInt8
  maxInfoSize : Nat
  maxRetries : Nat
  t1Ms : Nat
  t2Ms : Nat

def modeAbm : Nat := 0

def broadcastAddress : UInt8 := 0xFF

/-- What a context says at the moment at which a frame is begun. -/
structure Moment where
  currentState : State
  remoteBusy : Bool
  localBusy : Bool
  deriving DecidableEq, Repr

/-- What a call does in sight of others: the platform callbacks it makes, and marks that cost the
code nothing (a frame begun by `frame_begin`, a frame handed to `dispatch_frame`, a run of
`reset_state`, a payload stored by `atc_hdlc_transmit_i`, an I-frame accepted in sequence, an
acknowledgement that moves V(A), the slot indices that the retransmission reads, a read of absent
data, a use of an absent transmit window). -/
inductive Obs where
  | send (byte : UInt8) (flush : Bool)
  | frame (address ctrl : UInt8) (moment : Moment)
  | data (payload : List UInt8)
  | event (event : Event)
  | t1Start (ms : Nat)
  | t1Stop
  | t2Start (ms : Nat)
  | t2Stop
  | dispatch (address ctrl : UInt8) (info : Option (List UInt8))
  | reset
  | accept (payload : List UInt8)
  | received (payload : List UInt8)
  | acked (nr : Nat)
  | slotRead (index : Nat)
  | nullRead
  | nullWindow
  deriving DecidableEq, Repr

/-- The fields of `atc_hdlc_ctx_t` that calls change, its six flag bits one by one, the memories
behind its pointers, and the trace. -/
structure Ctx where
  currentState : State
  rxIndex : Nat
  rxCrc : UInt16
  txCrc : UInt16
  rxState : RxState
  retransmitFrom : Nat
  txNextSlot : Nat
  myAddress : UInt8
  peerAddress : UInt8
  vs : Nat
  vr : Nat
  va : Nat
  n2 : Nat
  frmrCtrl : UInt8
  frmrFlags : UInt8
  t1Active : Bool
  t2Active : Bool
  rejException : Bool
  remoteBusy : Bool
  localBusy : Bool
  retransmitPending : Bool
  slots : Nat → UInt8
  slotLens : Nat → Nat
  rxBuffer : Nat → UInt8
  trace : List Obs

/-- `atc_hdlc_plat_ops_t`: `on_send` is required and only recorded; `on_data` and `on_event` may
call back into the library, so they act on the context; a timer callback is present or absent. -/
structure Platform where
  onData : Option (List UInt8 → Ctx → Ctx)
  onEvent : Option (Event → Ctx → Ctx)
  t1Start : Bool
  t1Stop : Bool
  t2Start : Bool
  t2Stop : Bool

/-- Callbacks that do not call back into the library leave the context alone. -/
def Platform.Passive (p : Platform) : Prop :=
  (∀ f ∈ p.onData, ∀ payload s, f payload s = s) ∧ ∀ f ∈ p.onEvent, ∀ event s, f event s = s

/-- `atc_hdlc_txwin_t` with the slot count that `atc_hdlc_init` accepts. -/
structure TxWindow where
  slotCapacity : Nat
  slotCount : Nat
  slotCount_pos : 0 < slotCount
  slotCount_le : slotCount ≤ 7

/-- The compute function of `atc_hdlc_crc_ops_t`. -/
abbrev CrcOps := UInt16 → List UInt8 → UInt16

/-- What `atc_hdlc_init` leaves in a context for good, with the checks it made. -/
structure Station where
  config : Config
  platform : Platform
  crc : CrcOps
  txWindow : Option TxWindow
  rxCapacity : Nat
  mode_abm : config.mode = modeAbm
  rxCapacity_min : (config.maxInfoSize + 4) % 2 ^ 32 ≤ rxCapacity
  rxCapacity_frame : 4 ≤ rxCapacity
  slotCapacity_min : ∀ w ∈ txWindow, config.maxInfoSize ≤ w.slotCapacity

/-- The pair `(data, len)` that a transmit call is given: `NULL` with a length, or a pointer to that
many octets. -/
inductive Payload where
  | null (len : Nat)
  | octets (data : List UInt8)
  deriving DecidableEq, Repr

namespace Payload

def len : Payload → Nat
  | null n => n
  | octets data => data.length

def isNull : Payload → Bool
  | null _ => true
  | octets _ => false

/-- The octets that reading `data[0]` to `data[len - 1]` yields; what `NULL` yields is arbitrary. -/
def read : Payload → List UInt8
  | null n => List.replicate n 0
  | octets data => data

/-- The arguments a caller may give: no length without data. -/
def NonNull (p : Payload) : Prop := p.isNull = false ∨ p.len = 0

end Payload

namespace Ctx

def log (s : Ctx) (o : Obs) : Ctx := { s with trace := s.trace ++ [o] }

def logs (s : Ctx) (os : List Obs) : Ctx := { s with trace := s.trace ++ os }

def moment (s : Ctx) : Moment := ⟨s.currentState, s.remoteBusy, s.localBusy⟩

end Ctx

/-- The conversion of an `int` to `atc_hdlc_u8`. -/
def u8 (x : Int) : Nat := (x % 256).toNat

end AtcHdlc
