import AtcHdlc.Codec
import AtcHdlc.Wakeup

/-! Two stations and what is between them. A station's channel holds the frames that its calls of `on_send`
made up and that have not arrived; the other station reads a number of them with one
`atc_hdlc_data_in`, or the line loses one. Commands are numbered by their sender, and every other frame
carries the number of the last command its sender had heard: by these numbers, which no code sees, an
answer is told from a late one. -/

namespace AtcHdlc

/-- A frame on the line: the control octet it was begun with, and the octets given to `on_send`. -/
structure Wire where
  ctrl : UInt8
  octets : List UInt8
  deriving DecidableEq, Repr

def Frame.wire (crc : CrcOps) (f : Frame) : Wire := ⟨f.ctrl, f.octets crc⟩

/-- The frames that are complete, and the one that is being sent. -/
def wireStep (l : List Wire × Wire) : Obs → List Wire × Wire
  | .frame _ ctrl _ => (l.1, ⟨ctrl, []⟩)
  | .send byte flush =>
      let current : Wire := ⟨l.2.ctrl, l.2.octets ++ [byte]⟩
      if flush then (l.1 ++ [current], current) else (l.1, current)
  | _ => l

/-- The frames that a trace puts on the line, each from its mark to the call of `on_send` that flushes. -/
def wires (trace : List Obs) : List Wire := (trace.foldl wireStep ([], ⟨0, []⟩)).1

theorem wireStep_sends (l : List Wire) (w : Wire) (octets : List UInt8) :
    (octets.map (Obs.send · false)).foldl wireStep (l, w) = (l, ⟨w.ctrl, w.octets ++ octets⟩) := by
  induction octets generalizing w with
  | nil => simp
  | cons octet octets ih =>
      have hstep : wireStep (l, w) (.send octet false) = (l, ⟨w.ctrl, w.octets ++ [octet]⟩) := rfl
      rw [List.map_cons, List.foldl_cons, hstep, ih]
      simp

/-- A frame is put on the line whole. -/
theorem wires_obs (trace : List Obs) (crc : CrcOps) (m : Moment) (f : Frame) :
    wires (trace ++ f.obs crc m) = wires trace ++ [f.wire crc] := by
  rw [wires, List.foldl_append, Frame.obs, List.foldl_cons, List.foldl_append]
  generalize hl : trace.foldl wireStep ([], ⟨0, []⟩) = l
  have hbegin : wireStep l (.frame f.address f.ctrl m) = (l.1, ⟨f.ctrl, []⟩) := rfl
  rw [hbegin, wireStep_sends]
  have hwires : wires trace = l.1 := congrArg Prod.fst hl
  rw [hwires]
  simp [wireStep, Frame.wire, Frame.octets]

/-- What is not on the line puts nothing there. -/
theorem wires_onLine (trace : List Obs) : wires (onLine trace) = wires trace := by
  have hfold (l : List Wire × Wire) : (onLine trace).foldl wireStep l = trace.foldl wireStep l := by
    induction trace generalizing l with
    | nil => rfl
    | cons o trace ih =>
        cases o with
        | send | frame => exact ih _
        | _ => exact ih l
  exact congrArg Prod.fst (hfold _)

/-- A frame as its receiver's parser hands it on. -/
def Frame.arriving (f : Frame) : Received :=
  ⟨f.address, f.ctrl, if f.info = [] then none else some (heardInfo f.info)⟩

theorem arriving_info (f : Frame) : f.arriving.info.getD [] = heardInfo f.info := by
  unfold Frame.arriving
  split_ifs with hnil
  · rw [hnil]
    rfl
  · rfl

section Arrivals

variable {st : Station}

/-- Octets between two flags of which the parser holds none. -/
theorem rxByte_flag_empty {s : Ctx} (h : s.rxIndex = 0) : rxByte st s flag = rxRestart s .addr := by
  have hstep : rxByte st s flag = handleFlag st s := by simp [rxByte]
  rw [hstep, handleFlag, if_pos (Or.inr (by rw [h]; decide))]

/-- The octets of a frame of any sender, read between two frames: what the receiver keeps is dispatched;
otherwise nothing happens. -/
theorem rxBytes_octets_of_crc {s : Ctx} (h : s.rxIndex = 0) (crc : CrcOps) (f : Frame) :
    ∃ t, rxBytes st s (f.octets crc) =
      if Keeps st s.myAddress s.peerAddress (f.content crc) then
        rxRestart (f.arriving.dispatch st (s.withParser t)) .addr
      else rxRestart (s.withParser t) .addr := by
  have hflag : flag ∉ octetCode.stuff (f.content crc) := octetCode.flag_not_mem_stuff _
  have hread : Reading st (rxBytes st (rxRestart s .addr) (octetCode.stuff (f.content crc)))
      (octetCode.stuff (f.content crc)) := rxBytes_reading (Reading.restart s) hflag
  have hparser := @rxBytes_withParser st (rxRestart s .addr) _ hflag
  refine ⟨rxBytes st (rxRestart s .addr) (octetCode.stuff (f.content crc)), ?_⟩
  have hopen : rxBytes st s (f.octets crc) =
      rxByte st (rxBytes st (rxRestart s .addr) (octetCode.stuff (f.content crc))) flag := by
    have hstep : rxBytes st s (f.octets crc) =
        rxBytes st (rxByte st s flag) (octetCode.stuff (f.content crc) ++ [flag]) := rfl
    rw [hstep, rxByte_flag_empty h, rxBytes_snoc]
  rw [hopen, rxByte_flag_heard hread, octetCode.unstuff_stuff]
  generalize rxBytes st (rxRestart s .addr) (octetCode.stuff (f.content crc)) = t at *
  have hmy : t.myAddress = s.myAddress := by
    rw [hparser]
    rfl
  have hpeer : t.peerAddress = s.peerAddress := by
    rw [hparser]
    rfl
  have hctx : t = s.withParser t := hparser
  rw [hmy, hpeer, segmentFrame_content, ← hctx]
  rfl

/-- With the same FCS, a frame is dispatched where the filter lets its address pass and the buffer can hold
it. -/
theorem rxBytes_octets {s : Ctx} (h : s.rxIndex = 0) (f : Frame) :
    ∃ t, rxBytes st s (f.octets st.crc) =
      if Accepted s.myAddress s.peerAddress f.address ∧ f.info.length + 4 ≤ st.rxCapacity then
        rxRestart (f.arriving.dispatch st (s.withParser t)) .addr
      else rxRestart (s.withParser t) .addr := by
  obtain ⟨t, ht⟩ := @rxBytes_octets_of_crc st s h st.crc f
  exact ⟨t, ht.trans (if_congr (keeps_content_iff f) rfl rfl)⟩

end Arrivals

/-! ### Stations with a channel -/

/-- The set-up and release commands. -/
def isCommand (ctrl : UInt8) : Bool := ctrl == uCtrl uSabm true || ctrl == uCtrl uDisc true

/-- A frame on its way. -/
structure Flight where
  wire : Wire
  number : Nat
  deriving DecidableEq, Repr

/-- A station, the number of its commands, that of the last command it heard, and the channel that it
sends to. -/
structure Endpoint where
  station : Station
  ctx : Ctx
  issued : Nat
  heard : Nat
  out : List Flight

namespace Endpoint

def emit (e : Endpoint) (f : Wire) : Endpoint :=
  if isCommand f.ctrl then { e with issued := e.issued + 1, out := e.out ++ [⟨f, e.issued + 1⟩] }
  else { e with out := e.out ++ [⟨f, e.heard⟩] }

/-- The station after a call: what the call has put on the line is on its way. -/
def become (e : Endpoint) (s : Ctx) : Endpoint :=
  ((wires s.trace).drop (wires e.ctx.trace).length).foldl emit { e with ctx := s }

def hear (e : Endpoint) (f : Flight) : Endpoint :=
  if isCommand f.wire.ctrl then { e with heard := f.number } else e

def call (e : Endpoint) (c : Call) : Endpoint := e.become (c.run e.station e.ctx)

/-- Some frames arrive with one `atc_hdlc_data_in`. -/
def receive (e : Endpoint) (flights : List Flight) : Endpoint :=
  (flights.foldl hear e).become (dataIn e.station e.ctx (flights.flatMap fun f => f.wire.octets))

end Endpoint

/-- Two stations, seen from the near one. -/
@[ext]
structure World where
  near : Endpoint
  far : Endpoint

/-- What the near station does, what is lost on its way, and how many frames it reads. -/
inductive Move where
  | call (c : Call)
  | lose (i : Nat)
  | deliver (n : Nat)

namespace World

def swap (w : World) : World := ⟨w.far, w.near⟩

@[simp] theorem swap_swap (w : World) : w.swap.swap = w := rfl

def step (w : World) : Move → World
  | .call c => { w with near := w.near.call c }
  | .lose i => { w with near := { w.near with out := w.near.out.eraseIdx i } }
  | .deliver n =>
      ⟨w.near.receive (w.far.out.take n), { w.far with out := w.far.out.drop n }⟩

end World

/-- The runs of two stations whose moves all meet a condition, which looks at the world from the side of
the station that moves. -/
inductive Run (K : World → Move → Prop) (w₀ : World) : World → Prop where
  | start : Run K w₀ w₀
  | near {w : World} (m : Move) (h : Run K w₀ w) (hK : K w m) : Run K w₀ (w.step m)
  | far {w : World} (m : Move) (h : Run K w₀ w) (hK : K w.swap m) : Run K w₀ (w.swap.step m).swap

/-- What every move of either station keeps, for a start of its own, holds along a run. -/
theorem Run.invariant_from {K : World → Move → Prop} {P : World → World → Prop} {w₀ w : World} (h : Run K w₀ w)
    (hstart : P w₀ w₀) (hswap : ∀ v w, P v w → P v.swap w.swap)
    (hstep : ∀ v w m, P v w → K w m → P v (w.step m)) : P w₀ w := by
  induction h with
  | start => exact hstart
  | near m _ hK ih => exact hstep _ _ m ih hK
  | far m _ hK ih => exact hswap _ _ (hstep _ _ m (hswap _ _ ih) hK)

/-- What every move of either station keeps holds along a run. -/
theorem Run.invariant {K : World → Move → Prop} {P : World → Prop} {w₀ w : World} (h : Run K w₀ w)
    (hstart : P w₀) (hswap : ∀ w, P w → P w.swap) (hstep : ∀ w m, P w → K w m → P (w.step m)) : P w :=
  h.invariant_from (P := fun _ => P) hstart (fun _ => hswap) fun _ => hstep

end AtcHdlc
