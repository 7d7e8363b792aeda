import AtcHdlc.Integrity
import AtcHdlc.Streaming

/-! The example `loopback.c`: two stations in one process, and a wire in each direction which holds one frame. What is
sent before the frame in the wire has been delivered takes its place. So the example runs its stations over channels
that lose frames, provided that no frame takes more than the 256 octets of a wire (`loopback_refines`). -/

namespace AtcHdlc

/-- The size of `txbuf` and of `queued`. -/
def wireCapacity : Nat := 256

/-- `wire_t`: the frame being assembled, the octets of the last one that is complete, and whether it waits. -/
structure WireT where
  txbuf : List UInt8
  queued : List UInt8
  ready : Bool
  deriving DecidableEq, Repr

/-- `send_cb`. -/
def sendCb (w : WireT) (byte : UInt8) (flush : Bool) : WireT :=
  let txbuf := if w.txbuf.length < wireCapacity then w.txbuf ++ [byte] else w.txbuf
  if flush then ⟨[], txbuf, true⟩ else { w with txbuf := txbuf }

/-- A station and the wire that it sends to. -/
structure Side where
  station : Station
  ctx : Ctx
  wire : WireT

/-- After a call: `send_cb` has been called with what the call has sent. -/
def Side.become (e : Side) (s : Ctx) : Side :=
  { e with
    ctx := s
    wire := ((sends s.trace).drop (sends e.ctx.trace).length).foldl (fun w x => sendCb w x.1 x.2) e.wire }

/-- The two stations, seen from one of them. -/
structure Loopback where
  a : Side
  b : Side

/-- A call, or `wire_deliver` of the wire to the station. -/
inductive LoopMove where
  | call (c : Call)
  | deliver

namespace Loopback

def swap (l : Loopback) : Loopback := ⟨l.b, l.a⟩

def step (l : Loopback) : LoopMove → Loopback
  | .call c => { l with a := l.a.become (c.run l.a.station l.a.ctx) }
  | .deliver =>
      if l.b.wire.ready then
        ⟨l.a.become (dataIn l.a.station l.a.ctx l.b.wire.queued),
          { l.b with wire := { l.b.wire with ready := false } }⟩
      else l

/-- Every frame that has been put on the line in between goes into a wire. -/
def Short (s s' : Ctx) : Prop :=
  ∀ f ∈ (wires s'.trace).drop (wires s.trace).length, f.octets.length ≤ wireCapacity

instance (s s' : Ctx) : Decidable (Short s s') := inferInstanceAs (Decidable (∀ f ∈ _, _))

/-- Calls that put out whole frames, and deliveries, as long as the frames go into the wires. -/
def Allowed (l : Loopback) : LoopMove → Prop
  | .call c => Framed (.call c) ∧ Short l.a.ctx (c.run l.a.station l.a.ctx)
  | .deliver => Short l.a.ctx (dataIn l.a.station l.a.ctx l.b.wire.queued)

/-- The runs of the example's stations. -/
inductive Runs (l₀ : Loopback) : Loopback → Prop where
  | start : Runs l₀ l₀
  | first {l : Loopback} (m : LoopMove) (h : Runs l₀ l) (hm : l.Allowed m) : Runs l₀ (l.step m)
  | second {l : Loopback} (m : LoopMove) (h : Runs l₀ l) (hm : l.swap.Allowed m) : Runs l₀ (l.swap.step m).swap

end Loopback

section Wires

variable {crc : CrcOps}

/-- The calls of `on_send` for a frame. -/
def Frame.sends (crc : CrcOps) (f : Frame) : List (UInt8 × Bool) :=
  (flag :: octetCode.stuff (f.content crc)).map (·, false) ++ [(flag, true)]

theorem sends_onLine (trace : List Obs) : sends (onLine trace) = sends trace := by
  induction trace with
  | nil => rfl
  | cons o trace ih =>
      cases o with
      | send byte flush => exact congrArg ((byte, flush) :: ·) ih
      | _ => exact ih

/-- The frames that a call puts on the line, as `send_cb` gets them. -/
theorem Utters.sends {st : Station} {s s' : Ctx} (h : Utters st s s') : ∃ fs : List Frame,
    wires s'.trace = wires s.trace ++ fs.map (Frame.wire st.crc) ∧
      sends s'.trace = sends s.trace ++ fs.flatMap (Frame.sends st.crc) := by
  obtain ⟨l, hl, -⟩ := h
  change onLine s'.trace = onLine s.trace ++ l.flatMap fun x => x.1.obs st.crc x.2 at hl
  rw [← wires_onLine s'.trace, ← sends_onLine s'.trace, hl, ← wires_onLine s.trace, ← sends_onLine s.trace]
  refine ⟨l.map Prod.fst, ?_⟩
  generalize onLine s.trace = line
  clear hl
  induction l generalizing line with
  | nil => simp
  | cons x l ih =>
      obtain ⟨hwires, hsends⟩ := ih (line ++ x.1.obs st.crc x.2)
      rw [List.flatMap_cons, ← List.append_assoc, hwires, hsends, wires_obs, sends_append, sends_obs, List.map_cons,
        List.map_cons, List.flatMap_cons, List.append_assoc, List.append_assoc]
      exact ⟨rfl, rfl⟩

/-- Octets without a flush are added to what is being assembled. -/
theorem foldl_sendCb_octets (w : WireT) (octets : List UInt8) (h : w.txbuf.length + octets.length ≤ wireCapacity) :
    (octets.map (·, false)).foldl (fun w x => sendCb w x.1 x.2) w = { w with txbuf := w.txbuf ++ octets } := by
  induction octets generalizing w with
  | nil => rw [List.append_nil]; rfl
  | cons octet octets ih =>
      rw [List.length_cons] at h
      have hroom : w.txbuf.length < wireCapacity := by omega
      have hstep : sendCb w octet false = { w with txbuf := w.txbuf ++ [octet] } := by
        simp [sendCb, hroom]
      rw [List.map_cons, List.foldl_cons, hstep, ih]
      · simp
      · simp only [List.length_append, List.length_singleton]
        omega

/-- A frame that goes into a wire takes the place of what was there. -/
theorem foldl_sendCb_frame {w : WireT} (hidle : w.txbuf = []) {f : Frame}
    (hshort : (f.octets crc).length ≤ wireCapacity) :
    (f.sends crc).foldl (fun w x => sendCb w x.1 x.2) w = ⟨[], f.octets crc, true⟩ := by
  have hlength : (f.octets crc).length = (flag :: octetCode.stuff (f.content crc)).length + 1 := by
    simp [Frame.octets]
  rw [Frame.sends, List.foldl_append, foldl_sendCb_octets]
  · have hroom : (w.txbuf ++ flag :: octetCode.stuff (f.content crc)).length < wireCapacity := by
      rw [hidle, List.nil_append]
      omega
    rw [List.foldl_cons, List.foldl_nil, sendCb, if_pos hroom, hidle]
    rfl
  · rw [hidle, List.length_nil, Nat.zero_add]
    omega

/-- The frame in a wire, if there is one. -/
def WireT.Shows (w : WireT) (crc : CrcOps) (fs : List Frame) : Prop :=
  w.txbuf = [] ∧ (w.ready = false ∧ fs = [] ∨ ∃ f, fs = [f] ∧ w.ready = true ∧ w.queued = f.octets crc)

/-- Of the frames that are sent the last one stays. -/
theorem WireT.Shows.foldl {w : WireT} {fs : List Frame} (h : w.Shows crc fs) {gs : List Frame}
    (hshort : ∀ g ∈ gs, (g.octets crc).length ≤ wireCapacity) :
    ((gs.flatMap (Frame.sends crc)).foldl (fun w x => sendCb w x.1 x.2) w).Shows crc
      ((fs ++ gs).drop ((fs ++ gs).length - 1)) := by
  induction gs generalizing w fs with
  | nil =>
      rw [List.append_nil]
      obtain ⟨hidle, ⟨hready, rfl⟩ | ⟨f, rfl, hready, hqueued⟩⟩ := h
      · exact ⟨hidle, Or.inl ⟨hready, rfl⟩⟩
      · exact ⟨hidle, Or.inr ⟨f, rfl, hready, hqueued⟩⟩
  | cons g gs ih =>
      have hone := foldl_sendCb_frame h.1 (hshort g List.mem_cons_self)
      have hrest := @ih ⟨[], g.octets crc, true⟩ [g] ⟨rfl, Or.inr ⟨g, rfl, rfl, rfl⟩⟩
        fun f hf => hshort f (List.mem_cons_of_mem _ hf)
      have hlast : (fs ++ g :: gs).drop ((fs ++ g :: gs).length - 1) = ([g] ++ gs).drop (([g] ++ gs).length - 1) := by
        have hlength : (fs ++ g :: gs).length - 1 = fs.length + (([g] ++ gs).length - 1) := by
          simp
        rw [hlength, ← List.drop_drop, List.drop_left]
        rfl
      rw [List.flatMap_cons, List.foldl_append, hone, hlast]
      exact hrest

end Wires

/-! ### Channels that lose frames -/

/-- The frames on their way from an endpoint are what its wire holds. -/
structure Side.Mirrors (e : Side) (x : Endpoint) : Prop where
  station : x.station = e.station
  ctx : x.ctx = e.ctx
  passive : e.station.platform.Passive
  queued : ∃ fs : List Frame, x.out.map Flight.wire = fs.map (Frame.wire e.station.crc) ∧
    e.wire.Shows e.station.crc fs

structure Loopback.Mirrors (l : Loopback) (w : World) : Prop where
  a : l.a.Mirrors w.near
  b : l.b.Mirrors w.far

theorem Loopback.Mirrors.swap {l : Loopback} {w : World} (h : l.Mirrors w) : l.swap.Mirrors w.swap := ⟨h.b, h.a⟩

theorem Run.swap {K : Move → Prop} {w₀ w : World} (h : Run (fun _ => K) w₀ w) :
    Run (fun _ => K) w₀.swap w.swap := by
  induction h with
  | start => exact .start
  | near m _ hK ih => exact .far m ih hK
  | far m _ hK ih => exact .near m ih hK

/-- The line loses the frames in front. -/
theorem Run.lose_front {w₀ w : World} (h : Run (fun _ => Framed) w₀ w) (n : Nat) :
    Run (fun _ => Framed) w₀ ⟨{ w.near with out := w.near.out.drop n }, w.far⟩ := by
  induction n with
  | zero => exact h
  | succ n ih =>
      have hnext := Run.near (.lose 0) ih trivial
      have hdrop : (w.near.out.drop n).eraseIdx 0 = w.near.out.drop (n + 1) := by
        rw [List.eraseIdx_zero, List.tail_drop]
      rw [World.step, hdrop] at hnext
      exact hnext

section Runs

variable {l₀ l : Loopback} {w₀ w : World} {e : Side} {x : Endpoint} {s : Ctx}

/-- A call, or what arrives, leaves the last frame that is sent in the wire. -/
theorem Side.Mirrors.become (h : e.Mirrors x) (hutters : Utters e.station e.ctx s) (hshort : Loopback.Short e.ctx s) :
    ∃ n, (e.become s).Mirrors { x.become s with out := (x.become s).out.drop n } := by
  obtain ⟨fs, hway, hshows⟩ := h.queued
  obtain ⟨gs, hwires, hsends⟩ := hutters.sends
  obtain ⟨hctx, hstation⟩ := become_eq x s
  refine ⟨(fs ++ gs).length - 1, hstation.trans h.station, hctx, h.passive, (fs ++ gs).drop ((fs ++ gs).length - 1),
    ?_, ?_⟩
  · refine drop_wires ?_ _
    rw [← h.ctx] at hwires
    rw [become_wires hwires, hway, List.map_append]
    rfl
  · have hoctets : ∀ g ∈ gs, (g.octets e.station.crc).length ≤ wireCapacity := by
      intro g hg
      refine hshort (g.wire e.station.crc) ?_
      rw [hwires, List.drop_left]
      exact List.mem_map_of_mem hg
    have hwire : (e.become s).wire =
        (gs.flatMap (Frame.sends e.station.crc)).foldl (fun w x => sendCb w x.1 x.2) e.wire := by
      rw [Side.become, hsends, List.drop_left]
    rw [hwire]
    exact hshows.foldl hoctets

/-- What the one end does, the stations with their channels can do. -/
theorem Loopback.Mirrors.step (h : l.Mirrors w) (hrun : Run (fun _ => Framed) w₀ w) {m : LoopMove}
    (hm : l.Allowed m) : ∃ w', Run (fun _ => Framed) w₀ w' ∧ (l.step m).Mirrors w' := by
  cases m with
  | call c =>
      obtain ⟨⟨hlegal, hstreams, hin⟩, hshort⟩ := hm
      obtain ⟨n, hmirrors⟩ := h.a.become (Call.utters h.a.passive l.a.ctx hlegal hstreams) hshort
      have hcall : w.near.call c = w.near.become (c.run l.a.station l.a.ctx) := by
        rw [Endpoint.call, h.a.station, h.a.ctx]
      rw [← hcall] at hmirrors
      exact ⟨_, (Run.near (.call c) hrun ⟨hlegal, hstreams, hin⟩).lose_front n, hmirrors, h.b⟩
  | deliver =>
      obtain ⟨fs, hway, hidle, hshows⟩ := h.b.queued
      obtain ⟨hready, -⟩ | ⟨f, rfl, hready, hqueued⟩ := hshows
      · have hstay : l.step .deliver = l := if_neg (ne_true_of_eq_false hready)
        rw [hstay]
        exact ⟨w, hrun, h⟩
      · have hmoved : l.step .deliver = ⟨l.a.become (dataIn l.a.station l.a.ctx l.b.wire.queued),
            { l.b with wire := { l.b.wire with ready := false } }⟩ := if_pos hready
        have hlength : w.far.out.length = 1 := by
          rw [← List.length_map (f := Flight.wire), hway]
          rfl
        have hall : w.far.out.take 1 = w.far.out := List.take_of_length_le hlength.le
        have hnone : w.far.out.drop 1 = [] := List.drop_of_length_le hlength.le
        obtain ⟨heard, hhear⟩ := foldl_hear w.near w.far.out
        have hreceive : w.near.receive (w.far.out.take 1) =
            { w.near with heard := heard }.become (dataIn l.a.station l.a.ctx l.b.wire.queued) := by
          have hread : dataIn w.near.station w.near.ctx (w.far.out.flatMap fun f => f.wire.octets) =
              dataIn l.a.station l.a.ctx l.b.wire.queued := by
            rw [flatMap_octets hway, h.a.station, h.a.ctx, List.flatMap_singleton, hqueued]
          rw [hall, Endpoint.receive, hhear, hread]
        have hlistens : l.a.Mirrors { w.near with heard := heard } := ⟨h.a.station, h.a.ctx, h.a.passive, h.a.queued⟩
        obtain ⟨n, hmirrors⟩ := hlistens.become (dataIn_utters h.a.passive l.a.ctx l.b.wire.queued) hm
        rw [← hreceive] at hmirrors
        have hempty : { l.b with wire := { l.b.wire with ready := false } }.Mirrors
            { w.far with out := w.far.out.drop 1 } := by
          refine ⟨h.b.station, h.b.ctx, h.b.passive, [], ?_, hidle, Or.inl ⟨rfl, rfl⟩⟩
          rw [hnone]
          rfl
        rw [hmoved]
        exact ⟨_, (Run.near (.deliver 1) hrun trivial).lose_front n, hmirrors, hempty⟩

/-- The stations of `loopback.c` run over channels that lose frames, as long as their frames go into the wires: for
every run there is one of two stations with such channels, in which the stations come to the same contexts and no
frame but the one in each wire is on its way. -/
theorem loopback_refines (hstart : l₀.Mirrors w₀) (hruns : l₀.Runs l) :
    ∃ w, Run (fun _ => Framed) w₀ w ∧ l.Mirrors w := by
  induction hruns with
  | start => exact ⟨w₀, .start, hstart⟩
  | first m _ hm ih =>
      obtain ⟨w, hrun, hmirrors⟩ := ih
      exact hmirrors.step hrun hm
  | second m _ hm ih =>
      obtain ⟨w, hrun, hmirrors⟩ := ih
      obtain ⟨w', hrun', hmirrors'⟩ := hmirrors.swap.step hrun.swap hm
      exact ⟨w'.swap, hrun'.swap, hmirrors'.swap⟩

end Runs

/-- A slot of `tx_win_a` holds what `cfg_a` lets through. -/
theorem loopbackWindow_capacity : ∀ w ∈ some (⟨64, 1, Nat.one_pos, oneSlot_le⟩ : TxWindow), 64 ≤ w.slotCapacity := by
  simp

/-- `plat_a` has no `on_data`, and `plat_b` has no window; the callbacks print. -/
def loopbackA : Station where
  config := ⟨modeAbm, 0x01, 64, 3, 1000, 10⟩
  platform := { mockPlatform with onData := none }
  crc := crcOpsDefault
  txWindow := some ⟨64, 1, Nat.one_pos, oneSlot_le⟩
  rxCapacity := 128
  mode_abm := rfl
  rxCapacity_min := by simp
  rxCapacity_frame := by decide
  slotCapacity_min := loopbackWindow_capacity

def loopbackB : Station where
  config := ⟨modeAbm, 0x02, 64, 3, 1000, 10⟩
  platform := mockPlatform
  crc := crcOpsDefault
  txWindow := none
  rxCapacity := 128
  mode_abm := rfl
  rxCapacity_min := by simp
  rxCapacity_frame := by decide
  slotCapacity_min := by simp

namespace Loopback

/-- After `atc_hdlc_init` of both, with the address that B is told. -/
def begin : Loopback :=
  ⟨⟨loopbackA, initCtx loopbackA zeroMemory, ⟨[], [], false⟩⟩,
    ⟨loopbackB, { initCtx loopbackB zeroMemory with peerAddress := 0x01 }, ⟨[], [], false⟩⟩⟩

/-- A call of A, the `wire_deliver` of its wire, and that of B's. -/
def exchange (l : Loopback) (c : Call) : Loopback :=
  ((l.step (.call c)).swap.step .deliver).swap.step .deliver

/-- An I-frame of A, which B acknowledges when T2 expires. -/
def message (l : Loopback) (data : List UInt8) : Loopback :=
  (((l.step (.call (.transmitI (.octets data)))).swap.step .deliver).step (.call .t2Expired)).swap.step .deliver

/-- `main`, with `"Hello!"` and `"World!"`. -/
def main : Loopback :=
  (((begin.exchange (.linkSetup 0x02)).message [0x48, 0x65, 0x6C, 0x6C, 0x6F, 0x21]).message
    [0x57, 0x6F, 0x72, 0x6C, 0x64, 0x21]).exchange .disconnect

/-- Every frame of an exchange, or of a message, goes into its wire. -/
def ExchangeShort (l : Loopback) (c : Call) : Prop :=
  Short l.a.ctx (c.run l.a.station l.a.ctx) ∧ (l.step (.call c)).swap.Allowed .deliver ∧
    ((l.step (.call c)).swap.step .deliver).swap.Allowed .deliver

def MessageShort (l : Loopback) (data : List UInt8) : Prop :=
  let sent := (l.step (.call (.transmitI (.octets data)))).swap
  let heard := sent.step .deliver
  Short l.a.ctx ((Call.transmitI (.octets data)).run l.a.station l.a.ctx) ∧ sent.Allowed .deliver ∧
    Short heard.a.ctx (Call.t2Expired.run heard.a.station heard.a.ctx) ∧
    (heard.step (.call .t2Expired)).swap.Allowed .deliver

instance (l : Loopback) (c : Call) : Decidable (l.ExchangeShort c) :=
  inferInstanceAs (Decidable (Short _ _ ∧ Short _ _ ∧ Short _ _))

instance (l : Loopback) (data : List UInt8) : Decidable (l.MessageShort data) :=
  inferInstanceAs (Decidable (Short _ _ ∧ Short _ _ ∧ Short _ _ ∧ Short _ _))

variable {l₀ l : Loopback}

theorem Runs.exchange (h : l₀.Runs l) {c : Call} (hc : Framed (.call c)) (hshort : l.ExchangeShort c) :
    l₀.Runs (l.exchange c) := by
  obtain ⟨hsent, hthere, hback⟩ := hshort
  exact .first .deliver (.second .deliver (.first (.call c) h ⟨hc, hsent⟩) hthere) hback

theorem Runs.message (h : l₀.Runs l) {data : List UInt8} (hshort : l.MessageShort data) :
    l₀.Runs (l.message data) := by
  obtain ⟨hsent, hthere, hacknowledged, hback⟩ := hshort
  have hdata : Framed (.call (.transmitI (.octets data))) := ⟨Or.inl rfl, id, fun _ => Call.noConfusion⟩
  have htimer : Framed (.call .t2Expired) := ⟨trivial, id, fun _ => Call.noConfusion⟩
  have hheard := (h.first (.call (.transmitI (.octets data))) ⟨hdata, hsent⟩).second .deliver hthere
  exact (hheard.second (.call .t2Expired) ⟨htimer, hacknowledged⟩).first .deliver hback

theorem main_runs : begin.Runs main := by
  refine Runs.exchange (.message (.message (.exchange .start ?_ ?_) ?_) ?_) ?_ ?_
  · exact ⟨trivial, id, fun _ => Call.noConfusion⟩
  · decide +kernel
  · decide +kernel
  · decide +kernel
  · exact ⟨trivial, id, fun _ => Call.noConfusion⟩
  · decide +kernel

end Loopback

/-- The stations of `loopback.c` with nothing on its way. -/
def loopbackWorld : World :=
  ⟨⟨loopbackA, initCtx loopbackA zeroMemory, 0, 0, []⟩,
    ⟨loopbackB, { initCtx loopbackB zeroMemory with peerAddress := 0x01 }, 0, 0, []⟩⟩

theorem loopbackWorld_mirrored : Loopback.begin.Mirrors loopbackWorld := by
  have hpassive : loopbackA.platform.Passive := ⟨fun _ h => (Option.not_mem_none _ h).elim, mockPlatform_passive.2⟩
  exact ⟨⟨rfl, rfl, hpassive, [], rfl, rfl, Or.inl ⟨rfl, rfl⟩⟩,
    ⟨rfl, rfl, mockPlatform_passive, [], rfl, rfl, Or.inl ⟨rfl, rfl⟩⟩⟩

theorem loopback_refines_main :
    payloads Loopback.main.b.ctx.trace = [[0x48, 0x65, 0x6C, 0x6C, 0x6F, 0x21], [0x57, 0x6F, 0x72, 0x6C, 0x64, 0x21]] ∧
      ∃ w, Run (fun _ => Framed) loopbackWorld w ∧ Loopback.main.Mirrors w :=
  ⟨by decide +kernel, loopback_refines loopbackWorld_mirrored Loopback.main_runs⟩

end AtcHdlc
