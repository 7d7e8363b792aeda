import AtcHdlc.Alarms
import AtcHdlc.Lines
import AtcHdlc.Lib.RingBuffer

/-! The integration test `virtual_com.c`: two nodes, each with a thread of its own that feeds the library, and a pipe
each way. The main thread offers one node a file, chunk by chunk, and each node guards its context with a lock; the
pipes have locks of their own, and the octets of a frame go into a pipe one by one. However the threads are
scheduled, what the other node has stored is the beginning of the file (`file_transferred`), as long as no pipe
overflows and the link does not fail. The fault that the Go-Back-N test injects changes nothing of that: it takes an
opening flag, which the receiver does not need behind the closing flag of the frame before. -/

namespace AtcHdlc

open DataLink

/-- The size of the buffer of a `pipe_queue_t`. -/
def pipeCapacity : Nat := 65536

theorem pipeCapacity_pos : 0 < pipeCapacity := by decide

abbrev PipeQueue := RingBuffer pipeCapacity UInt8

/-- `pipe_init`, with what the buffer holds before. -/
def pipeInit (buffer : Nat → UInt8) : PipeQueue := .initial pipeCapacity_pos buffer

/-- `pipe_write`, which returns the number of the octets for which there was room. -/
def pipeWrite (q : PipeQueue) : List UInt8 → PipeQueue × Nat
  | [] => (q, 0)
  | b :: data =>
      if q.Full then (q, 0)
      else
        let (q, written) := pipeWrite (q.push b) data
        (q, written + 1)

/-- `pipe_read`. -/
def pipeRead (q : PipeQueue) : Nat → PipeQueue × List UInt8
  | 0 => (q, [])
  | maxLen + 1 =>
      if q.Empty then (q, [])
      else
        let (q', data) := pipeRead q.pop maxLen
        (q', q.peek :: data)

theorem pipeWrite_contents (q : PipeQueue) (data : List UInt8) :
    (pipeWrite q data).1.contents = q.contents ++ data.take (pipeWrite q data).2 := by
  induction data generalizing q with
  | nil => exact (List.append_nil _).symm
  | cons b data ih =>
      by_cases hfull : q.Full
      · rw [pipeWrite, if_pos hfull]
        exact (List.append_nil _).symm
      · rw [pipeWrite, if_neg hfull]
        show (pipeWrite (q.push b) data).1.contents = q.contents ++ (b :: data).take ((pipeWrite (q.push b) data).2 + 1)
        rw [ih, q.contents_push_of_not_full hfull, List.append_assoc]
        rfl

/-- A pipe gives what it has taken, in order. -/
theorem pipeRead_contents (q : PipeQueue) (maxLen : Nat) :
    (pipeRead q maxLen).2 = q.contents.take maxLen ∧ (pipeRead q maxLen).1.contents = q.contents.drop maxLen := by
  induction maxLen generalizing q with
  | zero => exact ⟨rfl, rfl⟩
  | succ maxLen ih =>
      by_cases hempty : q.Empty
      · have hnil := q.contents_eq_nil_iff.mpr hempty
        rw [pipeRead, if_pos hempty]
        show [] = q.contents.take (maxLen + 1) ∧ q.contents = q.contents.drop (maxLen + 1)
        rw [hnil]
        exact ⟨rfl, rfl⟩
      · obtain ⟨hdata, hrest⟩ := ih q.pop
        rw [pipeRead, if_neg hempty, q.contents_pop hempty, List.take_succ_cons, List.drop_succ_cons]
        exact ⟨congrArg (q.peek :: ·) hdata, hrest⟩

/-! ### The nodes -/

/-- `CHUNK_SIZE`. -/
def chunkSize : Nat := 150

/-- Where a thread is in `node_thread_func`: before `pipe_read`, before the lock, and behind the three calls that it
can make while it holds the lock. -/
inductive ThreadPoint where
  | read
  | lock
  | afterData
  | afterT2
  | afterT1
  deriving DecidableEq, Repr

def ThreadPoint.Holds (p : ThreadPoint) : Prop := p ≠ .read ∧ p ≠ .lock

/-- Where the main thread is in the loop of `hdlc_test_send_data`: at its head, before the lock, and with what
`atc_hdlc_transmit_i` returns, holding the lock and behind it. -/
inductive MainPoint where
  | head
  | lock
  | call (sendResult : Error)
  | unlocked (sendResult : Error)
  deriving DecidableEq, Repr

def MainPoint.Holds : MainPoint → Prop
  | .call _ => True
  | _ => False

/-- `rx_data`, which may be null, `rx_data_capacity` and `bytes_received`. -/
structure RxData where
  data : Option (Nat → UInt8)
  capacity : Nat
  bytesReceived : Nat

/-- `node_on_data_cb`. -/
def RxData.store (r : RxData) (payload : List UInt8) : RxData :=
  let bytesReceived := (r.bytesReceived + payload.length) % 2 ^ 32
  { r with
    data := if bytesReceived ≤ r.capacity then
        r.data.map fun data i =>
          if r.bytesReceived ≤ i ∧ i < r.bytesReceived + payload.length then payload.getD (i - r.bytesReceived) 0
          else data i
      else r.data
    bytesReceived := bytesReceived }

/-- `virtual_node_t`, with the thread's own variables and those of `hdlc_test_send_data`. The lock is held by the thread
whose point says so, and `pending` holds the callbacks of its call that have not been made. -/
structure VirtualNode where
  station : Station
  ctx : Ctx
  txPipe : PipeQueue
  dropNextIFrame : Bool
  rx : RxData
  connected : Bool
  t1Pending : Bool
  t2Pending : Bool
  point : ThreadPoint
  buf : List UInt8
  pending : List Obs
  main : MainPoint
  payload : List UInt8
  sent : Nat

/-- What `node_output_cb` writes of some octets, with `drop_next_i_frame` or without. -/
def spared (drop : Bool) (octets : List UInt8) : List UInt8 :=
  if drop then (octets.dropWhile (· ≠ flag)).drop 1 else octets

theorem spared_cons (byte : UInt8) (octets : List UInt8) :
    spared true (byte :: octets) = spared (!decide (byte = 0x7E)) octets := by
  by_cases hflag : byte = 0x7E
  · simp [spared, flag, hflag]
  · have hne : byte ≠ flag := hflag
    simp [spared, hne, hflag]

namespace VirtualNode

/-- A call of the library, whose callbacks are then made one by one. -/
def call (n : VirtualNode) (c : Call) : VirtualNode :=
  { n with ctx := c.run n.station n.ctx, pending := (c.run n.station n.ctx).trace.drop n.ctx.trace.length }

/-- The callbacks: `node_output_cb` with an `error_probability` of 0, `node_on_data_cb`, `node_event_cb`, and those of
the timers. -/
def callback (n : VirtualNode) : Obs → VirtualNode
  | .send byte _ =>
      if n.dropNextIFrame then { n with dropNextIFrame := !decide (byte = 0x7E) }
      else { n with txPipe := (pipeWrite n.txPipe [byte]).1 }
  | .data payload => { n with rx := n.rx.store payload }
  | .event .connAccepted | .event .connReq => { n with connected := true }
  | .event .discDone | .event .peerDisc | .event .linkFailure => { n with connected := false }
  | .t1Start _ => { n with t1Pending := true }
  | .t1Stop => { n with t1Pending := false }
  | .t2Start _ => { n with t2Pending := true }
  | .t2Stop => { n with t2Pending := false }
  | _ => n

/-- The chunk that `hdlc_test_send_data` offers next. -/
def chunk (n : VirtualNode) : List UInt8 := (n.payload.drop n.sent).take chunkSize

/-- `hdlc_test_send_data` has the lock. -/
def transmit (n : VirtualNode) : VirtualNode :=
  { n.call (.transmitI (.octets n.chunk)) with main := .call (transmitI n.station n.ctx (.octets n.chunk)).1 }

/-- The end of a turn of the loop. -/
def count (n : VirtualNode) (sendResult : Error) : VirtualNode :=
  { n with sent := if sendResult = .ok then n.sent + n.chunk.length else n.sent, main := .head }

/-- What is accepted and not yet counted in `sent`. -/
def uncounted (n : VirtualNode) : Nat :=
  match n.main with
  | .call sendResult | .unlocked sendResult => if sendResult = .ok then n.chunk.length else 0
  | .head | .lock => 0

end VirtualNode

/-- Two nodes, seen from the near one. -/
structure VirtualPair where
  near : VirtualNode
  far : VirtualNode

namespace VirtualPair

def swap (d : VirtualPair) : VirtualPair := ⟨d.far, d.near⟩

/-- What happens at the near node: the callbacks of the call under way, the thread of the node, and the main thread
in `hdlc_test_send_data`, which injects its fault between two calls. No octet is lost in a full pipe, and T1 does not
expire with its retries used up. -/
inductive Near (d : VirtualPair) : VirtualPair → Prop where
  | callback (o : Obs) (rest : List Obs) (hpending : d.near.pending = o :: rest)
      (hroom : ∀ byte flush, o = .send byte flush → ¬d.near.txPipe.Full) :
      Near d ⟨{ d.near.callback o with pending := rest }, d.far⟩
  | read (hpoint : d.near.point = .read) :
      Near d ⟨{ d.near with buf := (pipeRead d.far.txPipe 1024).2, point := .lock },
        { d.far with txPipe := (pipeRead d.far.txPipe 1024).1 }⟩
  | data (hpoint : d.near.point = .lock) (hfree : ¬d.near.main.Holds) (hbuf : d.near.buf ≠ []) :
      Near d ⟨{ d.near.call (.dataIn d.near.buf) with buf := [], point := .afterData }, d.far⟩
  | noData (hpoint : d.near.point = .lock) (hfree : ¬d.near.main.Holds) (hbuf : d.near.buf = []) :
      Near d ⟨{ d.near with point := .afterT2 }, d.far⟩
  | t2 (hpoint : d.near.point = .afterData) (hdone : d.near.pending = []) (hpending : d.near.t2Pending = true) :
      Near d ⟨{ ({ d.near with t2Pending := false }).call .t2Expired with point := .afterT2 }, d.far⟩
  | noT2 (hpoint : d.near.point = .afterData) (hdone : d.near.pending = []) (hpending : d.near.t2Pending = false) :
      Near d ⟨{ d.near with point := .afterT2 }, d.far⟩
  | t1 (hpoint : d.near.point = .afterT2) (hdone : d.near.pending = []) (hpending : d.near.t1Pending = true)
      (hbudget : ¬Exhausted d.near.station (counted d.near.ctx)) :
      Near d ⟨{ ({ d.near with t1Pending := false }).call .t1Expired with point := .afterT1 }, d.far⟩
  | noT1 (hpoint : d.near.point = .afterT2) (hdone : d.near.pending = []) :
      Near d ⟨{ d.near with point := .afterT1 }, d.far⟩
  | unlock (hpoint : d.near.point = .afterT1) (hdone : d.near.pending = []) :
      Near d ⟨{ d.near with point := .read }, d.far⟩
  | turn (hmain : d.near.main = .head) (hmore : d.near.sent < d.near.payload.length)
      (hconnected : d.near.connected = true) : Near d ⟨{ d.near with main := .lock }, d.far⟩
  | transmit (hmain : d.near.main = .lock) (hfree : ¬d.near.point.Holds) : Near d ⟨d.near.transmit, d.far⟩
  | release (sendResult : Error) (hmain : d.near.main = .call sendResult) (hdone : d.near.pending = []) :
      Near d ⟨{ d.near with main := .unlocked sendResult }, d.far⟩
  | count (sendResult : Error) (hmain : d.near.main = .unlocked sendResult) :
      Near d ⟨d.near.count sendResult, d.far⟩
  | inject (hcalls : d.near.pending = []) : Near d ⟨{ d.near with dropNextIFrame := true }, d.far⟩

/-- A step of either node. -/
inductive Step : VirtualPair → VirtualPair → Prop where
  | near {d d' : VirtualPair} (h : Near d d') : Step d d'
  | far {d d' : VirtualPair} (h : Near d.swap d') : Step d d'.swap

/-- The runs of two nodes. -/
abbrev Runs : VirtualPair → VirtualPair → Prop := Relation.ReflTransGen Step

end VirtualPair

section Session

variable {st : Station}

/-- A call adds to the trace. -/
theorem Call.extends (hw : ∀ t : Timer, t.Wired st.platform) (hp : st.platform.Passive) (s : Ctx) {c : Call}
    (hlegal : c.Legal) : ∃ os, (c.run st s).trace = s.trace ++ os := by
  by_cases hexpiry : c = Timer.expiry .t2
  · have hother : c ≠ Timer.expiry .t1 := by
      rw [hexpiry]
      exact Call.noConfusion
    obtain ⟨os, htrace, -⟩ := Call.tracked (hw .t1) (hp.tracks .t1) s hlegal hother
    exact ⟨os, htrace⟩
  · obtain ⟨os, htrace, -⟩ := Call.tracked (hw .t2) (hp.tracks .t2) s hlegal hexpiry
    exact ⟨os, htrace⟩

theorem Quiet.sent {s s' : Ctx} (h : Quiet s s') : (session s'.trace).sent = (session s.trace).sent := by
  obtain ⟨os, hos, htrace⟩ := h.trace
  rw [htrace, session_neutral _ hos]

theorem t1Expired_sent {s : Ctx} (hbudget : ¬Exhausted st (counted s)) :
    (session (t1Expired st s).trace).sent = (session s.trace).sent := by
  by_cases hwait : Awaiting s
  · exact (t1Expired_repeats hwait hbudget).leaves.quiet.sent
  · rw [t1Expired_idle hwait hbudget]
    rfl

theorem t2Expired_sent (s : Ctx) : (session (t2Expired st s).trace).sent = (session s.trace).sent := by
  obtain ⟨_, _, _, _, hleaves⟩ := @t2Expired_leaves st s
  exact hleaves.quiet.sent

theorem transmitI_sent (s : Ctx) {data : Payload} (hdata : data.NonNull) :
    (session (transmitI st s data).2.trace).sent =
      (session s.trace).sent ++ if (transmitI st s data).1 = .ok then [data.read] else [] := by
  by_cases hok : (transmitI st s data).1 = .ok
  · obtain ⟨-, tw, -, haccepted⟩ := transmitI_ok hok
    rw [if_pos hok, haccepted, session_acceptI s hdata]
  · rw [if_neg hok, transmitI_of_not_ok hok, List.append_nil]

/-- Frames that are no U-frames leave the payloads of the session as they are. -/
theorem rxBytes_sent (hp : st.platform.Passive) {tw : TxWindow} (htw : st.txWindow = some tw) {s : Ctx}
    (hinv : WindowInv tw s) (hindex : s.rxIndex = 0) (crc : CrcOps) {fs : List Frame}
    (hfs : ∀ f ∈ fs, isUframe f.ctrl = false) :
    (session (rxBytes st s (fs.flatMap (Frame.octets crc))).trace).sent = (session s.trace).sent := by
  induction fs generalizing s with
  | nil => rfl
  | cons f fs ih =>
      have hsplit : rxBytes st s ((f :: fs).flatMap (Frame.octets crc)) =
          rxBytes st (rxBytes st s (f.octets crc)) (fs.flatMap (Frame.octets crc)) := by
        rw [List.flatMap_cons]
        exact List.foldl_append
      obtain ⟨t, hread⟩ := rxBytes_octets_of_crc hindex crc f
      have hnext := hinv.rxBytes hp (f.octets crc)
      have hone : (rxBytes st s (f.octets crc)).rxIndex = 0 ∧
          (session (rxBytes st s (f.octets crc)).trace).sent = (session s.trace).sent := by
        rw [hread]
        split_ifs
        · have hparser : WindowInv tw (s.withParser t) := hinv.quiet (.of_trace rfl rfl rfl rfl rfl rfl rfl)
          have hresets : resets (s.withParser t) f.arriving.ctrl = false := by
            have hu : isUframe f.arriving.ctrl = false := hfs f List.mem_cons_self
            simp [resets, hu]
          have hdispatch := session_dispatch hp (Windowed.of_some htw _) hparser f.arriving
          rw [hresets, if_neg Bool.false_ne_true] at hdispatch
          refine ⟨rfl, ?_⟩
          show (session (f.arriving.dispatch st (s.withParser t)).trace).sent = _
          rw [hdispatch]
          split_ifs <;> rfl
        · exact ⟨rfl, rfl⟩
      rw [hsplit, ih hnext hone.1 fun g hg => hfs g (List.mem_cons_of_mem _ hg), hone.2]

/-- In a session there are no U-frames. -/
theorem numbered_frames {peer : UInt8} {flights : List Flight} {ms : List (Msg (List UInt8))}
    (hms : List.Forall₂ (Carries st peer) flights ms) (hnr : ∀ m ∈ ms, m.nr?.isSome = true) :
    ∃ fs : List Frame, flights.map Flight.wire = fs.map (Frame.wire st.crc) ∧ ∀ f ∈ fs, isUframe f.ctrl = false := by
  induction hms with
  | nil => exact ⟨[], rfl, fun _ h => absurd h List.not_mem_nil⟩
  | @cons flight m flights ms hm _ ih =>
      obtain ⟨f, hwire, hmeans⟩ := hm
      obtain ⟨fs, hfs, hnumbered⟩ := ih fun m hm => hnr m (List.mem_cons_of_mem _ hm)
      refine ⟨f :: fs, ?_, ?_⟩
      · rw [List.map_cons, List.map_cons, hwire, hfs]
      · exact List.forall_mem_cons.mpr ⟨hmeans.numbered (hnr m List.mem_cons_self), hnumbered⟩

/-- What arrives in a session adds nothing to what was accepted. -/
theorem InSession.deliver_sent {bound : Nat} {w₀ w : World} {n : Net (List UInt8)}
    (h : InSession sessionRules bound w₀ w n) (hmatched : Matched w) (k : Nat) :
    (session (w.step (.deliver k)).near.ctx.trace).sent = (session w.near.ctx.trace).sent := by
  obtain ⟨tw, htw⟩ := Option.isSome_iff_exists.mp hmatched.nearWindow
  have hinv := h.near.reflects.inv
  rw [windowOf_eq htw] at hinv
  have hnr : ∀ m ∈ n.far.out.take k, m.nr?.isSome = true :=
    fun m hm => h.talking.farOut m (List.mem_of_mem_take hm)
  obtain ⟨fs, hfs, hnumbered⟩ := numbered_frames (List.forall₂_take k h.far.out) hnr
  have hread := rxBytes_sent hmatched.nearPassive htw hinv h.near.index w.far.station.crc hnumbered
  have hafter := hinv.rxBytes hmatched.nearPassive (fs.flatMap (Frame.octets w.far.station.crc))
  show (session (w.near.receive (w.far.out.take k)).ctx.trace).sent = _
  rw [(receive_eq w.near _).1, flatMap_octets hfs, ← hread, dataIn, retransmitIfPending, htw]
  split_ifs
  · exact (retransmitOutstanding_quiet hafter.vs_lt hafter.from_lt).sent
  · rfl

end Session

theorem store_data (r : RxData) (payload : List UInt8) : (r.store payload).data.isSome = r.data.isSome := by
  show (if _ then r.data.map _ else r.data).isSome = _
  split_ifs
  · exact Option.isSome_map
  · rfl

/-- Payloads that together are the beginning of a file end up at the beginning of `rx_data`. -/
theorem store_prefix {r : RxData} {file : List UInt8} {ps : List (List UInt8)} (hempty : r.bytesReceived = 0)
    (hcapacity : r.data.isSome = true → r.capacity = file.length) (hsize : file.length < 2 ^ 32)
    (hps : ps.flatten <+: file) :
    (ps.foldl RxData.store r).bytesReceived = ps.flatten.length ∧
      ((ps.foldl RxData.store r).data.isSome = true → (ps.foldl RxData.store r).capacity = file.length) ∧
      ∀ data, (ps.foldl RxData.store r).data = some data → ∀ i < ps.flatten.length, data i = file.getD i 0 := by
  induction ps using List.reverseRecOn with
  | nil => exact ⟨hempty, hcapacity, fun _ _ i hi => absurd hi (Nat.not_lt_zero i)⟩
  | append_singleton ps p ih =>
      rw [List.flatten_append, List.flatten_singleton] at hps ⊢
      obtain ⟨hreceived, hcap, hdata⟩ := ih ((List.prefix_append _ _).trans hps)
      have hlength := hps.length_le
      rw [List.length_append] at hlength ⊢
      obtain ⟨rest, hfile⟩ := hps
      rw [List.foldl_append, List.foldl_cons, List.foldl_nil]
      generalize ps.foldl RxData.store r = s at hreceived hcap hdata
      have hsum : (s.bytesReceived + p.length) % 2 ^ 32 = ps.flatten.length + p.length := by
        rw [hreceived]
        exact Nat.mod_eq_of_lt (by omega)
      have hcap' : (s.store p).data.isSome = true → s.capacity = file.length := by
        rw [store_data]
        exact hcap
      refine ⟨hsum, hcap', fun data hstored i hi => ?_⟩
      have hroom : (s.bytesReceived + p.length) % 2 ^ 32 ≤ s.capacity := by
        rw [hsum, hcap' (Option.isSome_of_eq_some hstored)]
        exact hlength
      have hmap : (s.store p).data = s.data.map fun data i =>
          if s.bytesReceived ≤ i ∧ i < s.bytesReceived + p.length then p.getD (i - s.bytesReceived) 0 else data i :=
        if_pos hroom
      rw [hmap, Option.map_eq_some_iff] at hstored
      obtain ⟨before, hbefore, rfl⟩ := hstored
      show (if _ then _ else _) = _
      rw [hreceived]
      split_ifs with hnew
      · rw [← hfile, List.append_assoc, List.getD_append_right _ _ _ _ hnew.1,
          List.getD_append _ _ _ _ (by omega)]
      · exact hdata before hbefore i (by omega)

namespace VirtualNode

/-- What the node has stored is what its callbacks have given it, since the first `k` payloads. -/
def Stored (k : Nat) (r : RxData) (n : VirtualNode) : Prop :=
  ∃ done, n.ctx.trace = done ++ n.pending ∧ k ≤ (payloads done).length ∧
    n.rx = ((payloads done).drop k).foldl RxData.store r

/-- The session has accepted the file from its beginning, what is counted and what is not yet. -/
structure Offered (file : List UInt8) (n : VirtualNode) : Prop where
  accepted : (session n.ctx.trace).sent.flatten = file.take (n.sent + n.uncounted)
  le : n.sent + n.uncounted ≤ file.length

/-- A node that stores what it is given and offers its file in order, and whose callbacks are made under the lock. -/
structure Serves (st : Station) (k : Nat) (r : RxData) (file : List UInt8) (n : VirtualNode) : Prop where
  station : n.station = st
  idle : n.point ≠ .lock → n.buf = []
  stored : Stored k r n
  payload : n.payload = file
  offered : Offered file n
  locked : n.pending ≠ [] → n.point.Holds ∨ n.main.Holds

variable {st : Station} {k : Nat} {r : RxData} {file : List UInt8} {n : VirtualNode}

theorem callback_send (n : VirtualNode) (byte : UInt8) (flush : Bool) :
    n.callback (.send byte flush) =
      if n.dropNextIFrame then { n with dropNextIFrame := !decide (byte = 0x7E) }
      else { n with txPipe := (pipeWrite n.txPipe [byte]).1 } := rfl

/-- A callback does not touch the session. -/
theorem callback_same (n : VirtualNode) (o : Obs) : (n.callback o).station = n.station ∧ (n.callback o).ctx = n.ctx ∧
    (n.callback o).point = n.point ∧ (n.callback o).buf = n.buf ∧ (n.callback o).main = n.main ∧
    (n.callback o).payload = n.payload ∧ (n.callback o).sent = n.sent := by
  cases o with
  | send byte flush =>
      rw [callback_send]
      split_ifs <;> exact ⟨rfl, rfl, rfl, rfl, rfl, rfl, rfl⟩
  | event event => cases event <;> exact ⟨rfl, rfl, rfl, rfl, rfl, rfl, rfl⟩
  | _ => exact ⟨rfl, rfl, rfl, rfl, rfl, rfl, rfl⟩

theorem callback_rx (n : VirtualNode) (o : Obs) : (n.callback o).rx = (payloads [o]).foldl RxData.store n.rx := by
  cases o with
  | send byte flush =>
      rw [callback_send]
      split_ifs <;> rfl
  | event event => cases event <;> rfl
  | _ => rfl

/-- What the callbacks that are due will write into the pipe. -/
def due (n : VirtualNode) : List UInt8 := spared n.dropNextIFrame (sentOctets n.pending)

theorem due_of_free (n : VirtualNode) (hfree : n.pending = []) : n.due = [] := by
  rw [due, hfree]
  cases n.dropNextIFrame <;> rfl

theorem due_of_quiet (n : VirtualNode) {o : Obs} {rest : List Obs} (hpending : n.pending = o :: rest)
    (hquiet : sentOctets [o] = []) : spared n.dropNextIFrame (sentOctets rest) = n.due := by
  have hsent : sentOctets n.pending = sentOctets rest := by
    rw [hpending, ← List.singleton_append, sentOctets_append, hquiet, List.nil_append]
  rw [due, hsent]

theorem callback_due (n : VirtualNode) {o : Obs} {rest : List Obs} (hpending : n.pending = o :: rest)
    (hroom : ∀ byte flush, o = .send byte flush → ¬n.txPipe.Full) :
    (n.callback o).txPipe.contents ++ due { n.callback o with pending := rest } = n.txPipe.contents ++ n.due := by
  cases o with
  | send byte flush =>
      have hsent : sentOctets n.pending = byte :: sentOctets rest := by rw [hpending]; rfl
      rw [due, due, hsent]
      by_cases hdrop : n.dropNextIFrame = true
      · rw [callback_send, if_pos hdrop, hdrop, spared_cons]
      · have hfull := hroom byte flush rfl
        rw [callback_send, if_neg hdrop, pipeWrite, if_neg hfull]
        show (n.txPipe.push byte).contents ++ spared n.dropNextIFrame (sentOctets rest) = _
        rw [eq_false_of_ne_true hdrop, n.txPipe.contents_push_of_not_full hfull, List.append_assoc]
        rfl
  | event event =>
      have hdue := due_of_quiet n hpending rfl
      cases event <;> exact congrArg (n.txPipe.contents ++ ·) hdue
  | _ => exact congrArg (n.txPipe.contents ++ ·) (due_of_quiet n hpending rfl)

theorem callback_length (n : VirtualNode) (o : Obs) :
    (n.callback o).txPipe.contents.length ≤ n.txPipe.contents.length + 1 := by
  have hsame : n.txPipe.contents.length ≤ n.txPipe.contents.length + 1 := Nat.le_succ _
  cases o with
  | send byte flush =>
      rw [callback_send]
      split_ifs
      · exact hsame
      · show (pipeWrite n.txPipe [byte]).1.contents.length ≤ _
        rw [pipeWrite_contents, List.length_append, List.length_take]
        exact Nat.add_le_add_left (Nat.min_le_right _ _) _
  | event event => cases event <;> exact hsame
  | _ => exact hsame

/-- The callbacks are made in their order. -/
theorem Stored.callback (h : Stored k r n) {o : Obs} {rest : List Obs} (hpending : n.pending = o :: rest) :
    Stored k r { n.callback o with pending := rest } := by
  obtain ⟨done, htrace, hle, hrx⟩ := h
  refine ⟨done ++ [o], ?_, ?_, ?_⟩
  · show (n.callback o).ctx.trace = _
    rw [(callback_same n o).2.1, htrace, hpending, List.append_assoc]
    rfl
  · rw [payloads_append, List.length_append]
    exact Nat.le_add_right_of_le hle
  · show (n.callback o).rx = _
    rw [callback_rx, hrx, payloads_append, List.drop_append_of_le_length hle, List.foldl_append]

/-- A node after a call of the library. -/
structure Called (c : Call) (n n' : VirtualNode) : Prop where
  station : n'.station = n.station
  ctx : n'.ctx = c.run n.station n.ctx
  pending : n'.pending = n'.ctx.trace.drop n.ctx.trace.length
  txPipe : n'.txPipe = n.txPipe
  rx : n'.rx = n.rx
  payload : n'.payload = n.payload

/-- A call leaves its callbacks to be made. -/
theorem Called.trace {c : Call} {n' : VirtualNode} (h : Called c n n') (hw : ∀ t : Timer, t.Wired n.station.platform)
    (hp : n.station.platform.Passive) (hlegal : c.Legal) : n'.ctx.trace = n.ctx.trace ++ n'.pending := by
  obtain ⟨os, hos⟩ := Call.extends hw hp n.ctx hlegal
  rw [h.pending, h.ctx, hos, List.drop_left]

theorem Offered.congr {n' : VirtualNode} (h : Offered file n)
    (hsent : (session n'.ctx.trace).sent = (session n.ctx.trace).sent)
    (hcounted : n'.sent + n'.uncounted = n.sent + n.uncounted) : Offered file n' := by
  constructor
  · rw [hsent, hcounted]
    exact h.accepted
  · rw [hcounted]
    exact h.le

theorem Serves.free (h : Serves st k r file n) (hpoint : ¬n.point.Holds) (hmain : ¬n.main.Holds) : n.pending = [] := by
  by_contra hpending
  exact (h.locked hpending).elim hpoint hmain

theorem Serves.called (h : Serves st k r file n) (hfree : n.pending = []) {c : Call} {n' : VirtualNode}
    (hcalled : Called c n n') (htrace : n'.ctx.trace = n.ctx.trace ++ n'.pending)
    (hidle : n'.point ≠ .lock → n'.buf = []) (hoffered : Offered file n') (hlocked : n'.point.Holds ∨ n'.main.Holds) :
    Serves st k r file n' := by
  obtain ⟨done, hdone, hk, hstored⟩ := h.stored
  rw [hfree, List.append_nil] at hdone
  exact ⟨hcalled.station.trans h.station, hidle, ⟨done, by rw [htrace, hdone], hk, hcalled.rx.trans hstored⟩,
    hcalled.payload.trans h.payload, hoffered, fun _ => hlocked⟩

theorem Serves.callback (h : Serves st k r file n) {o : Obs} {rest : List Obs} (hpending : n.pending = o :: rest) :
    Serves st k r file { n.callback o with pending := rest } := by
  obtain ⟨hstation, hctx, hpoint, hbuf, hmain, hpayload, hsent⟩ := callback_same n o
  refine ⟨hstation.trans h.station, ?_, h.stored.callback hpending, hpayload.trans h.payload, ?_, fun _ => ?_⟩
  · show (n.callback o).point ≠ .lock → (n.callback o).buf = []
    rw [hpoint, hbuf]
    exact h.idle
  · have hsame : (n.callback o).uncounted = n.uncounted := by
      rw [uncounted, uncounted, chunk, chunk, hmain, hpayload, hsent]
    refine h.offered.congr (congrArg (fun s : Ctx => (session s.trace).sent) hctx) ?_
    show (n.callback o).sent + (n.callback o).uncounted = _
    rw [hsent, hsame]
  · show (n.callback o).point.Holds ∨ (n.callback o).main.Holds
    rw [hpoint, hmain]
    exact h.locked (by simp [hpending])

/-- What `atc_hdlc_transmit_i` accepts is the next chunk of the file. -/
theorem Serves.transmit (h : Serves st k r file n) (hmain : n.main = .lock) : Offered file n.transmit := by
  have hsent := @transmitI_sent n.station n.ctx (.octets n.chunk) (Or.inl rfl)
  have hchunk : n.chunk = (file.drop n.sent).take n.chunk.length := by
    rw [VirtualNode.chunk, h.payload, List.length_take, ← List.take_eq_take_min]
  have hnone : n.uncounted = 0 := by rw [uncounted, hmain]
  obtain ⟨hoffered, hle⟩ := h.offered
  rw [hnone, Nat.add_zero] at hoffered hle
  have hlength : n.sent + n.chunk.length ≤ file.length := by
    have hmin := congrArg List.length hchunk
    rw [List.length_take, List.length_drop] at hmin
    omega
  have hnext : n.transmit.uncounted =
      if (transmitI n.station n.ctx (.octets n.chunk)).1 = .ok then n.chunk.length else 0 := rfl
  constructor
  · show (session (transmitI n.station n.ctx (.octets n.chunk)).2.trace).sent.flatten =
      file.take (n.sent + n.transmit.uncounted)
    rw [hsent, List.flatten_append, hoffered, hnext]
    split_ifs
    · rw [List.take_add, ← hchunk, List.flatten_singleton]
      rfl
    · exact List.append_nil _
  · show n.sent + n.transmit.uncounted ≤ file.length
    rw [hnext]
    split_ifs
    · exact hlength
    · exact hle

/-- The main thread goes on, and neither takes nor holds the lock in the middle of a call. -/
theorem Serves.goesOn (h : Serves st k r file n) (main : MainPoint) (sent : Nat) (hfree : n.main.Holds → n.pending = [])
    (hcounted : sent + uncounted { n with main := main, sent := sent } = n.sent + n.uncounted) :
    Serves st k r file { n with main := main, sent := sent } := by
  refine ⟨h.station, h.idle, h.stored, h.payload, h.offered.congr rfl hcounted, fun hpending => Or.inl ?_⟩
  exact (h.locked hpending).resolve_right fun hholds => hpending (hfree hholds)

/-- The thread goes on between two calls. -/
theorem Serves.moves (h : Serves st k r file n) (hdone : n.pending = []) (hbuf : n.buf = []) (point : ThreadPoint) :
    Serves st k r file { n with point := point } :=
  ⟨h.station, fun _ => hbuf, h.stored, h.payload, h.offered.congr rfl rfl, fun hpending => absurd hdone hpending⟩

end VirtualNode

/-! ### The lines under the pipes -/

/-- What the nodes of a session do, whatever the world. -/
theorem Transfers.orderly {bound : Nat} {w : World} {c : Call} (h : Transfers bound w (.call c)) (e : Reader) :
    Orderly e (.call c) := by
  cases c with
  | transmitI data => exact ⟨h.1, id, fun _ h => Call.noConfusion h, fun _ h => Call.noConfusion h⟩
  | setLocalBusy | t1Expired | t2Expired =>
      exact ⟨trivial, id, fun _ h => Call.noConfusion h, fun _ h => Call.noConfusion h⟩
  | _ => exact h.elim

/-- The parser has just read a flag. -/
def AtFlag (s : Ctx) : Prop := s.rxState = .addr ∧ s.rxIndex = 0 ∧ s.rxCrc = fcsInitValue

instance (s : Ctx) : Decidable (AtFlag s) := inferInstanceAs (Decidable (_ ∧ _ ∧ _))

section Fed

variable {st : Station} {s : Ctx} {read line way : List UInt8}

theorem atFlag_rxByte (s : Ctx) : AtFlag (rxByte st s flag) := by
  have hstep : rxByte st s flag = handleFlag st s := by simp [rxByte]
  rw [hstep]
  simp only [handleFlag]
  split_ifs <;> exact ⟨rfl, rfl, rfl⟩

/-- A second flag changes nothing. -/
theorem AtFlag.rxByte (h : AtFlag s) : AtcHdlc.rxByte st s flag = s := by
  obtain ⟨hstate, hindex, hcrc⟩ := h
  rw [rxByte_flag_empty hindex, rxRestart, ← hstate, ← hcrc, ← hindex]

theorem AtFlag.of_parsing (h : AtFlag s) {s' : Ctx} (hparsing : parsing s' = parsing s) : AtFlag s' :=
  ⟨(congrArg Prod.fst hparsing).trans h.1, (congrArg (·.2.1) hparsing).trans h.2.1,
    (congrArg (·.2.2.1) hparsing).trans h.2.2⟩

/-- The parser does not miss a flag behind a flag. -/
theorem rxBytes_thinned {b : Bool} {l t : List UInt8} (h : octetCode.Thinned b l t) (hb : b = true → AtFlag s) :
    rxBytes st s l = rxBytes st s t ∧ (octetCode.afterFlag b l = true → AtFlag (rxBytes st s t)) := by
  induction h generalizing s with
  | nil b => exact ⟨rfl, hb⟩
  | @keep b x l t h ih =>
      refine ih fun hx => ?_
      rw [show x = flag from of_decide_eq_true hx]
      exact atFlag_rxByte s
  | @drop l t h ih =>
      obtain ⟨hsame, hflag⟩ := ih fun _ => hb rfl
      refine ⟨?_, hflag⟩
      show rxBytes st (AtcHdlc.rxByte st s flag) l = _
      rw [(hb rfl).rxByte, hsame]

/-- Of a line a reader has read `read`, and the rest is on its way but for some flags that it does not need. -/
def Fed (s : Ctx) (read line way : List UInt8) : Prop :=
  ∃ (b : Bool) (ahead : List UInt8), line = read ++ ahead ∧ octetCode.Thinned b ahead way ∧
    (b = true → AtFlag s) ∧ octetCode.afterFlag b ahead = true

theorem Fed.of_parsing (h : Fed s read line way) {s' : Ctx} (hparsing : parsing s' = parsing s) :
    Fed s' read line way := by
  obtain ⟨b, ahead, hline, hthinned, hb, hlast⟩ := h
  exact ⟨b, ahead, hline, hthinned, fun hflag => (hb hflag).of_parsing hparsing, hlast⟩

/-- Frames are added at the end, and the opening flag of the first may be taken. -/
theorem Fed.frames (h : Fed s read line way) (crc : CrcOps) (fs : List Frame) (drop : Bool) :
    Fed s read (line ++ fs.flatMap (Frame.octets crc)) (way ++ spared drop (fs.flatMap (Frame.octets crc))) := by
  obtain ⟨b, ahead, hline, hthinned, hb, hlast⟩ := h
  refine ⟨b, ahead ++ fs.flatMap (Frame.octets crc), ?_, hthinned.append ?_, hb, ?_⟩
  · rw [hline, List.append_assoc]
  · rw [hlast]
    cases drop with
    | false => exact .refl true _
    | true =>
        cases fs with
        | nil => exact .nil true
        | cons f fs => exact .drop (.refl true _)
  · rw [octetCode.afterFlag_append, hlast]
    rcases List.eq_nil_or_concat fs with rfl | ⟨gs, g, rfl⟩
    · rfl
    · have hg : g.octets crc = flag :: octetCode.stuff (g.content crc) ++ [flag] := rfl
      rw [List.concat_eq_append, List.flatMap_append, List.flatMap_singleton, hg, ← List.append_assoc]
      exact octetCode.afterFlag_concat true _

/-- What arrives is what the line has brought. -/
theorem Fed.chunk {buf rest : List UInt8} (h : Fed s read line (buf ++ rest)) :
    ∃ chunk ahead, line = read ++ (chunk ++ ahead) ∧ dataIn st s chunk = dataIn st s buf ∧
      Fed (dataIn st s buf) (read ++ chunk) line rest := by
  obtain ⟨b, ahead, hline, hthinned, hb, hlast⟩ := h
  obtain ⟨chunk, ahead', rfl, hfirst, hsecond⟩ := hthinned.split
  obtain ⟨hsame, hflag⟩ := @rxBytes_thinned st s b chunk buf hfirst hb
  refine ⟨chunk, ahead', hline, ?_, octetCode.afterFlag b chunk, ahead', ?_, hsecond, fun hafter => ?_, ?_⟩
  · rw [dataIn, dataIn, hsame]
  · rw [hline, List.append_assoc]
  · exact (hflag hafter).of_parsing (parsing_retransmitIfPending _)
  · rw [octetCode.afterFlag_append] at hlast
    exact hlast

end Fed

namespace VirtualPair

/-- What is on its way to the near node: behind `pipe_read`, in the pipe, and in the callbacks that are due. -/
def onWay (d : VirtualPair) : List UInt8 := d.near.buf ++ (d.far.txPipe.contents ++ d.far.due)

/-- The two nodes on lines of octets. -/
def duplex (d : VirtualPair) (read read' : Nat) : Duplex :=
  ⟨⟨d.near.station, d.near.ctx, read⟩, ⟨d.far.station, d.far.ctx, read'⟩⟩

/-- The pipes are lines of octets, over which the nodes have a session. -/
structure Piped (w₀ : World) (d : VirtualPair) (w : World) (read read' : List UInt8) : Prop where
  matched : Matched w
  inSession : ∃ n, InSession sessionRules 65535 w₀ w n
  nearApart : ∀ tw ∈ d.near.station.txWindow, SlotsApart tw tw.slotCapacity
  farApart : ∀ tw ∈ d.far.station.txWindow, SlotsApart tw tw.slotCapacity
  refines : Refines (d.duplex read.length read'.length) w
  nearLine : Fed d.near.ctx read (sentOctets d.far.ctx.trace) d.onWay
  farLine : Fed d.far.ctx read' (sentOctets d.near.ctx.trace) d.swap.onWay

variable {w₀ w : World} {d : VirtualPair} {read read' : List UInt8}

theorem Piped.swap (h : Piped w₀ d w read read') : Piped w₀.swap d.swap w.swap read' read := by
  obtain ⟨n, hn⟩ := h.inSession
  exact ⟨h.matched.swap, ⟨n.swap, hn.swap⟩, h.farApart, h.nearApart, h.refines.swap, h.farLine, h.nearLine⟩

/-- Octets move on, and the contexts stay. -/
theorem Piped.moves (h : Piped w₀ d w read read') {d' : VirtualPair} (hnear : d'.near.station = d.near.station)
    (hfar : d'.far.station = d.far.station) (hnearCtx : d'.near.ctx = d.near.ctx) (hfarCtx : d'.far.ctx = d.far.ctx)
    (hway : d'.onWay = d.onWay) (hway' : d'.swap.onWay = d.swap.onWay) : Piped w₀ d' w read read' := by
  refine ⟨h.matched, h.inSession, ?_, ?_, ?_, ?_, ?_⟩
  · rw [hnear]
    exact h.nearApart
  · rw [hfar]
    exact h.farApart
  · rw [duplex, hnear, hfar, hnearCtx, hfarCtx]
    exact h.refines
  · rw [hnearCtx, hfarCtx, hway]
    exact h.nearLine
  · rw [hnearCtx, hfarCtx, hway']
    exact h.farLine

theorem Piped.passive (h : Piped w₀ d w read read') : d.near.station.platform.Passive := by
  have hpassive := h.matched.nearPassive
  rw [h.refines.near.station] at hpassive
  exact hpassive

/-- What a call puts on the line is due to be written into the pipe. -/
theorem Piped.written (h : Piped w₀ d w read read') (hfree : d.near.pending = []) {c : Call} (hlegal : c.Legal)
    (hstreams : ¬c.Streams) {n : VirtualNode} (hcalled : d.near.Called c n)
    (htrace : n.ctx.trace = d.near.ctx.trace ++ n.pending) :
    Fed d.far.ctx read' (sentOctets n.ctx.trace) (d.far.buf ++ (n.txPipe.contents ++ n.due)) := by
  obtain ⟨fs, -, hoctets⟩ := (Call.utters h.passive d.near.ctx hlegal hstreams).frames
  rw [← hcalled.ctx] at hoctets
  have hsent : sentOctets n.pending = fs.flatMap (Frame.octets d.near.station.crc) := by
    rw [htrace, sentOctets_append] at hoctets
    exact List.append_cancel_left hoctets
  have hline : Fed d.far.ctx read' (sentOctets d.near.ctx.trace)
      (d.far.buf ++ (d.near.txPipe.contents ++ d.near.due)) := h.farLine
  rw [d.near.due_of_free hfree, List.append_nil] at hline
  rw [hoctets, hcalled.txPipe, ← List.append_assoc, VirtualNode.due, hsent]
  exact hline.frames _ fs _

/-- What a node does in a session it does at both levels. -/
theorem Piped.call (h : Piped w₀ d w read read') (hfree : d.near.pending = []) {c : Call}
    (hc : Transfers 65535 w (.call c)) {n : VirtualNode} (hcalled : d.near.Called c n)
    (htrace : n.ctx.trace = d.near.ctx.trace ++ n.pending) (hbuf : n.buf = d.near.buf) :
    Piped w₀ ⟨n, d.far⟩ (w.step (.call c)) read read' := by
  obtain ⟨x, hx⟩ := h.inSession
  have hapart : ∀ tw ∈ w.near.station.txWindow, SlotsApart tw tw.slotCapacity := by
    rw [h.refines.near.station]
    exact h.nearApart
  have hprotects := hx.protects h.matched hapart (.call c)
  have horderly := hc.orderly (d.duplex read.length read'.length).active
  have hrefines := h.refines.call h.passive horderly
  obtain ⟨hlegal, hstreams, hin, -⟩ := horderly
  have habort : c ≠ .abort := by
    rintro rfl
    exact hstreams trivial
  refine ⟨h.matched.step _, hx.step h.matched hc hprotects, ?_, h.farApart, ?_, ?_,
    h.written hfree hlegal hstreams hcalled htrace⟩
  · show ∀ tw ∈ n.station.txWindow, _
    rw [hcalled.station]
    exact h.nearApart
  · show Refines ⟨⟨n.station, n.ctx, read.length⟩, _⟩ _
    rw [hcalled.station, hcalled.ctx]
    exact hrefines
  · show Fed n.ctx read (sentOctets d.far.ctx.trace) (n.buf ++ (d.far.txPipe.contents ++ d.far.due))
    rw [hbuf, hcalled.ctx]
    exact h.nearLine.of_parsing (Call.parsing h.passive d.near.ctx hlegal hin habort)

/-- What a thread has read is what arrives, and the session accepts nothing by it. -/
theorem Piped.data (h : Piped w₀ d w read read') (hfree : d.near.pending = []) {n : VirtualNode}
    (hcalled : d.near.Called (.dataIn d.near.buf) n) (htrace : n.ctx.trace = d.near.ctx.trace ++ n.pending)
    (hbuf : n.buf = []) :
    (∃ w' chunk, Piped w₀ ⟨n, d.far⟩ w' (read ++ chunk) read') ∧
      (session n.ctx.trace).sent = (session d.near.ctx.trace).sent := by
  obtain ⟨x, hx⟩ := h.inSession
  obtain ⟨chunk, ahead, hline, hsame, hfed⟩ := @Fed.chunk d.near.station _ _ _ _ _ h.nearLine
  obtain ⟨k, hk⟩ := h.refines.chunk h.passive chunk.length
  have htaken : ((sentOctets d.far.ctx.trace).drop read.length).take chunk.length = chunk := by
    rw [hline, List.drop_left]
    exact List.take_left
  have hturn : (d.duplex read.length read'.length).turnActive (.read chunk.length) =
      duplex ⟨n, d.far⟩ (read ++ chunk).length read'.length := by
    show (⟨⟨d.near.station, dataIn d.near.station d.near.ctx (((sentOctets d.far.ctx.trace).drop read.length).take
      chunk.length), read.length + (((sentOctets d.far.ctx.trace).drop read.length).take chunk.length).length⟩, _⟩ :
      Duplex) = _
    have hctx : n.ctx = dataIn d.near.station d.near.ctx d.near.buf := hcalled.ctx
    rw [htaken, hsame, ← hctx, ← hcalled.station, ← List.length_append]
    rfl
  rw [hturn] at hk
  refine ⟨⟨w.step (.deliver k), chunk, h.matched.step _, hx.deliver h.matched k, ?_, h.farApart, hk, ?_,
    h.written (c := .dataIn d.near.buf) hfree trivial id hcalled htrace⟩, ?_⟩
  · show ∀ tw ∈ n.station.txWindow, _
    rw [hcalled.station]
    exact h.nearApart
  · show Fed n.ctx (read ++ chunk) (sentOctets d.far.ctx.trace) (n.buf ++ (d.far.txPipe.contents ++ d.far.due))
    rw [hbuf, hcalled.ctx]
    exact hfed
  · have hafter : n.ctx.trace = (w.step (.deliver k)).near.ctx.trace := trace_of_same hk.near.same
    have hbefore : d.near.ctx.trace = w.near.ctx.trace := trace_of_same h.refines.near.same
    rw [hafter, hbefore]
    exact hx.deliver_sent h.matched k

/-- Two nodes in a session, each of which stores what it is given and offers its file. -/
structure Meets (w₀ : World) (st st' : Station) (r r' : RxData) (file file' : List UInt8) (d : VirtualPair) : Prop where
  piped : ∃ w read read', Piped w₀ d w read read'
  near : d.near.Serves st (payloads w₀.near.ctx.trace).length r file
  far : d.far.Serves st' (payloads w₀.far.ctx.trace).length r' file'

section Runs

variable {st st' : Station} {r r' : RxData} {file file' : List UInt8} {d' : VirtualPair}

theorem Meets.swap (h : Meets w₀ st st' r r' file file' d) : Meets w₀.swap st' st r' r file' file d.swap := by
  obtain ⟨w, read, read', hpiped⟩ := h.piped
  exact ⟨⟨w.swap, read', read, hpiped.swap⟩, h.far, h.near⟩

/-- A step that leaves the contexts as they are. -/
theorem Meets.moves (h : Meets w₀ st st' r r' file file' d) {n n' : VirtualNode} (hnear : n.ctx = d.near.ctx)
    (hfar : n'.ctx = d.far.ctx) (hway : onWay ⟨n, n'⟩ = d.onWay) (hway' : onWay ⟨n', n⟩ = d.swap.onWay)
    (hserves : n.Serves st (payloads w₀.near.ctx.trace).length r file)
    (hserves' : n'.Serves st' (payloads w₀.far.ctx.trace).length r' file') :
    Meets w₀ st st' r r' file file' ⟨n, n'⟩ := by
  obtain ⟨w, read, read', hpiped⟩ := h.piped
  exact ⟨⟨w, read, read', hpiped.moves (hserves.station.trans h.near.station.symm)
    (hserves'.station.trans h.far.station.symm) hnear hfar hway hway'⟩, hserves, hserves'⟩

/-- A call of the session that accepts nothing. -/
theorem Meets.call (h : Meets w₀ st st' r r' file file' d) (hw : ∀ t : Timer, t.Wired st.platform)
    (hfree : d.near.pending = []) {c : Call}
    (hc : ∀ w : World, w.near.station = d.near.station → unparsed d.near.ctx = unparsed w.near.ctx →
      Transfers 65535 w (.call c)) (hlegal : c.Legal)
    {n : VirtualNode} (hcalled : d.near.Called c n) (hbuf : n.buf = d.near.buf) (hidle : n.point ≠ .lock → n.buf = [])
    (hoffered : n.Offered file) (hlocked : n.point.Holds ∨ n.main.Holds) :
    Meets w₀ st st' r r' file file' ⟨n, d.far⟩ := by
  obtain ⟨w, read, read', hpiped⟩ := h.piped
  have hwired : ∀ t : Timer, t.Wired d.near.station.platform := by
    rw [h.near.station]
    exact hw
  have htrace := hcalled.trace hwired hpiped.passive hlegal
  have hmove := hc w hpiped.refines.near.station hpiped.refines.near.same
  exact ⟨⟨_, _, _, hpiped.call hfree hmove hcalled htrace hbuf⟩,
    h.near.called hfree hcalled htrace hidle hoffered hlocked, h.far⟩

/-- Whatever happens at a node, the pipes stay lines, and both nodes go on storing and offering. -/
theorem Near.meets (h : Meets w₀ st st' r r' file file' d) (hw : ∀ t : Timer, t.Wired st.platform)
    (hnear : Near d d') : Meets w₀ st st' r r' file file' d' := by
  cases hnear with
  | callback o rest hpending hroom =>
      refine h.moves (VirtualNode.callback_same _ o).2.1 rfl ?_ ?_ (h.near.callback hpending) h.far
      · show (d.near.callback o).buf ++ _ = _
        rw [(VirtualNode.callback_same _ o).2.2.2.1]
        rfl
      · exact congrArg (d.far.buf ++ ·) (d.near.callback_due hpending hroom)
  | read hpoint =>
      have hidle : d.near.buf = [] := h.near.idle (by simp [hpoint])
      obtain ⟨hdata, hrest⟩ := pipeRead_contents d.far.txPipe 1024
      refine h.moves rfl rfl ?_ rfl ⟨h.near.station, fun hlock => absurd rfl hlock, h.near.stored, h.near.payload,
        h.near.offered.congr rfl rfl, fun hpending => ?_⟩ ⟨h.far.station, h.far.idle, h.far.stored, h.far.payload,
        h.far.offered.congr rfl rfl, h.far.locked⟩
      · show (pipeRead d.far.txPipe 1024).2 ++ ((pipeRead d.far.txPipe 1024).1.contents ++ d.far.due) =
          d.near.buf ++ (d.far.txPipe.contents ++ d.far.due)
        rw [hidle, hdata, hrest, ← List.append_assoc, List.take_append_drop]
        rfl
      · exact Or.inr ((h.near.locked hpending).resolve_left fun hholds => hholds.1 hpoint)
  | data hpoint hlock hbuf =>
      obtain ⟨w, read, read', hpiped⟩ := h.piped
      have hwired : ∀ t : Timer, t.Wired d.near.station.platform := by
        rw [h.near.station]
        exact hw
      have hfree := h.near.free (fun hholds => hholds.2 hpoint) hlock
      have hcalled : d.near.Called (.dataIn d.near.buf)
          { d.near.call (.dataIn d.near.buf) with buf := [], point := .afterData } := ⟨rfl, rfl, rfl, rfl, rfl, rfl⟩
      have htrace := hcalled.trace hwired hpiped.passive trivial
      obtain ⟨⟨w', chunk, hpiped'⟩, hsent⟩ := hpiped.data hfree hcalled htrace rfl
      exact ⟨⟨w', _, _, hpiped'⟩, h.near.called hfree hcalled htrace (fun _ => rfl)
        (h.near.offered.congr hsent rfl) (Or.inl ⟨nofun, nofun⟩), h.far⟩
  | noData hpoint hlock hbuf =>
      have hfree := h.near.free (fun hholds => hholds.2 hpoint) hlock
      exact h.moves rfl rfl rfl rfl (h.near.moves hfree hbuf .afterT2) h.far
  | noT2 hpoint hdone | noT1 hpoint hdone | unlock hpoint hdone =>
      have hidle : d.near.buf = [] := h.near.idle (by simp [hpoint])
      exact h.moves rfl rfl rfl rfl (h.near.moves hdone hidle _) h.far
  | t2 hpoint hdone hpending =>
      have hidle : d.near.buf = [] := h.near.idle (by simp [hpoint])
      exact h.call hw hdone (c := .t2Expired) (fun _ _ _ => trivial) trivial ⟨rfl, rfl, rfl, rfl, rfl, rfl⟩ rfl
        (fun _ => hidle) (h.near.offered.congr (t2Expired_sent _) rfl) (Or.inl ⟨nofun, nofun⟩)
  | t1 hpoint hdone hpending hbudget =>
      have hidle : d.near.buf = [] := h.near.idle (by simp [hpoint])
      refine h.call hw hdone (c := .t1Expired) (fun w hstation hsame => ?_) trivial ⟨rfl, rfl, rfl, rfl, rfl, rfl⟩ rfl
        (fun _ => hidle) (h.near.offered.congr (t1Expired_sent hbudget) rfl) (Or.inl ⟨nofun, nofun⟩)
      show ¬Exhausted w.near.station (counted w.near.ctx)
      rw [hstation]
      exact (congrArg (fun u => ¬Exhausted d.near.station (counted u)) hsame).mp hbudget
  | turn hmain hmore hconnected =>
      refine h.moves rfl rfl rfl rfl (h.near.goesOn .lock d.near.sent ?_ ?_) h.far
      · rw [hmain]
        exact False.elim
      · rw [VirtualNode.uncounted, VirtualNode.uncounted, hmain]
  | transmit hmain hlock =>
      have hfree := h.near.free hlock (by rw [hmain]; exact id)
      have hlength : d.near.chunk.length ≤ chunkSize := by
        rw [VirtualNode.chunk, List.length_take]
        exact Nat.min_le_left _ _
      exact h.call hw hfree (c := .transmitI (.octets d.near.chunk))
        (fun _ _ _ => ⟨Or.inl rfl, Nat.le_trans hlength (by decide)⟩) (Or.inl rfl) ⟨rfl, rfl, rfl, rfl, rfl, rfl⟩ rfl
        h.near.idle (h.near.transmit hmain) (Or.inr trivial)
  | release sendResult hmain hdone =>
      refine h.moves rfl rfl rfl rfl (h.near.goesOn (.unlocked sendResult) d.near.sent (fun _ => hdone) ?_) h.far
      rw [VirtualNode.uncounted, VirtualNode.uncounted, hmain]
      rfl
  | count sendResult hmain =>
      refine h.moves rfl rfl rfl rfl (h.near.goesOn .head
        (if sendResult = .ok then d.near.sent + d.near.chunk.length else d.near.sent) ?_ ?_) h.far
      · rw [hmain]
        exact False.elim
      · rw [VirtualNode.uncounted, VirtualNode.uncounted, hmain]
        show (if sendResult = .ok then _ else _) + 0 = d.near.sent + if sendResult = .ok then _ else _
        split_ifs <;> rfl
  | inject hcalls =>
      have hdue : VirtualNode.due { d.near with dropNextIFrame := true } = d.near.due :=
        (VirtualNode.due_of_free { d.near with dropNextIFrame := true } hcalls).trans (d.near.due_of_free hcalls).symm
      exact h.moves rfl rfl rfl (congrArg (fun l => d.far.buf ++ (d.near.txPipe.contents ++ l)) hdue)
        ⟨h.near.station, h.near.idle, h.near.stored, h.near.payload, h.near.offered.congr rfl rfl, h.near.locked⟩ h.far

theorem Step.meets (h : Meets w₀ st st' r r' file file' d) (hw : ∀ t : Timer, t.Wired st.platform)
    (hw' : ∀ t : Timer, t.Wired st'.platform) (hstep : Step d d') : Meets w₀ st st' r r' file file' d' := by
  cases hstep with
  | near hnear => exact hnear.meets h hw
  | far hfar => exact (hfar.meets h.swap hw').swap

theorem Runs.meets {d₀ : VirtualPair} (h : Meets w₀ st st' r r' file file' d₀) (hw : ∀ t : Timer, t.Wired st.platform)
    (hw' : ∀ t : Timer, t.Wired st'.platform) (hruns : Runs d₀ d) : Meets w₀ st st' r r' file file' d := by
  induction hruns with
  | refl => exact h
  | tail _ hstep ih => exact hstep.meets ih hw hw'

/-- The far node has stored the beginning of the file, no more than the near one has sent, counted or not, and all of
that when every frame is acknowledged and no callback is due. -/
structure Transferred (d : VirtualPair) (file : List UInt8) : Prop where
  received_le : d.far.rx.bytesReceived ≤ d.near.sent + d.near.uncounted
  sent_le : d.near.sent + d.near.uncounted ≤ file.length
  same : ∀ data, d.far.rx.data = some data → ∀ i < d.far.rx.bytesReceived, data i = file.getD i 0
  all : outstanding d.near.ctx = 0 → d.far.pending = [] → d.far.rx.bytesReceived = d.near.sent + d.near.uncounted

theorem Meets.transferred (h : Meets w₀ st st' r r' file file' d) (hempty : r'.bytesReceived = 0)
    (hcapacity : r'.data.isSome = true → r'.capacity = file.length) (hsize : file.length < 2 ^ 32) :
    d.Transferred file := by
  obtain ⟨w, read, read', hpiped⟩ := h.piped
  obtain ⟨n, hn⟩ := hpiped.inSession
  obtain ⟨done, htrace, -, hstored⟩ := h.far.stored
  have hnear : d.near.ctx.trace = w.near.ctx.trace := trace_of_same hpiped.refines.near.same
  have hfar : d.far.ctx.trace = w.far.ctx.trace := trace_of_same hpiped.refines.far.same
  have hgiven : (payloads done).drop (payloads w₀.far.ctx.trace).length <+: givenSince w₀.far.ctx w.far.ctx := by
    rw [givenSince, ← hfar, htrace, payloads_append]
    exact (List.prefix_append _ _).drop _
  have hsent : ((payloads done).drop (payloads w₀.far.ctx.trace).length).flatten <+:
      file.take (d.near.sent + d.near.uncounted) := by
    rw [← h.near.offered.accepted, hnear]
    exact (hgiven.trans hn.delivers.inOrder).flatten
  have hwhole : file.take (d.near.sent + d.near.uncounted) <+: file := List.take_prefix _ _
  obtain ⟨hreceived, -, hdata⟩ := store_prefix hempty hcapacity hsize (hsent.trans hwhole)
  have htake : (file.take (d.near.sent + d.near.uncounted)).length = d.near.sent + d.near.uncounted := by
    rw [List.length_take, Nat.min_eq_left h.near.offered.le]
  constructor
  · rw [hstored, hreceived, ← htake]
    exact hsent.length_le
  · exact h.near.offered.le
  · rw [hstored, hreceived]
    exact hdata
  · intro hopen hfree
    rw [hfree, List.append_nil] at htrace
    have hacked := hn.delivers.acknowledged
    have hopen' : outstanding w.near.ctx = 0 := (congrArg outstanding hpiped.refines.near.same).symm.trans hopen
    rw [hopen', Nat.sub_zero] at hacked
    have hall := hn.delivers.inOrder.eq_of_length_le hacked
    rw [hstored, hreceived, ← htrace, hfar]
    show (givenSince w₀.far.ctx w.far.ctx).flatten.length = _
    rw [hall, ← hnear, h.near.offered.accepted, htake]

end Runs

end VirtualPair

/-- What `node_pair_init` hands to `atc_hdlc_init`. -/
def virtualStation (address : UInt8) (windowSize : Nat) (hpos : 0 < windowSize) (hle : windowSize ≤ 7) :
    Station where
  config := ⟨modeAbm, address, chunkSize, 25, 20, 10⟩
  platform := mockPlatform
  crc := crcOpsDefault
  txWindow := some ⟨chunkSize, windowSize, hpos, hle⟩
  rxCapacity := 512
  mode_abm := rfl
  rxCapacity_min := by simp [chunkSize]
  rxCapacity_frame := by decide
  slotCapacity_min := by simp

namespace VirtualPair

section Transfer

variable {d d₀ : VirtualPair} {windowSize : Nat} {hpos : 0 < windowSize} {hle : windowSize ≤ 7}

/-- `node_pair_init`, which writes the address of the peer itself, and the calls that have followed. -/
def calledFrom (st : Station) (mem : Memory) (peerAddress : UInt8) (calls : List Call) : Ctx :=
  calls.foldl (Call.run st) { initCtx st mem with peerAddress := peerAddress }

/-- Two nodes that have just connected. -/
structure Connected (d : VirtualPair) : Prop where
  established : Established (d.duplex 0 0).world
  nearCalls : ∃ mem peer calls, (∀ c ∈ calls, c.Legal) ∧ d.near.ctx = calledFrom d.near.station mem peer calls
  farCalls : ∃ mem peer calls, (∀ c ∈ calls, c.Legal) ∧ d.far.ctx = calledFrom d.far.station mem peer calls
  nearFlag : AtFlag d.near.ctx
  farFlag : AtFlag d.far.ctx
  nearIdle : d.near.buf = [] ∧ d.near.pending = [] ∧ d.near.txPipe.contents = []
  farIdle : d.far.buf = [] ∧ d.far.pending = [] ∧ d.far.txPipe.contents = []
  nearMain : d.near.main = .head ∧ d.near.sent = 0
  farMain : d.far.main = .head ∧ d.far.sent = 0

theorem calledFrom_windowInv {st : Station} {tw : TxWindow} (htw : st.txWindow = some tw) (hp : st.platform.Passive)
    (mem : Memory) (peer : UInt8) {calls : List Call} (hlegal : ∀ c ∈ calls, c.Legal) :
    WindowInv tw (calledFrom st mem peer calls) := by
  refine List.foldlRecOn calls (Call.run st) ?_ fun s hs c hc => hs.call htw hp c (hlegal c hc)
  exact (WindowInv.init st mem).quiet (.of_trace rfl rfl rfl rfl rfl rfl rfl)

theorem virtualStation_apart (address : UInt8) :
    ∀ tw ∈ (virtualStation address windowSize hpos hle).txWindow, SlotsApart tw tw.slotCapacity := by
  rintro tw ⟨⟩
  refine .of_lt ?_
  show windowSize * 150 < 2 ^ 32
  omega

theorem virtualStation_wired (address : UInt8) (t : Timer) :
    t.Wired (virtualStation address windowSize hpos hle).platform := by
  cases t <;> exact ⟨rfl, rfl⟩

/-- A node that has just connected is at the beginning of a session. -/
theorem stands_connected {e : Endpoint} {address peer : UInt8}
    (hstation : e.station = virtualStation address windowSize hpos hle) (hfresh : Fresh e)
    (hlinked : Linked e.station.config.address peer e)
    (hcalls : ∃ mem peer calls, (∀ c ∈ calls, Call.Legal c) ∧ e.ctx = calledFrom e.station mem peer calls) :
    Stands peer 65535 e ⟨.up, (windowOf e.station).slotCount, [], 0, [], 0, 0, 0, []⟩ := by
  obtain ⟨mem, peerAddress, calls, hlegal, hctx⟩ := hcalls
  have hwindow : e.station.txWindow = some ⟨chunkSize, windowSize, hpos, hle⟩ := congrArg Station.txWindow hstation
  have hp : e.station.platform.Passive := by
    rw [hstation]
    exact mockPlatform_passive
  have hinv := calledFrom_windowInv hwindow hp mem peerAddress hlegal
  rw [← hctx, ← windowOf_eq hwindow] at hinv
  exact hfresh.stands_of_windowInv hlinked (.of_some hwindow _) hinv hfresh.flags.2.2.2

theorem serves_connected {n : VirtualNode} (hbuf : n.buf = []) (hpending : n.pending = [])
    (hmain : n.main = .head ∧ n.sent = 0) (hsession : (session n.ctx.trace).sent = []) :
    n.Serves n.station (payloads n.ctx.trace).length n.rx n.payload := by
  have hnothing : n.sent + n.uncounted = 0 := by
    rw [VirtualNode.uncounted, hmain.1, hmain.2]
    rfl
  refine ⟨rfl, fun _ => hbuf, ⟨n.ctx.trace, ?_, Nat.le_refl _, ?_⟩, rfl, ⟨?_, ?_⟩, fun h => absurd hpending h⟩
  · rw [hpending, List.append_nil]
  · rw [List.drop_length]
    rfl
  · rw [hsession, hnothing]
    rfl
  · rw [hnothing]
    exact Nat.zero_le _

theorem Connected.meets (h : Connected d) (hnear : d.near.station = virtualStation 0x01 windowSize hpos hle)
    (hfar : d.far.station = virtualStation 0x02 windowSize hpos hle) :
    Meets (d.duplex 0 0).world d.near.station d.far.station d.near.rx d.far.rx d.near.payload d.far.payload d := by
  obtain ⟨hbuf, hpending, hpipe⟩ := h.nearIdle
  obtain ⟨hbuf', hpending', hpipe'⟩ := h.farIdle
  have hopen := h.established
  have hstation {n : VirtualNode} {address : UInt8} (hn : n.station = virtualStation address windowSize hpos hle) :
      n.station.crc = crcOpsDefault ∧ n.station.platform = mockPlatform ∧ n.station.txWindow.isSome = true := by
    rw [hn]
    exact ⟨rfl, rfl, rfl⟩
  obtain ⟨hcrc, hplatform, hwindow⟩ := hstation hnear
  obtain ⟨hcrc', hplatform', hwindow'⟩ := hstation hfar
  have hdata {p : Platform} (hp : p = mockPlatform) : p.onData.isSome = true := by
    rw [hp]
    rfl
  have hmatched : Matched (d.duplex 0 0).world := ⟨hcrc.trans hcrc'.symm, hopen.nearPassive, hopen.farPassive,
    hdata hplatform, hdata hplatform', hwindow, hwindow'⟩
  have hsession := hopen.inSession (stands_connected hnear hopen.nearFresh hopen.near h.nearCalls)
    (stands_connected hfar hopen.farFresh hopen.far h.farCalls)
  have hfed {s : Ctx} (hs : AtFlag s) {line : List UInt8} : Fed s line line [] :=
    ⟨true, [], (List.append_nil _).symm, .nil true, fun _ => hs, rfl⟩
  refine ⟨⟨(d.duplex 0 0).world, sentOctets d.far.ctx.trace, sentOctets d.near.ctx.trace, hmatched, hsession, ?_, ?_,
    ?_, ?_, ?_⟩, serves_connected hbuf hpending h.nearMain hopen.nearFresh.session.1,
    serves_connected hbuf' hpending' h.farMain hopen.farFresh.session.1⟩
  · rw [hnear]
    exact virtualStation_apart 0x01
  · rw [hfar]
    exact virtualStation_apart 0x02
  · exact refines_atEnd (d := d.duplex (sentOctets d.far.ctx.trace).length (sentOctets d.near.ctx.trace).length)
      ⟨rfl, hopen.near.index⟩ ⟨rfl, hopen.far.index⟩
  · rw [onWay, hbuf, hpipe', d.far.due_of_free hpending']
    exact hfed h.nearFlag
  · show Fed _ _ _ (d.far.buf ++ (d.near.txPipe.contents ++ d.near.due))
    rw [hbuf', hpipe, d.near.due_of_free hpending]
    exact hfed h.farFlag

/-- However the threads of the two nodes, the callbacks and the main thread take turns, and whatever the octets that
one `pipe_read` finds, the file arrives from its beginning on and unchanged. -/
theorem file_transferred (hstart : Connected d₀) (hnear : d₀.near.station = virtualStation 0x01 windowSize hpos hle)
    (hfar : d₀.far.station = virtualStation 0x02 windowSize hpos hle) (hempty : d₀.far.rx.bytesReceived = 0)
    (hcapacity : d₀.far.rx.data.isSome = true → d₀.far.rx.capacity = d₀.near.payload.length)
    (hsize : d₀.near.payload.length < 2 ^ 32) (hruns : Runs d₀ d) : d.Transferred d₀.near.payload := by
  have hwired : ∀ t : Timer, t.Wired d₀.near.station.platform := by
    rw [hnear]
    exact virtualStation_wired 0x01
  have hwired' : ∀ t : Timer, t.Wired d₀.far.station.platform := by
    rw [hfar]
    exact virtualStation_wired 0x02
  exact (hruns.meets (hstart.meets hnear hfar) hwired hwired').transferred hempty hcapacity hsize

/-- The callbacks of a call, one after the other. -/
def finish (n : VirtualNode) : List Obs → VirtualNode
  | [] => n
  | o :: rest => finish { n.callback o with pending := rest } rest

theorem Runs.finish {n n' : VirtualNode} {pending : List Obs} (hpending : n.pending = pending)
    (hroom : n.txPipe.contents.length + pending.length < pipeCapacity) : Runs ⟨n, n'⟩ ⟨finish n pending, n'⟩ := by
  induction pending generalizing n with
  | nil => exact .refl
  | cons o rest ih =>
      rw [List.length_cons] at hroom
      have hnotFull : ¬n.txPipe.Full := by
        rw [n.txPipe.full_iff, ← n.txPipe.length_contents]
        omega
      refine .head (.near (.callback o rest hpending fun _ _ _ => hnotFull)) (ih rfl ?_)
      have hone := n.callback_length o
      show (n.callback o).txPipe.contents.length + rest.length < pipeCapacity
      omega

theorem Runs.swap (h : Runs d₀ d) : Runs d₀.swap d.swap := by
  refine Relation.ReflTransGen.lift VirtualPair.swap (fun _ _ hab => ?_) _ _ h
  cases hab with
  | near hnear => exact .far hnear
  | far hfar => exact .near hfar

/-- A node of the test with a window of three slots, after some calls. -/
def testNode (address peer : UInt8) (calls : List Call) (rx : RxData) (payload : List UInt8) : VirtualNode where
  station := virtualStation address 3 threeSlots_pos threeSlots_le
  ctx := calledFrom (virtualStation address 3 threeSlots_pos threeSlots_le) zeroMemory peer calls
  txPipe := pipeInit fun _ => 0
  dropNextIFrame := false
  rx := rx
  connected := true
  t1Pending := false
  t2Pending := false
  point := .read
  buf := []
  pending := []
  main := .head
  payload := payload
  sent := 0

/-- The two nodes when `hdlc_test_connect` has returned, with a file of two octets. -/
def connectedPair : VirtualPair :=
  ⟨testNode 0x01 0x02 [.linkSetup 0x02, .dataIn (Frame.octets crcOpsDefault ⟨0x02, uCtrl uUa true, []⟩)] ⟨none, 0, 0⟩
      [0x11, 0x7E],
    testNode 0x02 0x01 [.dataIn (Frame.octets crcOpsDefault ⟨0x02, uCtrl uSabm true, []⟩)] ⟨some fun _ => 0, 2, 0⟩ []⟩

/-- The near node has sent its file, and the fault has taken the opening flag. -/
def offeredPair : VirtualPair :=
  let n := VirtualNode.transmit { connectedPair.near with dropNextIFrame := true, main := .lock }
  ⟨finish n n.pending, connectedPair.far⟩

/-- The thread of the far node has read it. -/
def readingPair : VirtualPair :=
  ⟨{ offeredPair.near with txPipe := (pipeRead offeredPair.near.txPipe 1024).1 },
    { offeredPair.far with buf := (pipeRead offeredPair.near.txPipe 1024).2, point := .lock }⟩

def givenNode : VirtualNode :=
  { readingPair.far.call (.dataIn readingPair.far.buf) with buf := [], point := .afterData }

def receivedPair : VirtualPair := ⟨readingPair.near, finish givenNode givenNode.pending⟩

theorem connectedPair_connected : connectedPair.Connected := by
  refine ⟨⟨⟨?_, ?_, by decide, mockPlatform_passive, mockPlatform_passive⟩, ?_, ?_⟩, ⟨_, _, _, ?_, rfl⟩,
    ⟨_, _, _, ?_, rfl⟩, by decide +kernel, by decide +kernel, ⟨rfl, rfl, rfl⟩, ⟨rfl, rfl, rfl⟩, ⟨rfl, rfl⟩, ⟨rfl, rfl⟩⟩
  · exact ⟨by decide +kernel, by decide +kernel, by decide +kernel, by simp [Duplex.world]⟩
  · exact ⟨by decide +kernel, by decide +kernel, by decide +kernel, by simp [Duplex.world]⟩
  · exact ⟨by decide +kernel, by decide +kernel, by decide +kernel, by decide +kernel, by decide +kernel,
      by decide +kernel, ⟨rfl, rfl⟩, rfl⟩
  · exact ⟨by decide +kernel, by decide +kernel, by decide +kernel, by decide +kernel, by decide +kernel,
      by decide +kernel, ⟨rfl, rfl⟩, rfl⟩
  · simp [Call.Legal]
  · simp [Call.Legal]

/-- The far node has stored the file before the near one has counted it. -/
theorem file_transferred_small :
    offeredPair.near.txPipe.contents.head? = some 0x02 ∧ receivedPair.near.sent = 0 ∧
      receivedPair.far.rx.bytesReceived = 2 ∧ receivedPair.Transferred [0x11, 0x7E] := by
  have hoffered : Runs connectedPair offeredPair :=
    .head (.near (.inject rfl)) (.head (.near (.turn rfl (by decide) rfl))
      (.head (.near (.transmit rfl fun hholds => hholds.1 rfl)) (Runs.finish rfl (by decide +kernel))))
  have hreading : Step offeredPair readingPair := .far (.read rfl)
  have hgiven : Step readingPair ⟨readingPair.near, givenNode⟩ := .far (.data rfl id (by decide +kernel))
  have hcallbacks : Runs ⟨givenNode, readingPair.near⟩ receivedPair.swap := Runs.finish rfl (by decide +kernel)
  have hreceived : Runs ⟨readingPair.near, givenNode⟩ receivedPair := hcallbacks.swap
  have hruns := ((hoffered.tail hreading).tail hgiven).trans hreceived
  refine ⟨by decide +kernel, by decide +kernel, by decide +kernel, ?_⟩
  exact file_transferred connectedPair_connected rfl rfl rfl (fun _ => rfl) (by decide) hruns

end Transfer

end VirtualPair

end AtcHdlc
