import AtcHdlc.Alarms
import AtcHdlc.Peers
import AtcHdlc.Lib.RingBuffer

/-! The integration template `bare_metal_template.c`: one main loop, and three interrupt handlers that come
between any two of its accesses to shared memory and between any two callbacks of a call. The handlers share a
ring of octets and two flags with the main loop, and nothing else. What the main loop hands to the library is
what the UART has received (`board_receives`), and it calls the expiry of a timer just for the timers that have
run out (`board_timers`), provided that no timer runs out in the middle of its own callback. -/

namespace AtcHdlc

/-- `RX_RING_SIZE`. -/
def rxRingSize : Nat := 128

theorem rxRingSize_pos : 0 < rxRingSize := by decide

/-- A hardware timer, which fires once when it is armed, and the flag that its interrupt sets. -/
structure Alarm where
  armed : Bool
  expired : Bool
  deriving DecidableEq, Repr

/-- The accesses of the main loop to shared memory, between which an interrupt can come; within `rx_drain` what is in
hand tells them apart. -/
inductive Point where
  | setup
  | drain
  | test (t : Timer)
  | clear (t : Timer)
  | expire (t : Timer)
  | transmit
  deriving DecidableEq, Repr

/-- Where the main loop goes after it has looked at a timer. -/
def Timer.past : Timer → Point
  | t1 => .test .t2
  | t2 => .transmit

/-- The memory of the template. `pending` holds the callbacks of the call under way that have not returned;
`cleared` says that the first of them, a timer's, has executed its first statement. -/
structure Board where
  ctx : Ctx
  rx : Traffic rxRingSize UInt8
  alarms : Timer → Alarm
  point : Point
  pending : List Obs
  cleared : Bool

namespace Board

/-- After `atc_hdlc_init`. -/
def initial (st : Station) (mem : Memory) (ring : Nat → UInt8) : Board where
  ctx := initCtx st mem
  rx := ⟨.initial rxRingSize_pos ring, .empty, [], []⟩
  alarms _ := ⟨false, false⟩
  point := .setup
  pending := []
  cleared := false

section Main

variable (st : Station) (peerAddr : UInt8) (payload : List UInt8)

/-- A call of the library, whose callbacks are then made one by one. -/
def call (b : Board) (c : Call) : Board :=
  { b with
    ctx := c.run st b.ctx
    pending := (c.run st b.ctx).trace.drop b.ctx.trace.length
    cleared := false }

/-- The first statement of a timer callback clears the flag; the second arms or disarms the hardware timer. The
other callbacks touch nothing that is shared. -/
def callback (b : Board) (o : Obs) (rest : List Obs) : Board :=
  if b.cleared then
    { b with
      alarms := fun t => { b.alarms t with armed := (t.told o).getD (b.alarms t).armed }
      pending := rest
      cleared := false }
  else
    { b with
      alarms := fun t => { b.alarms t with expired := (b.alarms t).expired && (t.told o).isNone }
      cleared := true }

/-- The statements of `main`, from `atc_hdlc_link_setup` on. -/
def main (b : Board) : Board :=
  match b.point with
  | .setup => { b.call st (.linkSetup peerAddr) with point := .drain }
  | .drain =>
      match b.rx.hand with
      | .empty =>
          if b.rx.ring.Empty then { b with point := .test .t1 } else { b with rx := { b.rx with hand := .found } }
      | .found => { b with rx := { b.rx with hand := .copied b.rx.ring.peek } }
      | .copied x => { b with rx := { b.rx with ring := b.rx.ring.pop, hand := .taken x } }
      | .taken x => { b.call st (.dataIn [x]) with rx := { b.rx with hand := .empty, used := b.rx.used ++ [x] } }
  | .test t => { b with point := if (b.alarms t).expired then .clear t else t.past }
  | .clear t => { b with
      alarms := Function.update b.alarms t { b.alarms t with expired := false }, point := .expire t }
  | .expire t => { b.call st t.expiry with point := t.past }
  | .transmit =>
      if getState b.ctx = .connected then { b.call st (.transmitI (.octets payload)) with point := .drain }
      else { b with point := .drain }

/-- The program goes on: with the callbacks of the call under way, or with the next statement of `main`. -/
def next (b : Board) : Board :=
  match b.pending with
  | o :: rest => b.callback o rest
  | [] => b.main st peerAddr payload

end Main

/-- `t1_timer_isr` and `t2_timer_isr`. -/
def timerIsr (b : Board) (t : Timer) : Board := { b with alarms := Function.update b.alarms t ⟨false, true⟩ }

/-- `uart_rx_isr`. -/
def uartRxIsr (b : Board) (byte : UInt8) : Board := { b with rx := b.rx.write byte }

/-- The program is between the two statements of a callback of the timer. -/
def Torn (b : Board) (t : Timer) : Prop := b.cleared = true ∧ (b.pending.head?.bind t.told).isSome = true

instance (b : Board) (t : Timer) : Decidable (b.Torn t) := inferInstanceAs (Decidable (_ ∧ _))

/-- The program or an interrupt. A timer that is armed runs out at any moment that `K` allows. -/
inductive Step (st : Station) (peerAddr : UInt8) (payload : List UInt8) (K : Board → Timer → Prop) :
    Board → Board → Prop where
  | next (b : Board) : Step st peerAddr payload K b (b.next st peerAddr payload)
  | uart (b : Board) (byte : UInt8) : Step st peerAddr payload K b (b.uartRxIsr byte)
  | timer (b : Board) (t : Timer) (harmed : (b.alarms t).armed = true) (hK : K b t) :
      Step st peerAddr payload K b (b.timerIsr t)

/-- The runs of a board. -/
abbrev Runs (st : Station) (peerAddr : UInt8) (payload : List UInt8) (K : Board → Timer → Prop) :
    Board → Board → Prop :=
  Relation.ReflTransGen (Step st peerAddr payload K)

/-- What every step keeps holds along a run. -/
theorem Runs.induct {st : Station} {peerAddr : UInt8} {payload : List UInt8} {K : Board → Timer → Prop}
    {P : Board → Prop} (hstep : ∀ b b', Step st peerAddr payload K b b' → P b → P b') {b b' : Board}
    (h : Runs st peerAddr payload K b b') (hb : P b) : P b' := by
  induction h with
  | refl => exact hb
  | tail _ hs ih => exact hstep _ _ hs ih

section Runs

variable {st : Station} {peerAddr : UInt8} {payload : List UInt8} {K : Board → Timer → Prop} {b b' : Board}

/-- The program goes on for some steps. -/
theorem Runs.nexts (h : Runs st peerAddr payload K b b') (n : Nat) :
    Runs st peerAddr payload K b ((next st peerAddr payload)^[n] b') := by
  induction n with
  | zero => exact h
  | succ n ih =>
      rw [Function.iterate_succ_apply']
      exact ih.tail (.next _)

/-- The handler takes some octets. -/
theorem Runs.uarts (h : Runs st peerAddr payload K b b') (bytes : List UInt8) :
    Runs st peerAddr payload K b (bytes.foldl uartRxIsr b') := by
  induction bytes generalizing b' with
  | nil => exact h
  | cons byte bytes ih => exact ih (h.tail (.uart b' byte))

end Runs

end Board

/-- The station of the template. -/
def templateStation : Station where
  config := ⟨modeAbm, 0x01, 64, 3, 500, 20⟩
  platform := mockPlatform
  crc := crcOpsDefault
  txWindow := some ⟨64, 1, Nat.one_pos, oneSlot_le⟩
  rxCapacity := 72
  mode_abm := rfl
  rxCapacity_min := by simp
  rxCapacity_frame := by decide
  slotCapacity_min := by simp

theorem templateStation_wired (t : Timer) : t.Wired templateStation.platform := by cases t <;> exact ⟨rfl, rfl⟩

/-- `"sensor_data"`. -/
def sensorData : List UInt8 := [0x73, 0x65, 0x6E, 0x73, 0x6F, 0x72, 0x5F, 0x64, 0x61, 0x74, 0x61]

/-- The template has sent its SABM and T1 is armed. -/
def templateCalling : Board :=
  (Board.next templateStation 0x02 sensorData)^[19] (.initial templateStation zeroMemory fun _ => 0)

/-- The UA is in the ring. -/
def templateAnswered : Board := [0x7E, 0x02, 0x73, 0x14, 0x82, 0x7E].foldl Board.uartRxIsr templateCalling

theorem templateCalling_runs {K : Board → Timer → Prop} : Board.Runs templateStation 0x02 sensorData K
    (.initial templateStation zeroMemory fun _ => 0) templateCalling :=
  Board.Runs.nexts .refl 19

theorem templateAnswered_runs {K : Board → Timer → Prop} : Board.Runs templateStation 0x02 sensorData K
    (.initial templateStation zeroMemory fun _ => 0) templateAnswered :=
  templateCalling_runs.uarts _

/-! ### What the UART receives -/

/-- The octets that a call hands to the parser. -/
def Call.octets : Call → List UInt8
  | .dataIn bytes => bytes
  | _ => []

section Receives

variable {st : Station} {peerAddr : UInt8} {payload : List UInt8} {K : Board → Timer → Prop}

/-- The calls that the board has made, one octet at a time. -/
structure Made (st : Station) (mem : Memory) (b : Board) (calls : List Call) : Prop where
  ctx : b.ctx = calls.foldl (Call.run st) (initCtx st mem)
  legal : ∀ c ∈ calls, c.Legal
  octets : calls.flatMap Call.octets = b.rx.used
  single : ∀ c ∈ calls, c.octets.length ≤ 1

variable {mem : Memory} {b b' : Board} {calls : List Call}

theorem Made.congr (h : Made st mem b calls) (hctx : b'.ctx = b.ctx) (hused : b'.rx.used = b.rx.used) :
    Made st mem b' calls :=
  ⟨hctx.trans h.ctx, h.legal, h.octets.trans hused.symm, h.single⟩

theorem Made.call (h : Made st mem b calls) {c : Call} (hlegal : c.Legal) (hsingle : c.octets.length ≤ 1)
    (hctx : b'.ctx = c.run st b.ctx) (hused : b'.rx.used = b.rx.used ++ c.octets) :
    Made st mem b' (calls ++ [c]) := by
  refine ⟨?_, ?_, ?_, ?_⟩
  · rw [hctx, h.ctx, List.foldl_append]
    rfl
  · exact List.forall_mem_append.mpr ⟨h.legal, List.forall_mem_singleton.mpr hlegal⟩
  · rw [List.flatMap_append, h.octets, hused, List.flatMap_singleton]
  · exact List.forall_mem_append.mpr ⟨h.single, List.forall_mem_singleton.mpr hsingle⟩

theorem Timer.octets_expiry (t : Timer) : t.expiry.octets = [] := by cases t <;> rfl

/-- A step of the program is a step of the reader of the ring, or none. -/
theorem Board.next_reads (st : Station) (peerAddr : UInt8) (payload : List UInt8) (b : Board) :
    Traffic.Read b.rx (b.next st peerAddr payload).rx ∨ (b.next st peerAddr payload).rx = b.rx := by
  unfold next
  cases b.pending with
  | cons o rest =>
      simp only [callback]
      split_ifs <;> exact Or.inr rfl
  | nil =>
      simp only [main]
      cases b.point with
      | drain =>
          cases hhand : b.rx.hand with
          | empty =>
              simp only
              split_ifs with hempty
              · exact Or.inr rfl
              · exact Or.inl (.find b.rx hhand hempty)
          | found => exact Or.inl (.copy b.rx hhand)
          | copied x => exact Or.inl (.advance b.rx x hhand)
          | taken x => exact Or.inl (.use b.rx x hhand)
      | transmit =>
          simp only
          split_ifs <;> exact Or.inr rfl
      | _ => exact Or.inr rfl

theorem Board.next_sound (h : b.rx.Sound) : (b.next st peerAddr payload).rx.Sound := by
  rcases b.next_reads st peerAddr payload with hread | hsame
  · exact h.read hread
  · rw [hsame]
    exact h

/-- The program makes at most one call in a step. -/
theorem Board.next_made (h : Made st mem b calls) : ∃ calls', Made st mem (b.next st peerAddr payload) calls' := by
  unfold next
  cases b.pending with
  | cons o rest =>
      simp only [callback]
      split_ifs <;> exact ⟨calls, h.congr rfl rfl⟩
  | nil =>
      simp only [main]
      cases b.point with
      | setup => exact ⟨_, h.call (c := .linkSetup peerAddr) trivial (Nat.zero_le 1) rfl (List.append_nil _).symm⟩
      | drain =>
          cases b.rx.hand with
          | empty =>
              simp only
              split_ifs <;> exact ⟨calls, h.congr rfl rfl⟩
          | found => exact ⟨calls, h.congr rfl rfl⟩
          | copied x => exact ⟨calls, h.congr rfl rfl⟩
          | taken x => exact ⟨_, h.call (c := .dataIn [x]) trivial (Nat.le_refl 1) rfl rfl⟩
      | test t => exact ⟨calls, h.congr rfl rfl⟩
      | clear t => exact ⟨calls, h.congr rfl rfl⟩
      | expire t =>
          have hsilent := t.octets_expiry
          refine ⟨_, h.call t.legal_expiry ?_ rfl ?_⟩
          · rw [hsilent]
            exact Nat.zero_le 1
          · rw [hsilent]
            exact (List.append_nil _).symm
      | transmit =>
          simp only
          split_ifs
          · exact ⟨_, h.call (c := .transmitI (.octets payload)) (Or.inl rfl) (Nat.zero_le 1) rfl
              (List.append_nil _).symm⟩
          · exact ⟨calls, h.congr rfl rfl⟩

/-- Whatever the interrupts, the octets that the handler has accepted are those that the library was given one
by one, then the one in hand, then those in the ring, in their order; and the context is what these and the
other calls of the main loop make of the one after `atc_hdlc_init`. -/
theorem board_receives {ring : Nat → UInt8} (h : Board.Runs st peerAddr payload K (.initial st mem ring) b) :
    b.rx.put = b.rx.used ++ b.rx.inHand ++ b.rx.ring.contents ∧ b.rx.ring.contents.length < rxRingSize ∧
      ∃ calls : List Call, Made st mem b calls := by
  have hboard : b.rx.Sound ∧ ∃ calls : List Call, Made st mem b calls := by
    refine h.induct (P := fun b => b.rx.Sound ∧ ∃ calls, Made st mem b calls) ?_ ?_
    · rintro b b' hstep ⟨hsound, calls, hmade⟩
      cases hstep with
      | next => exact ⟨Board.next_sound hsound, Board.next_made hmade⟩
      | uart byte => exact ⟨hsound.write byte, calls, hmade.congr rfl rfl⟩
      | timer t _ _ => exact ⟨hsound, calls, hmade.congr rfl rfl⟩
    · exact ⟨Traffic.sound_initial rxRingSize_pos ring, [], rfl, by simp, rfl, by simp⟩
  obtain ⟨hsound, hcalls⟩ := hboard
  refine ⟨hsound.kept, ?_, hcalls⟩
  rw [RingBuffer.length_contents]
  exact b.rx.ring.length_lt

/-- The main loop has taken the second octet out of the ring and not yet handed it over. -/
theorem board_receives_template :
    let b := (Board.next templateStation 0x02 sensorData)^[7] templateAnswered
    b.rx.used = [0x7E] ∧ b.rx.inHand = [0x02] ∧ b.rx.put = b.rx.used ++ b.rx.inHand ++ b.rx.ring.contents := by
  intro b
  have hruns : Board.Runs templateStation 0x02 sensorData (fun _ _ => True)
      (.initial templateStation zeroMemory fun _ => 0) b := Board.Runs.nexts templateAnswered_runs 7
  have hkept := (board_receives hruns).1
  exact ⟨by decide +kernel, by decide +kernel, hkept⟩

end Receives

section Timers

variable {st : Station} {peerAddr : UInt8} {payload : List UInt8} {mem : Memory} {b b' : Board} {t : Timer}

/-- The main loop is about to tell the library that the timer has run out. -/
def Point.Delivers (t : Timer) (p : Point) : Prop := p = .clear t ∨ p = .expire t

instance (t : Timer) (p : Point) : Decidable (p.Delivers t) := inferInstanceAs (Decidable (_ ∨ _))

@[simp] theorem Point.delivers_clear {t' : Timer} : (Point.clear t').Delivers t ↔ t' = t := by simp [Delivers]

@[simp] theorem Point.delivers_expire {t' : Timer} : (Point.expire t').Delivers t ↔ t' = t := by simp [Delivers]

@[simp] theorem Point.not_delivers_setup : ¬Point.setup.Delivers t := by simp [Delivers]

@[simp] theorem Point.not_delivers_drain : ¬Point.drain.Delivers t := by simp [Delivers]

@[simp] theorem Point.not_delivers_test {t' : Timer} : ¬(Point.test t').Delivers t := by simp [Delivers]

@[simp] theorem Point.not_delivers_transmit : ¬Point.transmit.Delivers t := by simp [Delivers]

@[simp] theorem Timer.past_quiet (t t' : Timer) : ¬t'.past.Delivers t := by cases t' <;> simp [past]

/-- The hardware timer runs, or it has run out and the library is going to be told. -/
def Board.counts (b : Board) (t : Timer) : Bool :=
  (b.alarms t).armed || (b.alarms t).expired || decide (b.point.Delivers t)

/-- The hardware timer and its flag follow the bit of the context, once the callbacks on their way are made. -/
structure Board.Mirrors (t : Timer) (b : Board) : Prop where
  tracked : t.after (b.counts t) b.pending = t.active b.ctx
  once : (b.alarms t).expired = true → (b.alarms t).armed = false
  torn : b.Torn t → (b.alarms t).expired = false
  idle : b.pending ≠ [] → ¬b.point.Delivers t
  clearing : b.point = .clear t → (b.alarms t).armed = false
  expiring : b.point = .expire t → (b.alarms t).armed = false ∧ (b.alarms t).expired = false

namespace Board

theorem Mirrors.active (h : b.Mirrors t) (hdone : b.pending = []) : t.active b.ctx = b.counts t := by
  rw [← h.tracked, hdone]
  rfl

theorem Torn.of_nil (hdone : b.pending = []) : ¬b.Torn t := by
  rintro ⟨-, htold⟩
  rw [hdone] at htold
  exact absurd htold Bool.false_ne_true

/-- A point that delivers nothing, where the timer's own memory stays as it is. -/
theorem Mirrors.move (h : b.Mirrors t) (hdone : b.pending = []) (hdone' : b'.pending = [])
    (hctx : b'.ctx = b.ctx) (halarm : b'.alarms t = b.alarms t) (hquiet : ¬b.point.Delivers t)
    (hquiet' : ¬b'.point.Delivers t) : b'.Mirrors t := by
  have hcounts : b'.counts t = b.counts t := by simp [counts, halarm, hquiet, hquiet']
  refine ⟨?_, ?_, fun htorn => absurd htorn (Torn.of_nil hdone'), fun hne => absurd hdone' hne, ?_, ?_⟩
  · rw [hcounts, hdone', hctx]
    exact (h.active hdone).symm
  · rw [halarm]
    exact h.once
  · exact fun hclear => absurd (Or.inl hclear) hquiet'
  · exact fun hexpire => absurd (Or.inr hexpire) hquiet'

/-- A call that tells the platform all that it does to the bit. -/
theorem Mirrors.told {s : Ctx} (halarm : b'.alarms t = b.alarms t) (hcleared : b'.cleared = false)
    (honce : (b.alarms t).expired = true → (b.alarms t).armed = false) (hquiet : ¬b'.point.Delivers t)
    (htracked : Tracked t s b'.ctx) (hstart : s.trace = b.ctx.trace)
    (hcounts : t.active s = ((b.alarms t).armed || (b.alarms t).expired))
    (hpending : b'.pending = b'.ctx.trace.drop b.ctx.trace.length) : b'.Mirrors t := by
  obtain ⟨os, htrace, hactive⟩ := htracked
  have hos : b'.pending = os := by rw [hpending, htrace, hstart, List.drop_left]
  have hsame : b'.counts t = t.active s := by simp [counts, halarm, hquiet, hcounts]
  refine ⟨?_, ?_, ?_, fun _ => hquiet, ?_, ?_⟩
  · rw [hsame, hos, hactive]
  · rw [halarm]
    exact honce
  · rintro ⟨htorn, -⟩
    exact absurd (hcleared.symm.trans htorn) Bool.false_ne_true
  · exact fun hclear => absurd (Or.inl hclear) hquiet
  · exact fun hexpire => absurd (Or.inr hexpire) hquiet

theorem Mirrors.call (hw : t.Wired st.platform) (hp : st.platform.Tracks t) (h : b.Mirrors t)
    (hdone : b.pending = []) {c : Call} (hlegal : c.Legal) (hexpiry : c ≠ t.expiry) {point : Point}
    {rx : Traffic rxRingSize UInt8} (hquiet : ¬b.point.Delivers t) (hquiet' : ¬point.Delivers t) :
    Mirrors t { b.call st c with point := point, rx := rx } := by
  refine Mirrors.told (b := b) (s := b.ctx) rfl rfl h.once hquiet' (Call.tracked hw hp b.ctx hlegal hexpiry) rfl ?_ rfl
  rw [h.active hdone, counts, decide_eq_false hquiet, Bool.or_false]

/-- Between two callbacks, and between the two statements of one. -/
theorem Mirrors.callback {o : Obs} {rest : List Obs} (h : b.Mirrors t) (hpending : b.pending = o :: rest) :
    (b.callback o rest).Mirrors t := by
  have hquiet : ¬b.point.Delivers t := h.idle (by simp [hpending])
  have htracked := h.tracked
  rw [hpending, Timer.after_cons, counts, decide_eq_false hquiet, Bool.or_false] at htracked
  have hclear : b.point ≠ .clear t := fun hclear => hquiet (Or.inl hclear)
  have hexpire : b.point ≠ .expire t := fun hexpire => hquiet (Or.inr hexpire)
  by_cases hcleared : b.cleared = true
  · rw [Board.callback, if_pos hcleared]
    have hflag : (t.told o).isSome = true → (b.alarms t).expired = false := by
      intro htold
      refine h.torn ⟨hcleared, ?_⟩
      rw [hpending]
      exact htold
    refine ⟨?_, ?_, ?_, fun _ => hquiet, fun h' => absurd h' hclear, fun h' => absurd h' hexpire⟩
    · simp only [counts, decide_eq_false hquiet, Bool.or_false]
      cases htold : t.told o with
      | none =>
          rw [htold] at htracked
          exact htracked
      | some running =>
          rw [htold] at htracked hflag
          rw [hflag rfl, Bool.or_false]
          exact htracked
    · simp only
      cases htold : t.told o with
      | none => exact h.once
      | some running =>
          rw [htold] at hflag
          rw [hflag rfl]
          exact fun h' => absurd h' Bool.false_ne_true
    · rintro ⟨htorn, -⟩
      exact absurd htorn Bool.false_ne_true
  · rw [Board.callback, if_neg hcleared]
    refine ⟨?_, ?_, ?_, fun _ => hquiet, fun h' => absurd h' hclear, fun h' => absurd h' hexpire⟩
    · simp only [counts, decide_eq_false hquiet, Bool.or_false, hpending, Timer.after_cons]
      cases htold : t.told o with
      | none =>
          rw [htold] at htracked
          rw [Option.isNone_none, Bool.and_true]
          exact htracked
      | some running =>
          rw [htold] at htracked
          exact htracked
    · simp only [Bool.and_eq_true]
      exact fun h' => h.once h'.1
    · rintro ⟨-, htold⟩
      simp only [hpending, List.head?_cons, Option.bind_some] at htold
      cases hsome : t.told o with
      | none => simp [hsome] at htold
      | some running => simp [hsome]

/-- A timer that is armed runs out, between two callbacks. -/
theorem Mirrors.timerIsr (h : b.Mirrors t) (harmed : (b.alarms t).armed = true) (hwhole : ¬b.Torn t) :
    (b.timerIsr t).Mirrors t := by
  have halarm : (b.timerIsr t).alarms t = ⟨false, true⟩ := Function.update_self ..
  have hcounts : (b.timerIsr t).counts t = b.counts t := by simp [counts, halarm, harmed]
  refine ⟨?_, ?_, fun htorn => absurd htorn hwhole, h.idle, ?_, ?_⟩
  · rw [hcounts]
    exact h.tracked
  · rw [halarm]
    exact fun _ => rfl
  · rw [halarm]
    exact fun _ => rfl
  · intro hexpire
    exact absurd ((h.expiring hexpire).1.symm.trans harmed) Bool.false_ne_true

/-- What concerns the other timer only. -/
theorem Mirrors.other (h : b.Mirrors t) (hctx : b'.ctx = b.ctx) (halarm : b'.alarms t = b.alarms t)
    (hpoint : b'.point = b.point) (hpending : b'.pending = b.pending) (hcleared : b'.cleared = b.cleared) :
    b'.Mirrors t := by
  refine ⟨?_, ?_, ?_, ?_, ?_, ?_⟩
  · rw [counts, halarm, hpoint, hpending, hctx]
    exact h.tracked
  · rw [halarm]
    exact h.once
  · rw [Torn, hcleared, hpending, halarm]
    exact h.torn
  · rw [hpending, hpoint]
    exact h.idle
  · rw [hpoint, halarm]
    exact h.clearing
  · rw [hpoint, halarm]
    exact h.expiring

theorem Mirrors.test (h : b.Mirrors t) (hdone : b.pending = []) {t' : Timer} (hpoint : b.point = .test t') :
    Mirrors t { b with point := if (b.alarms t').expired then .clear t' else t'.past } := by
  by_cases hsame : t' = t ∧ (b.alarms t').expired = true
  · obtain ⟨rfl, hexpired⟩ := hsame
    rw [if_pos hexpired]
    have hcounts : counts { b with point := .clear t' } t' = b.counts t' := by simp [counts, hexpired]
    refine ⟨?_, h.once, fun htorn => absurd htorn (Torn.of_nil hdone), fun hne => absurd hdone hne, ?_, ?_⟩
    · rw [hcounts]
      exact h.tracked
    · exact fun _ => h.once hexpired
    · exact fun hexpire => Point.noConfusion hexpire
  · have hquiet : ¬(if (b.alarms t').expired then Point.clear t' else t'.past).Delivers t := by
      split_ifs with hexpired
      · rw [Point.delivers_clear]
        exact fun heq => hsame ⟨heq, hexpired⟩
      · exact t.past_quiet t'
    exact h.move hdone hdone rfl rfl (by simp [hpoint]) hquiet

/-- The flag is cleared, and the library is told next. -/
theorem Mirrors.clear (h : b.Mirrors t) (hdone : b.pending = []) {t' : Timer} (hpoint : b.point = .clear t')
    (hdone' : b'.pending = []) (hctx : b'.ctx = b.ctx)
    (halarms : b'.alarms = Function.update b.alarms t' { b.alarms t' with expired := false })
    (hpoint' : b'.point = .expire t') : b'.Mirrors t := by
  by_cases hsame : t' = t
  · subst hsame
    have halarm : b'.alarms t' = { b.alarms t' with expired := false } := by
      rw [halarms]
      exact Function.update_self ..
    have hcounts : b.counts t' = true := by simp [counts, hpoint]
    have hcounts' : b'.counts t' = true := by simp [counts, hpoint']
    refine ⟨?_, ?_, fun htorn => absurd htorn (Torn.of_nil hdone'), fun hne => absurd hdone' hne, ?_, ?_⟩
    · rw [hcounts', ← hcounts, hdone', hctx]
      exact (h.active hdone).symm
    · rw [halarm]
      exact fun hexpired => absurd hexpired Bool.false_ne_true
    · exact fun hclear => Point.noConfusion (hpoint'.symm.trans hclear)
    · rw [halarm]
      exact fun _ => ⟨h.clearing hpoint, rfl⟩
  · have halarm : b'.alarms t = b.alarms t := by
      rw [halarms]
      exact Function.update_of_ne (Ne.symm hsame) _ _
    exact h.move hdone hdone' hctx halarm (by simp [hpoint, hsame]) (by simp [hpoint', hsame])

theorem Mirrors.expire (hw : t.Wired st.platform) (hp : st.platform.Tracks t) (h : b.Mirrors t)
    (hdone : b.pending = []) {t' : Timer} (hpoint : b.point = .expire t') :
    Mirrors t { b.call st t'.expiry with point := t'.past } := by
  by_cases hsame : t' = t
  · subst hsame
    obtain ⟨harmed, hexpired⟩ := h.expiring hpoint
    refine Mirrors.told (b := b) (s := t'.clear b.ctx) rfl rfl h.once (t'.past_quiet t')
      (expiry_tracked hw hp b.ctx) ?_ ?_ rfl
    · cases t' <;> rfl
    · rw [harmed, hexpired]
      cases t' <;> rfl
  · refine h.call hw hp hdone t'.legal_expiry ?_ ?_ (t.past_quiet t')
    · cases t <;> cases t' <;> first | exact absurd rfl hsame | exact Call.noConfusion
    · rw [hpoint, Point.delivers_expire]
      exact hsame

theorem Mirrors.next (hw : t.Wired st.platform) (hp : st.platform.Tracks t) (h : b.Mirrors t) :
    (b.next st peerAddr payload).Mirrors t := by
  have hdrain : ¬Point.drain.Delivers t := Point.not_delivers_drain
  unfold Board.next
  cases hdone : b.pending with
  | cons o rest => exact h.callback hdone
  | nil =>
      simp only [main]
      cases hpoint : b.point with
      | setup =>
          exact h.call hw hp hdone (c := .linkSetup peerAddr) trivial (by cases t <;> exact Call.noConfusion)
            (by simp [hpoint]) hdrain
      | drain =>
          have hquiet : ¬b.point.Delivers t := by simp [hpoint]
          cases b.rx.hand with
          | empty =>
              simp only
              split_ifs
              · exact h.move hdone hdone rfl rfl hquiet Point.not_delivers_test
              · exact h.move hdone hdone rfl rfl hquiet hdrain
          | found | copied x => exact h.move hdone hdone rfl rfl hquiet hdrain
          | taken x =>
              exact h.call hw hp hdone (c := .dataIn [x]) trivial (by cases t <;> exact Call.noConfusion) hquiet hquiet
      | test t' => exact h.test hdone hpoint
      | clear t' => exact h.clear hdone hpoint hdone rfl rfl rfl
      | expire t' => exact h.expire hw hp hdone hpoint
      | transmit =>
          have hquiet : ¬b.point.Delivers t := by simp [hpoint]
          simp only
          split_ifs
          · exact h.call hw hp hdone (c := .transmitI (.octets payload)) (Or.inl rfl)
              (by cases t <;> exact Call.noConfusion) hquiet hdrain
          · exact h.move hdone hdone rfl rfl hquiet hdrain

theorem Mirrors.step (hw : t.Wired st.platform) (hp : st.platform.Tracks t) (h : b.Mirrors t)
    (hstep : Step st peerAddr payload (fun b t => ¬b.Torn t) b b') : b'.Mirrors t := by
  cases hstep with
  | next => exact h.next hw hp
  | uart byte => exact h.other rfl rfl rfl rfl rfl
  | timer t' harmed hwhole =>
      by_cases hsame : t' = t
      · subst hsame
        exact h.timerIsr harmed hwhole
      · exact h.other rfl (Function.update_of_ne (Ne.symm hsame) _ _) rfl rfl rfl

theorem mirrors_initial (ring : Nat → UInt8) : (initial st mem ring).Mirrors t := by
  refine ⟨?_, fun h => absurd h Bool.false_ne_true, fun _ => rfl, fun h => absurd rfl h, ?_, ?_⟩
  · cases t <;> rfl
  · exact fun h => Point.noConfusion h
  · exact fun h => Point.noConfusion h

end Board

theorem Board.next_onTime (h : ∀ t, b.Mirrors t) (hreach : ReachableBy st mem OnTime b.ctx) :
    ReachableBy st mem OnTime (b.next st peerAddr payload).ctx := by
  unfold next
  cases hdone : b.pending with
  | cons o rest =>
      simp only [callback]
      split_ifs <;> exact hreach
  | nil =>
      simp only [main]
      cases hpoint : b.point with
      | setup =>
          exact hreach.call (.linkSetup peerAddr) trivial (onTime_of_ne Call.noConfusion Call.noConfusion)
      | drain =>
          cases b.rx.hand with
          | empty =>
              simp only
              split_ifs <;> exact hreach
          | found | copied x => exact hreach
          | taken x => exact hreach.call (.dataIn [x]) trivial (onTime_of_ne Call.noConfusion Call.noConfusion)
      | test t => exact hreach
      | clear t => exact hreach
      | expire t =>
          refine hreach.call t.expiry t.legal_expiry fun t' heq => ?_
          have hsame : t = t' := by cases t <;> cases t' <;> first | rfl | exact Call.noConfusion heq
          rw [← hsame, (h t).active hdone]
          simp [counts, hpoint]
      | transmit =>
          simp only
          split_ifs
          · exact hreach.call (.transmitI (.octets payload)) (Or.inl rfl)
              (onTime_of_ne Call.noConfusion Call.noConfusion)
          · exact hreach

/-- Where no timer runs out in the middle of its own callback, the bit of a timer is set just when the hardware
timer runs, or has run out and the library is going to be told: no expiry is lost, none is told twice, and the
library is never told of a timer that it has stopped. -/
theorem board_timers (hw : ∀ t : Timer, t.Wired st.platform) (hp : ∀ t, st.platform.Tracks t) {ring : Nat → UInt8}
    (h : Board.Runs st peerAddr payload (fun b t => ¬b.Torn t) (.initial st mem ring) b) :
    ReachableBy st mem OnTime b.ctx ∧ ∀ t : Timer,
      ((b.alarms t).expired = true → (b.alarms t).armed = false) ∧
        (b.pending = [] → (t.active b.ctx = true ↔
          (b.alarms t).armed = true ∨ (b.alarms t).expired = true ∨ b.point.Delivers t)) := by
  have hboard : (∀ t, b.Mirrors t) ∧ ReachableBy st mem OnTime b.ctx := by
    refine h.induct (P := fun b => (∀ t, b.Mirrors t) ∧ ReachableBy st mem OnTime b.ctx) ?_
      ⟨fun t => Board.mirrors_initial ring, .init⟩
    rintro b b' hstep ⟨hmirrors, hreach⟩
    refine ⟨fun t => (hmirrors t).step (hw t) (hp t) hstep, ?_⟩
    cases hstep with
    | next => exact Board.next_onTime hmirrors hreach
    | uart byte => exact hreach
    | timer t _ _ => exact hreach
  refine ⟨hboard.2, fun t => ⟨(hboard.1 t).once, fun hdone => ?_⟩⟩
  rw [(hboard.1 t).active hdone]
  simp [Board.counts, or_assoc]

/-- T1 runs out while the main loop looks at the ring. -/
theorem board_timers_template :
    let b := (Board.next templateStation 0x02 sensorData)^[3] (templateCalling.timerIsr .t1)
    b.point = .expire .t1 ∧ b.ctx.t1Active = true := by
  intro b
  have hcalling := @templateCalling_runs fun b t => ¬b.Torn t
  have hruns : Board.Runs templateStation 0x02 sensorData (fun b t => ¬b.Torn t)
      (.initial templateStation zeroMemory fun _ => 0) b :=
    Board.Runs.nexts (hcalling.tail (.timer _ .t1 (by decide +kernel) (by decide +kernel))) 3
  have hpoint : b.point = .expire .t1 := by decide +kernel
  have hdone : b.pending = [] := by decide +kernel
  obtain ⟨-, htimers⟩ := board_timers templateStation_wired (fun _ => mockPlatform_passive.tracks _) hruns
  exact ⟨hpoint, ((htimers .t1).2 hdone).mpr (Or.inr (Or.inr (Or.inr hpoint)))⟩

/-- `t1_stop` clears the flag before it disarms the hardware timer. Where T1 runs out in between, the library is
told of the timer that it has just stopped. -/
theorem torn_stop_expires :
    let b := (Board.next templateStation 0x02 sensorData)^[8]
      (((Board.next templateStation 0x02 sensorData)^[27] templateAnswered).timerIsr .t1)
    Board.Runs templateStation 0x02 sensorData (fun _ _ => True) (.initial templateStation zeroMemory fun _ => 0) b ∧
      b.pending = [] ∧ b.point = .expire .t1 ∧ b.ctx.t1Active = false := by
  intro b
  refine ⟨?_, by decide +kernel, by decide +kernel, by decide +kernel⟩
  have hstopping := (templateAnswered_runs (K := fun _ _ => True)).nexts 27
  exact Board.Runs.nexts (hstopping.tail (.timer _ .t1 (by decide +kernel) trivial)) 8

end Timers

end AtcHdlc
