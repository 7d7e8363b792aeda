import AtcHdlc.BareMetal
import AtcHdlc.Lines

/-! Two boards that run the template, with a UART line each way. Whatever the interrupts and the timers do, they
are two stations that hand each other whole frames and lose none, as long as no ring overflows: the main loop
hands over one octet at a time, the interrupts may come in the middle of anything, and a call may be far from
over when the other board receives what it has sent. -/

namespace AtcHdlc

/-- What the template is compiled with. -/
structure Program where
  station : Station
  peerAddr : UInt8
  payload : List UInt8

/-- The program goes on. -/
def Program.next (p : Program) : Board → Board := Board.next p.station p.peerAddr p.payload

/-- A board after its reset. -/
def Program.initial (p : Program) : Board := .initial p.station zeroMemory fun _ => 0

structure Boards where
  near : Board
  far : Board

namespace Boards

def swap (d : Boards) : Boards := ⟨d.far, d.near⟩

/-- What happens at the near board. The UART receives what the far board has sent, in order, while there is room
in the ring. -/
inductive Near (p : Program) (d : Boards) : Boards → Prop where
  | next : Near p d ⟨d.near.next p.station p.peerAddr p.payload, d.far⟩
  | timer (t : Timer) (harmed : (d.near.alarms t).armed = true) : Near p d ⟨d.near.timerIsr t, d.far⟩
  | uart (byte : UInt8) (hbyte : (sentOctets d.far.ctx.trace)[d.near.rx.put.length]? = some byte)
      (hroom : ¬d.near.rx.ring.Full) : Near p d ⟨d.near.uartRxIsr byte, d.far⟩

/-- A step of either board. -/
inductive Step (p p' : Program) : Boards → Boards → Prop where
  | near {d d' : Boards} (h : Near p d d') : Step p p' d d'
  | far {d d' : Boards} (h : Near p' d.swap d') : Step p p' d d'.swap

/-- The runs of two boards. -/
abbrev Runs (p p' : Program) : Boards → Boards → Prop := Relation.ReflTransGen (Step p p')

/-- Two stations that have read what their main loops have handed over. -/
def duplex (p p' : Program) (d : Boards) : Duplex :=
  ⟨⟨p.station, d.near.ctx, d.near.rx.used.length⟩, ⟨p'.station, d.far.ctx, d.far.rx.used.length⟩⟩

/-- The near board holds a part of what the far board has sent, and has read nothing before its set-up. -/
structure Carries (p : Program) (mem : Memory) (d : Boards) : Prop where
  sound : d.near.rx.Sound
  fed : d.near.rx.put <+: sentOctets d.far.ctx.trace
  fresh : d.near.point = .setup → d.near.ctx = initCtx p.station mem ∧ d.near.rx.used = []

section Near

variable {p p' : Program} {mem : Memory} {d d' : Boards}

/-- The octet in hand is the next one of the line. -/
theorem Carries.next_octet (h : Carries p mem d) {x : UInt8} (hhand : d.near.rx.hand = .taken x) :
    ((sentOctets d.far.ctx.trace).drop d.near.rx.used.length).take 1 = [x] := by
  obtain ⟨rest, hrest⟩ := h.fed
  have hkept := h.sound.kept
  simp only [Traffic.inHand, hhand] at hkept
  rw [← hrest, hkept, List.append_assoc, List.append_assoc, List.drop_left]
  rfl

/-- What the program does is a turn of the station that reads the line, or nothing to it. -/
theorem Carries.turn (p' : Program) (h : Carries p mem d) :
    (d.near.next p.station p.peerAddr p.payload).ctx = d.near.ctx ∧
        (d.near.next p.station p.peerAddr p.payload).rx.used = d.near.rx.used ∨
      ∃ m, Orderly (d.duplex p p').active m ∧
        (d.duplex p p').active.turn (sentOctets d.far.ctx.trace) m =
          ⟨p.station, (d.near.next p.station p.peerAddr p.payload).ctx,
            (d.near.next p.station p.peerAddr p.payload).rx.used.length⟩ := by
  unfold Board.next
  cases d.near.pending with
  | cons o rest =>
      simp only [Board.callback]
      split_ifs <;> exact Or.inl ⟨rfl, rfl⟩
  | nil =>
      simp only [Board.main]
      cases hpoint : d.near.point with
      | setup =>
          obtain ⟨hctx, hused⟩ := h.fresh hpoint
          refine Or.inr ⟨.call (.linkSetup p.peerAddr), ⟨trivial, id, fun _ h => Call.noConfusion h, ?_⟩, rfl⟩
          rintro _ ⟨⟩
          right
          show if d.near.ctx.rxState = .hunt then d.near.rx.used.length = 0 else _
          rw [hctx, hused]
          rfl
      | drain =>
          cases hhand : d.near.rx.hand with
          | empty =>
              simp only
              split_ifs <;> exact Or.inl ⟨rfl, rfl⟩
          | found | copied x => exact Or.inl ⟨rfl, rfl⟩
          | taken x =>
              refine Or.inr ⟨.read 1, trivial, ?_⟩
              have hnext := h.next_octet hhand
              simp only [Reader.turn, Reader.toCall, Reader.taken, duplex, hnext, List.length_append]
              rfl
      | test t => exact Or.inl ⟨rfl, rfl⟩
      | clear t => exact Or.inl ⟨rfl, rfl⟩
      | expire t =>
          refine Or.inr ⟨.call t.expiry, ⟨t.legal_expiry, ?_, ?_, ?_⟩, rfl⟩
          · cases t <;> exact id
          · cases t <;> exact fun _ h => Call.noConfusion h
          · cases t <;> exact fun _ h => Call.noConfusion h
      | transmit =>
          simp only
          split_ifs
          · exact Or.inr ⟨.call (.transmitI (.octets p.payload)), ⟨Or.inl rfl, id, fun _ h => Call.noConfusion h,
              fun _ h => Call.noConfusion h⟩, rfl⟩
          · exact Or.inl ⟨rfl, rfl⟩

theorem Board.next_setup {st : Station} {peerAddr : UInt8} {payload : List UInt8} {b : Board}
    (h : (b.next st peerAddr payload).point = .setup) :
    b.point = .setup ∧ (b.next st peerAddr payload).ctx = b.ctx ∧ (b.next st peerAddr payload).rx = b.rx := by
  unfold Board.next at h ⊢
  cases hpending : b.pending with
  | cons o rest =>
      simp only [hpending, Board.callback] at h ⊢
      split_ifs at h ⊢ <;> exact ⟨h, rfl, rfl⟩
  | nil =>
      simp only [hpending, Board.main] at h
      cases hpoint : b.point with
      | setup =>
          rw [hpoint] at h
          exact Point.noConfusion h
      | drain =>
          cases hhand : b.rx.hand with
          | empty =>
              simp only [hpoint, hhand] at h
              split_ifs at h
          | found | copied x =>
              simp only [hpoint, hhand] at h
              exact Point.noConfusion h
          | taken x =>
              simp only [hpoint, hhand] at h
              change b.point = .setup at h
              exact Point.noConfusion (hpoint.symm.trans h)
      | test t =>
          simp only [hpoint] at h
          split_ifs at h
          cases t <;> exact Point.noConfusion h
      | clear t =>
          rw [hpoint] at h
          exact Point.noConfusion h
      | expire t =>
          rw [hpoint] at h
          cases t <;> exact Point.noConfusion h
      | transmit =>
          simp only [hpoint] at h
          split_ifs at h

theorem Carries.near (h : Carries p mem d) (hnear : Near p d d') : Carries p mem d' := by
  cases hnear with
  | next =>
      refine ⟨Board.next_sound h.sound, ?_, fun hsetup => ?_⟩
      · rcases d.near.next_reads p.station p.peerAddr p.payload with hread | hsame
        · rw [hread.put]
          exact h.fed
        · rw [hsame]
          exact h.fed
      · obtain ⟨hpoint, hctx, hrx⟩ := Board.next_setup hsetup
        rw [hctx, hrx]
        exact h.fresh hpoint
  | timer t _ => exact ⟨h.sound, h.fed, h.fresh⟩
  | uart byte hbyte hroom =>
      refine ⟨h.sound.write byte, ?_, h.fresh⟩
      show (if d.near.rx.ring.Full then d.near.rx.put else d.near.rx.put ++ [byte]) <+: _
      rw [if_neg hroom]
      obtain ⟨rest, hrest⟩ := h.fed
      rw [← hrest, List.getElem?_append_right (Nat.le_refl _), Nat.sub_self] at hbyte
      obtain ⟨rest', rfl⟩ := List.head?_eq_some_iff.mp (List.head?_eq_getElem?.trans hbyte)
      exact ⟨rest', by rw [← hrest, List.append_assoc, List.singleton_append]⟩

/-- What the near board has sent stays on its line. -/
theorem Near.line (hp : p.station.platform.Passive) (h : Carries p mem d) (hnear : Near p d d') :
    sentOctets d.near.ctx.trace <+: sentOctets d'.near.ctx.trace ∧ d'.far = d.far := by
  cases hnear with
  | next =>
      refine ⟨?_, rfl⟩
      rcases h.turn p with ⟨hctx, -⟩ | ⟨m, horderly, hturn⟩
      · show _ <+: sentOctets (d.near.next p.station p.peerAddr p.payload).ctx.trace
        rw [hctx]
      · have hctx := congrArg Reader.ctx hturn
        show _ <+: sentOctets (d.near.next p.station p.peerAddr p.payload).ctx.trace
        rw [← show _ = (d.near.next p.station p.peerAddr p.payload).ctx from hctx]
        cases m with
        | call c => exact Call.line hp d.near.ctx horderly.1
        | read n => exact @Call.line p.station hp d.near.ctx (.dataIn _) trivial
  | timer t _ => exact ⟨List.prefix_rfl, rfl⟩
  | uart byte _ _ => exact ⟨List.prefix_rfl, rfl⟩

/-- Two boards, and the run of two stations with lines that they amount to. -/
structure Matches (p p' : Program) (mem mem' : Memory) (d₀ : Duplex) (d : Boards) : Prop where
  near : Carries p mem d
  far : Carries p' mem' d.swap
  course : Course (fun d => Orderly d.active) (fun d => Orderly d.passive) d₀ (d.duplex p p')

theorem Course.swap {K : Reader → Turn → Prop} {d₀ d : Duplex}
    (h : Course (fun d => K d.active) (fun d => K d.passive) d₀ d) :
    Course (fun d => K d.active) (fun d => K d.passive) d₀.swap d.swap := by
  induction h with
  | start => exact .start
  | active m _ hK ih => exact .passive m ih hK
  | passive m _ hL ih => exact .active m ih hL

theorem Matches.swap {mem' : Memory} {d₀ : Duplex} (h : Matches p p' mem mem' d₀ d) :
    Matches p' p mem' mem d₀.swap d.swap :=
  ⟨h.far, h.near, Course.swap h.course⟩

theorem Matches.step {mem' : Memory} {d₀ : Duplex} (hp : p.station.platform.Passive)
    (h : Matches p p' mem mem' d₀ d) (hnear : Near p d d') : Matches p p' mem mem' d₀ d' := by
  obtain ⟨hline, hfar⟩ := hnear.line hp h.near
  refine ⟨h.near.near hnear, ⟨?_, ?_, ?_⟩, ?_⟩
  · show d'.far.rx.Sound
    rw [hfar]
    exact h.far.sound
  · show d'.far.rx.put <+: sentOctets d'.near.ctx.trace
    rw [hfar]
    exact h.far.fed.trans hline
  · show d'.far.point = .setup → d'.far.ctx = initCtx p'.station mem' ∧ d'.far.rx.used = []
    rw [hfar]
    exact h.far.fresh
  · cases hnear with
    | next =>
        rcases h.near.turn p' with ⟨hctx, hused⟩ | ⟨m, horderly, hturn⟩
        · have hsame : duplex p p' ⟨d.near.next p.station p.peerAddr p.payload, d.far⟩ = d.duplex p p' := by
            simp only [duplex, hctx, hused]
          rw [hsame]
          exact h.course
        · have hnext : duplex p p' ⟨d.near.next p.station p.peerAddr p.payload, d.far⟩ =
              (d.duplex p p').turnActive m := congrArg (Duplex.mk · (d.duplex p p').passive) hturn.symm
          rw [hnext]
          exact .active m h.course horderly
    | timer t _ => exact h.course
    | uart byte _ _ => exact h.course

end Near

/-- In every run of two boards from their reset on, whose rings do not overflow, the stations are where two
stations would be that hand each other whole frames and lose none. -/
theorem boards_exchange_frames {p p' : Program} {mem mem' : Memory} {ring ring' : Nat → UInt8} {d : Boards}
    (hp : p.station.platform.Passive) (hp' : p'.station.platform.Passive)
    (h : Runs p p' ⟨.initial p.station mem ring, .initial p'.station mem' ring'⟩ d) :
    ∃ w, Run Lossless
        ⟨⟨p.station, initCtx p.station mem, 0, 0, []⟩, ⟨p'.station, initCtx p'.station mem', 0, 0, []⟩⟩ w ∧
      Refines (d.duplex p p') w := by
  have hmatches : Matches p p' mem mem' ⟨.initial p.station mem, .initial p'.station mem'⟩ d := by
    induction h with
    | refl =>
        have hsound (ring : Nat → UInt8) := Traffic.sound_initial rxRingSize_pos ring
        exact ⟨⟨hsound ring, List.nil_prefix, fun _ => ⟨rfl, rfl⟩⟩,
          ⟨hsound ring', List.nil_prefix, fun _ => ⟨rfl, rfl⟩⟩, .start⟩
    | tail _ hstep ih =>
        cases hstep with
        | near hnear => exact ih.step hp hnear
        | far hfar => exact (ih.swap.step hp' hfar).swap
  exact Course.refines (T := fun d => Orderly d.active) (fun _ _ hm => hm)
    (fun _ _ _ _ hm => ⟨hm.1, hm.2.1, hm.2.2.1⟩) (fun _ _ => trivial) ⟨hp, hp'⟩ (refines_initial _ _ _ _)
    hmatches.course

/-! ### Two boards that call each other -/

def nearProgram : Program := ⟨templateStation, 0x02, sensorData⟩

def farProgram : Program := ⟨{ templateStation with config := ⟨modeAbm, 0x02, 64, 3, 500, 20⟩ }, 0x01, sensorData⟩

/-- Each has sent its SABM. -/
def nearCalling : Board := nearProgram.next^[19] nearProgram.initial

def farCalling : Board := farProgram.next^[19] farProgram.initial

/-- The far board has received the SABM and is in the middle of the UA. -/
def farAnswering : Board :=
  farProgram.next^[26] ([0x7E, 0x02, 0x3F, 0x7C, 0x0A, 0x7E].foldl Board.uartRxIsr farCalling)

section Runs

variable {p p' : Program} {d₀ : Boards} {a b : Board}

theorem Runs.nears (h : Runs p p' d₀ ⟨a, b⟩) (n : Nat) :
    Runs p p' d₀ ⟨p.next^[n] a, b⟩ := by
  induction n with
  | zero => exact h
  | succ n ih =>
      rw [Function.iterate_succ_apply']
      exact ih.tail (.near .next)

theorem Runs.fars (h : Runs p p' d₀ ⟨a, b⟩) (n : Nat) :
    Runs p p' d₀ ⟨a, p'.next^[n] b⟩ := by
  induction n with
  | zero => exact h
  | succ n ih =>
      rw [Function.iterate_succ_apply']
      exact ih.tail (.far .next)

theorem Runs.farUart (h : Runs p p' d₀ ⟨a, b⟩) (byte : UInt8)
    (hbyte : (sentOctets a.ctx.trace)[b.rx.put.length]? = some byte) (hroom : ¬b.rx.ring.Full) :
    Runs p p' d₀ ⟨a, b.uartRxIsr byte⟩ :=
  h.tail (.far (d := ⟨a, b⟩) (.uart byte hbyte hroom))

end Runs

/-- The near station has the UA on its way while the far board is still sending it. -/
theorem boards_exchange_frames_template :
    farAnswering.pending.length = 7 ∧
      ∃ w, Run Lossless ⟨⟨nearProgram.station, initCtx nearProgram.station zeroMemory, 0, 0, []⟩,
          ⟨farProgram.station, initCtx farProgram.station zeroMemory, 0, 0, []⟩⟩ w ∧
        Refines (duplex nearProgram farProgram ⟨nearCalling, farAnswering⟩) w := by
  have hcalling : Runs nearProgram farProgram ⟨nearProgram.initial, farProgram.initial⟩ ⟨nearCalling, farCalling⟩ :=
    Runs.fars (Runs.nears .refl 19) 19
  have hfirst := Runs.farUart hcalling 0x7E (by decide +kernel) (by decide +kernel)
  have hsecond := Runs.farUart hfirst 0x02 (by decide +kernel) (by decide +kernel)
  have hthird := Runs.farUart hsecond 0x3F (by decide +kernel) (by decide +kernel)
  have hfourth := Runs.farUart hthird 0x7C (by decide +kernel) (by decide +kernel)
  have hfifth := Runs.farUart hfourth 0x0A (by decide +kernel) (by decide +kernel)
  have hsixth := Runs.farUart hfifth 0x7E (by decide +kernel) (by decide +kernel)
  have hanswering : Runs nearProgram farProgram ⟨nearProgram.initial, farProgram.initial⟩
      ⟨nearCalling, farAnswering⟩ := Runs.fars hsixth 26
  have hnear : nearProgram.station.platform.Passive := mockPlatform_passive
  have hfar : farProgram.station.platform.Passive := mockPlatform_passive
  have hframes := boards_exchange_frames hnear hfar hanswering
  exact ⟨by decide +kernel, hframes⟩

end Boards

end AtcHdlc
