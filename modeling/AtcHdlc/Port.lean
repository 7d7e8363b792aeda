import AtcHdlc.Alarms
import AtcHdlc.Peers

/-! The port of `mcu_test_template`: callbacks that call back into the library, and timers that are polled against
a free-running clock of 32 bits. `on_data` sends back what it is given and `on_event` sends a self-test when a
link comes up. The polled timers agree with the bits of the context in spite of the nested calls, and T1 is
never taken for expired too early, wherever the clock wraps (`port_timers`). -/

namespace AtcHdlc

/-- `hdlc_port_config_t`. -/
structure PortConfig where
  localAddr : UInt8
  peerAddr : UInt8
  maxRetries : Nat
  t1Ms : Nat
  t2Ms : Nat

/-- `self_test_payload`. -/
def selfTestPayload : List UInt8 :=
  [0x01, 0x02, 0x03, 0x04, 0x05, 0x06, 0x07, 0x08, 0x09, 0x0A, 0x0B, 0x0C, 0x0D, 0x0E, 0x0F, 0x10]

/-- `SELF_TEST_FRAME_COUNT`. -/
def selfTestFrameCount : Nat := 5

theorem portWindow_pos : 0 < 7 := by decide

theorem portWindow_le : 7 ≤ 7 := by decide

section Port

variable (cfg : PortConfig)

/-- What the port gives to `atc_hdlc_init`, but for the callbacks of the application. No transmit call makes one
of these, so the nested calls need no more. -/
def portCore : Station where
  config := ⟨modeAbm, cfg.localAddr, 512, cfg.maxRetries, cfg.t1Ms, cfg.t2Ms⟩
  platform := ⟨none, none, true, true, true, true⟩
  crc := crcOpsDefault
  txWindow := some ⟨512, 7, portWindow_pos, portWindow_le⟩
  rxCapacity := 516
  mode_abm := rfl
  rxCapacity_min := by simp
  rxCapacity_frame := by simp
  slotCapacity_min := by simp

/-- `on_data`. -/
def portOnData (payload : List UInt8) (s : Ctx) : Ctx := (transmitI (portCore cfg) s (.octets payload)).2

/-- `on_event`. -/
def portOnEvent (event : Event) (s : Ctx) : Ctx :=
  if event = .connAccepted ∨ event = .connReq then (portOnData cfg selfTestPayload)^[selfTestFrameCount] s else s

def portStation : Station :=
  { portCore cfg with platform := ⟨some (portOnData cfg), some (portOnEvent cfg), true, true, true, true⟩ }

/-- Where the main loop is: before `hdlc_port_init`, outside `hdlc_port_run`, or before the check of a timer. -/
inductive PortPoint where
  | setup
  | idle
  | check (t : Timer)
  deriving DecidableEq, Repr

/-- The memory of the port. `running` are `t1_active` and `t2_active`, `startedMs` are `t1_started_ms` and
`t2_started_ms`; `pending` holds the callbacks of the call under way that have not returned. `now` is the time of
which `port_tick_ms` shows 32 bits, and `t1Since` the time at which T1 was last started. -/
structure Port where
  ctx : Ctx
  running : Timer → Bool
  startedMs : Timer → Nat
  now : Nat
  t1Since : Nat
  point : PortPoint
  pending : List Obs

namespace Port

def initial (mem : Memory) (now : Nat) : Port where
  ctx := initCtx (portStation cfg) mem
  running _ := false
  startedMs _ := 0
  now := now
  t1Since := 0
  point := .setup
  pending := []

/-- `port_tick_ms`. -/
def tickMs (p : Port) : Nat := p.now % 2 ^ 32

/-- The callbacks `t1_start`, `t1_stop`, `t2_start` and `t2_stop`. -/
def callback (p : Port) : Obs → Port
  | .t1Start _ => { p with
      startedMs := Function.update p.startedMs .t1 p.tickMs
      running := Function.update p.running .t1 true
      t1Since := p.now }
  | .t1Stop => { p with running := Function.update p.running .t1 false }
  | .t2Start _ => { p with
      startedMs := Function.update p.startedMs .t2 0
      running := Function.update p.running .t2 true }
  | .t2Stop => { p with running := Function.update p.running .t2 false }
  | _ => p

/-- A call of the library, whose callbacks are then made one by one. -/
def call (p : Port) (c : Call) : Port :=
  { p with
    ctx := c.run (portStation cfg) p.ctx
    pending := (c.run (portStation cfg) p.ctx).trace.drop p.ctx.trace.length }

/-- The configured time of a timer. -/
def dueMs : Timer → Nat
  | .t1 => cfg.t1Ms
  | .t2 => cfg.t2Ms

/-- The test of `hdlc_port_run`, with the difference of 32 bits. -/
def Due (p : Port) (t : Timer) : Prop :=
  p.running t = true ∧ (p.tickMs + 2 ^ 32 - p.startedMs t) % 2 ^ 32 ≥ dueMs cfg t

instance (p : Port) (t : Timer) : Decidable (p.Due cfg t) := inferInstanceAs (Decidable (_ ∧ _))

/-- Where `hdlc_port_run` goes on after the check of a timer. -/
def past : Timer → PortPoint
  | .t1 => .check .t2
  | .t2 => .idle

/-- The check of a timer, and the call of its expiry. -/
def check (p : Port) (t : Timer) : Port :=
  if p.Due cfg t then
    { call cfg { p with running := Function.update p.running t false } t.expiry with point := past t }
  else { p with point := past t }

/-- The steps of the program, with time passing between any two of them. -/
inductive Step : Port → Port → Prop where
  | wait (p : Port) (ms : Nat) : Step p { p with now := p.now + ms }
  | callback (p : Port) (o : Obs) (rest : List Obs) (hpending : p.pending = o :: rest) :
      Step p { p.callback o with pending := rest }
  | setup (p : Port) (hpoint : p.point = .setup) (hdone : p.pending = []) :
      Step p { p.call cfg (.linkSetup cfg.peerAddr) with point := .idle }
  | transmit (p : Port) (data : Payload) (hpoint : p.point = .idle) (hdone : p.pending = []) (hdata : data.NonNull) :
      Step p (p.call cfg (.transmitI data))
  | receive (p : Port) (chunk : List UInt8) (hpoint : p.point = .idle) (hdone : p.pending = [])
      (hlen : chunk.length ≤ 256) :
      Step p { (if 0 < chunk.length then p.call cfg (.dataIn chunk) else p) with point := .check .t1 }
  | check (p : Port) (t : Timer) (hpoint : p.point = .check t) (hdone : p.pending = []) : Step p (p.check cfg t)

/-- The runs of the port. -/
abbrev Runs : Port → Port → Prop := Relation.ReflTransGen (Step cfg)

end Port

end Port

section Nested

variable {cfg : PortConfig} {t : Timer}

theorem portCore_wired (t : Timer) : t.Wired (portCore cfg).platform := by cases t <;> exact ⟨rfl, rfl⟩

theorem portStation_wired (t : Timer) : t.Wired (portStation cfg).platform := by cases t <;> exact ⟨rfl, rfl⟩

theorem portCore_passive : (portCore cfg).platform.Passive := by
  constructor
  · rintro f ⟨⟩
  · rintro f ⟨⟩

theorem portOnData_tracked (t : Timer) (payload : List UInt8) (s : Ctx) : Tracked t s (portOnData cfg payload s) :=
  Call.tracked (portCore_wired t) (portCore_passive.tracks t) s (c := .transmitI (.octets payload)) (Or.inl rfl)
    (by cases t <;> exact Call.noConfusion)

/-- Whatever the nested calls do to a timer, the platform hears of it. -/
theorem portStation_tracks (t : Timer) : (portStation cfg).platform.Tracks t := by
  constructor
  · rintro f ⟨⟩ payload s
    exact portOnData_tracked t payload s
  · rintro f ⟨⟩ event s
    refine .ite (fun _ => ?_) fun _ => .refl t s
    generalize selfTestFrameCount = count
    induction count with
    | zero => exact .refl t s
    | succ count ih =>
        rw [Function.iterate_succ_apply']
        exact ih.trans (portOnData_tracked t _ _)

end Nested

section Timers

variable {cfg : PortConfig} {mem : Memory} {p p' : Port}

namespace Port

/-- The flags of the port follow the bits of the context once the callbacks on their way are made, and the start
times are what the callbacks have stored. -/
structure Polls (p : Port) : Prop where
  tracked : ∀ t : Timer, t.after (p.running t) p.pending = t.active p.ctx
  since : p.startedMs .t1 = p.t1Since % 2 ^ 32
  since_le : p.t1Since ≤ p.now
  past : p.startedMs .t2 = 0

theorem running_callback (p : Port) (o : Obs) (t : Timer) :
    (p.callback o).running t = (t.told o).getD (p.running t) := by
  cases o with
  | t1Start ms | t1Stop | t2Start ms | t2Stop => cases t <;> rfl
  | _ => cases t <;> rfl

theorem Polls.callback (h : p.Polls) {o : Obs} {rest : List Obs} (hpending : p.pending = o :: rest) :
    Polls { p.callback o with pending := rest } := by
  have hctx : (p.callback o).ctx = p.ctx := by cases o <;> rfl
  have htracked (t : Timer) : t.after ((p.callback o).running t) rest = t.active (p.callback o).ctx := by
    rw [running_callback, hctx, ← h.tracked t, hpending]
    rfl
  cases o with
  | t1Start ms => exact ⟨htracked, rfl, Nat.le_refl _, h.past⟩
  | t2Start ms => exact ⟨htracked, h.since, h.since_le, rfl⟩
  | _ => exact ⟨htracked, h.since, h.since_le, h.past⟩

/-- A call that tells the port all that it does to the bits. -/
theorem Polls.told (h : p.Polls) (running : Timer → Bool) {c : Call} {point : PortPoint}
    (htracked : ∀ t : Timer, ∃ s : Ctx, s.trace = p.ctx.trace ∧ t.active s = running t ∧
      Tracked t s (c.run (portStation cfg) p.ctx)) :
    Polls { Port.call cfg { p with running := running } c with point := point } := by
  refine ⟨fun t => ?_, h.since, h.since_le, h.past⟩
  obtain ⟨s, hstart, hactive, os, htrace, hafter⟩ := htracked t
  show t.after (running t) ((c.run (portStation cfg) p.ctx).trace.drop p.ctx.trace.length) = _
  rw [htrace, hstart, List.drop_left, ← hactive]
  exact hafter.symm

theorem Polls.active (h : p.Polls) (hdone : p.pending = []) (t : Timer) : p.running t = t.active p.ctx := by
  rw [← h.tracked t, hdone]
  rfl

theorem Polls.call (h : p.Polls) (point : PortPoint) (hdone : p.pending = []) {c : Call} (hlegal : c.Legal)
    (h1 : c ≠ .t1Expired) (h2 : c ≠ .t2Expired) : Polls { p.call cfg c with point := point } := by
  refine h.told p.running fun t => ⟨p.ctx, rfl, (h.active hdone t).symm, ?_⟩
  refine Call.tracked (portStation_wired t) (portStation_tracks t) p.ctx hlegal ?_
  cases t
  · exact h1
  · exact h2

theorem Polls.check (h : p.Polls) (hdone : p.pending = []) (t : Timer) : Polls (p.check cfg t) := by
  unfold Port.check
  split_ifs
  · refine h.told _ fun t' => ?_
    by_cases hsame : t' = t
    · subst hsame
      refine ⟨t'.clear p.ctx, ?_, ?_, expiry_tracked (portStation_wired t') (portStation_tracks t') p.ctx⟩
      · cases t' <;> rfl
      · rw [Function.update_self]
        cases t' <;> rfl
    · refine ⟨p.ctx, rfl, ?_, Call.tracked (portStation_wired t') (portStation_tracks t') p.ctx t.legal_expiry ?_⟩
      · rw [Function.update_of_ne hsame]
        exact (h.active hdone t').symm
      · cases t <;> cases t' <;> first | exact absurd rfl hsame | exact Call.noConfusion
  · exact ⟨h.tracked, h.since, h.since_le, h.past⟩

theorem Polls.step (h : p.Polls) (hstep : Step cfg p p') : p'.Polls := by
  cases hstep with
  | wait ms => exact ⟨h.tracked, h.since, Nat.le_add_right_of_le h.since_le, h.past⟩
  | callback o rest hpending => exact h.callback hpending
  | setup _ hdone => exact h.call _ hdone (c := .linkSetup cfg.peerAddr) trivial Call.noConfusion Call.noConfusion
  | transmit data _ hdone hdata =>
      exact h.call p.point hdone (c := .transmitI data) hdata Call.noConfusion Call.noConfusion
  | receive chunk _ hdone _ =>
      split_ifs
      · exact h.call _ hdone (c := .dataIn chunk) trivial Call.noConfusion Call.noConfusion
      · exact ⟨h.tracked, h.since, h.since_le, h.past⟩
  | check t _ hdone => exact h.check hdone t

theorem polls_initial (now : Nat) : (initial cfg mem now).Polls :=
  ⟨fun t => by cases t <;> rfl, rfl, Nat.zero_le now, rfl⟩

/-- The expiry of a timer is called while it runs. -/
theorem Step.onTime (h : p.Polls) (hstep : Step cfg p p') (hreach : ReachableBy (portStation cfg) mem OnTime p.ctx) :
    ReachableBy (portStation cfg) mem OnTime p'.ctx := by
  cases hstep with
  | wait ms => exact hreach
  | callback o rest _ => cases o <;> exact hreach
  | setup _ _ =>
      exact hreach.call (.linkSetup cfg.peerAddr) trivial (onTime_of_ne Call.noConfusion Call.noConfusion)
  | transmit data _ _ hdata =>
      exact hreach.call (.transmitI data) hdata (onTime_of_ne Call.noConfusion Call.noConfusion)
  | receive chunk _ _ _ =>
      split_ifs
      · exact hreach.call (.dataIn chunk) trivial (onTime_of_ne Call.noConfusion Call.noConfusion)
      · exact hreach
  | check t _ hdone =>
      unfold Port.check
      split_ifs with hdue
      · refine hreach.call t.expiry t.legal_expiry fun t' heq => ?_
        have hsame : t = t' := by cases t <;> cases t' <;> first | rfl | exact Call.noConfusion heq
        rw [← hsame, ← h.active hdone t]
        exact hdue.1
      · exact hreach

theorem Runs.polls {now : Nat} (h : Runs cfg (initial cfg mem now) p) :
    p.Polls ∧ ReachableBy (portStation cfg) mem OnTime p.ctx := by
  induction h with
  | refl => exact ⟨polls_initial now, .init⟩
  | tail _ hstep ih => exact ⟨ih.1.step hstep, hstep.onTime ih.1 ih.2⟩

/-- The difference of 32 bits is the time since the start of T1, less whole turns of the clock. -/
theorem Polls.elapsed (h : p.Polls) :
    (p.tickMs + 2 ^ 32 - p.startedMs .t1) % 2 ^ 32 = (p.now - p.t1Since) % 2 ^ 32 := by
  have hle := h.since_le
  rw [tickMs, h.since]
  omega

end Port

/-- In every run of the port, whatever is received, when the clock is read and where it wraps: the flags agree
with the bits of the context between calls, an expiry is called only for a timer that runs, T1 counts as expired
no earlier than `t1_ms` after its start and, within a turn of the clock, from then on; and T2 counts as expired
at once, but for the first `t2_ms` of each turn of the clock. -/
theorem port_timers {now : Nat} (h : Port.Runs cfg (.initial cfg mem now) p) :
    ReachableBy (portStation cfg) mem OnTime p.ctx ∧
      (p.pending = [] → ∀ t : Timer, p.running t = t.active p.ctx) ∧
      (p.Due cfg .t1 → p.t1Since + cfg.t1Ms ≤ p.now) ∧
      (p.running .t1 = true → p.t1Since + cfg.t1Ms ≤ p.now → p.now < p.t1Since + 2 ^ 32 → p.Due cfg .t1) ∧
      (p.running .t2 = true → (p.Due cfg .t2 ↔ cfg.t2Ms ≤ p.now % 2 ^ 32)) := by
  obtain ⟨hpolls, hreach⟩ := h.polls
  refine ⟨hreach, fun hdone t => hpolls.active hdone t, ?_, ?_, ?_⟩
  · rintro ⟨-, hdue⟩
    rw [hpolls.elapsed, Port.dueMs] at hdue
    have hmod := Nat.mod_le (p.now - p.t1Since) (2 ^ 32)
    have hle := hpolls.since_le
    omega
  · intro hrunning hdue hturn
    refine ⟨hrunning, ?_⟩
    rw [hpolls.elapsed, Port.dueMs, Nat.mod_eq_of_lt (by omega)]
    omega
  · intro hrunning
    rw [Port.Due, hpolls.past, Port.dueMs, Nat.sub_zero, Nat.add_mod_right, Port.tickMs, Nat.mod_mod]
    exact and_iff_right hrunning

/-- The next callback of the call under way, if there is one. -/
def Port.hear (p : Port) : Port :=
  match p.pending with
  | o :: rest => { p.callback o with pending := rest }
  | [] => p

theorem Port.Runs.hears (h : Port.Runs cfg p p') (n : Nat) : Port.Runs cfg p (Port.hear^[n] p') := by
  induction n with
  | zero => exact h
  | succ n ih =>
      rw [Function.iterate_succ_apply']
      generalize Port.hear^[n] p' = q at ih
      unfold Port.hear
      cases hpending : q.pending with
      | nil => exact ih
      | cons o rest => exact ih.tail (.callback q o rest hpending)

/-- The configuration of the port's README. -/
def portConfig : PortConfig := ⟨0x02, 0x01, 10, 500, 1⟩

/-- The SABM is sent, and T1 started, 300 ms before the clock wraps. -/
def portCalling : Port :=
  Port.hear^[9] { (Port.initial portConfig zeroMemory (2 ^ 32 - 300)).call portConfig (.linkSetup 0x01) with
    point := .idle }

/-- The first run of the loop comes 500 ms later. -/
def portWaiting : Port := { portCalling with now := portCalling.now + 500, point := .check .t1 }

/-- T1 is taken for expired across the wrap. -/
theorem port_timers_readme :
    portWaiting.tickMs = 200 ∧ portWaiting.Due portConfig .t1 ∧ portWaiting.t1Since + 500 ≤ portWaiting.now := by
  have hcalling : Port.Runs portConfig (.initial portConfig zeroMemory (2 ^ 32 - 300)) portCalling :=
    Port.Runs.hears (.single (.setup _ rfl rfl)) 9
  have hlater : Port.Runs portConfig (.initial portConfig zeroMemory (2 ^ 32 - 300))
      { portCalling with now := portCalling.now + 500 } := hcalling.tail (.wait portCalling 500)
  have hwaiting : Port.Runs portConfig (.initial portConfig zeroMemory (2 ^ 32 - 300)) portWaiting :=
    hlater.tail (.receive _ [] (by decide +kernel) (by decide +kernel) (Nat.zero_le 256))
  obtain ⟨-, -, hearly, hlate, -⟩ := port_timers hwaiting
  have hdue : portWaiting.Due portConfig .t1 :=
    hlate (by decide +kernel) (by decide +kernel) (by decide +kernel)
  exact ⟨by decide +kernel, hdue, hearly hdue⟩

end Timers

/-! ### What is sent back -/

section Echo

variable {cfg : PortConfig} {mem : Memory} {s s' s'' : Ctx}

/-- The payloads that `atc_hdlc_transmit_i` has accepted. -/
def accepted (os : List Obs) : List (List UInt8) :=
  os.filterMap fun
    | .accept payload => some payload
    | _ => none

/-- The payloads that the callbacks offer: what `on_data` is given, and five times the self-test for every link
that comes up. -/
def offered (os : List Obs) : List (List UInt8) :=
  os.flatMap fun
    | .data payload => [payload]
    | .event .connAccepted | .event .connReq => List.replicate selfTestFrameCount selfTestPayload
    | _ => []

theorem accepted_append (os os' : List Obs) : accepted (os ++ os') = accepted os ++ accepted os' :=
  List.filterMap_append

theorem offered_append (os os' : List Obs) : offered (os ++ os') = offered os ++ offered os' := List.flatMap_append

/-- Neither an offer nor an acceptance. -/
def Soundless : Obs → Prop
  | .accept _ | .data _ | .event _ => False
  | _ => True

theorem accepted_soundless {os : List Obs} (h : ∀ o ∈ os, Soundless o) : accepted os = [] := by
  refine List.filterMap_eq_nil_iff.mpr fun o ho => ?_
  have hunheard := h o ho
  cases o with
  | accept => exact hunheard.elim
  | _ => rfl

/-- From `s` to `s'` nothing is offered or accepted. -/
def Mute (s s' : Ctx) : Prop := ∃ os, s'.trace = s.trace ++ os ∧ ∀ o ∈ os, Soundless o

theorem Mute.refl (s : Ctx) : Mute s s := ⟨[], (List.append_nil _).symm, fun _ h => nomatch h⟩

theorem Mute.same (htrace : s'.trace = s.trace) : Mute s s' :=
  ⟨[], htrace.trans (List.append_nil _).symm, fun _ h => nomatch h⟩

theorem Mute.trans (h : Mute s s') (h' : Mute s' s'') : Mute s s'' := by
  obtain ⟨os, htrace, hos⟩ := h
  obtain ⟨os', htrace', hos'⟩ := h'
  refine ⟨os ++ os', ?_, List.forall_mem_append.mpr ⟨hos, hos'⟩⟩
  rw [htrace', htrace, List.append_assoc]

theorem Mute.log {o : Obs} (ho : Soundless o) (htrace : s'.trace = s.trace ++ [o]) : Mute s s' :=
  ⟨[o], htrace, List.forall_mem_singleton.mpr ho⟩

theorem Mute.put (st : Station) (s : Ctx) (f : Frame) : Mute s (s.put st f) := by
  refine ⟨f.obs st.crc s.moment, rfl, fun o ho => ?_⟩
  rcases Frame.mem_obs ho with rfl | ⟨byte, flush, rfl⟩
  · trivial
  · trivial

/-- What a timer function may log. -/
theorem Mute.timer {c : Prop} [Decidable c] {o : Obs} (ho : Soundless o)
    (htrace : s'.trace = s.trace ++ if c then [o] else []) : Mute s s' := by
  refine ⟨_, htrace, fun o' ho' => ?_⟩
  split_ifs at ho'
  · rw [List.mem_singleton.mp ho']
    exact ho
  · exact nomatch ho'

theorem Mute.reset (st : Station) (s : Ctx) : Mute s (resetState st s) := by
  unfold resetState
  extract_lets logged cleared emptied lowered stopped
  have hlogged : Mute s cleared := .log (o := .reset) trivial rfl
  have hemptied : Mute cleared lowered := by
    refine .same ?_
    unfold lowered emptied clearSlotLens
    cases st.txWindow <;> rfl
  exact ((hlogged.trans hemptied).trans (.timer (o := .t1Stop) trivial rfl)).trans (.timer (o := .t2Stop) trivial rfl)

/-- From `s` to `s'` nothing is accepted but what is offered, in this order. -/
def EchoesOnly (s s' : Ctx) : Prop := ∃ os, s'.trace = s.trace ++ os ∧ (accepted os).Sublist (offered os)

theorem Mute.echoes (h : Mute s s') : EchoesOnly s s' := by
  obtain ⟨os, htrace, hos⟩ := h
  refine ⟨os, htrace, ?_⟩
  rw [accepted_soundless hos]
  exact List.nil_sublist _

theorem EchoesOnly.trans (h : EchoesOnly s s') (h' : EchoesOnly s' s'') : EchoesOnly s s'' := by
  obtain ⟨os, htrace, hsub⟩ := h
  obtain ⟨os', htrace', hsub'⟩ := h'
  refine ⟨os ++ os', ?_, ?_⟩
  · rw [htrace', htrace, List.append_assoc]
  · rw [accepted_append, offered_append]
    exact hsub.append hsub'

/-- A nested transmission accepts its payload, or nothing. -/
theorem portOnData_accepts (cfg : PortConfig) (payload : List UInt8) (s : Ctx) :
    ∃ os, (portOnData cfg payload s).trace = s.trace ++ os ∧ (accepted os).Sublist [payload] := by
  rcases @transmitI_cases (portCore cfg) s (.octets payload) with hsame | ⟨w, -, -, -, -, -, haccepted⟩
  · exact ⟨[], by rw [portOnData, hsame, List.append_nil], List.nil_sublist _⟩
  · rw [portOnData, haccepted, acceptI_eq s (Or.inl rfl)]
    extract_lets next logged stored sent stopped
    have hsent : Mute stored sent := .put _ _ _
    have hstopped : Mute sent stopped := .timer (o := .t2Stop) trivial rfl
    have hrest : Mute stored (if outstanding s = 0 then t1Start (portCore cfg) stopped else stopped) := by
      split_ifs
      · exact (hsent.trans hstopped).trans (.timer (o := .t1Start cfg.t1Ms) trivial rfl)
      · exact hsent.trans hstopped
    obtain ⟨os, htrace, hos⟩ := hrest
    refine ⟨[.accept payload] ++ os, htrace.trans (List.append_assoc ..), ?_⟩
    rw [accepted_append, accepted_soundless hos, List.append_nil]
    exact .refl _

theorem echoes_onData (payload : List UInt8) (s : Ctx) : EchoesOnly s (onData (portStation cfg) s payload) := by
  obtain ⟨os, htrace, hsub⟩ := portOnData_accepts cfg payload (s.log (.data payload))
  refine ⟨[.data payload] ++ os, htrace.trans (List.append_assoc ..), ?_⟩
  rw [accepted_append, offered_append]
  exact hsub.trans (List.sublist_append_left _ _)

/-- The self-test. -/
theorem selfTest_accepts (cfg : PortConfig) (count : Nat) (s : Ctx) : ∃ os,
    ((portOnData cfg selfTestPayload)^[count] s).trace = s.trace ++ os ∧
      (accepted os).Sublist (List.replicate count selfTestPayload) := by
  induction count with
  | zero => exact ⟨[], (List.append_nil _).symm, .slnil⟩
  | succ count ih =>
      obtain ⟨os, htrace, hsub⟩ := ih
      obtain ⟨os', htrace', hsub'⟩ := portOnData_accepts cfg selfTestPayload
        ((portOnData cfg selfTestPayload)^[count] s)
      refine ⟨os ++ os', ?_, ?_⟩
      · rw [Function.iterate_succ_apply', htrace', htrace, List.append_assoc]
      · rw [accepted_append, List.replicate_succ']
        exact hsub.append hsub'

theorem echoes_onEvent (event : Event) (s : Ctx) : EchoesOnly s (onEvent (portStation cfg) s event) := by
  show EchoesOnly s (portOnEvent cfg event (s.log (.event event)))
  unfold portOnEvent
  split_ifs with hup
  · obtain ⟨os, htrace, hsub⟩ := selfTest_accepts cfg selfTestFrameCount (s.log (.event event))
    refine ⟨[.event event] ++ os, htrace.trans (List.append_assoc ..), ?_⟩
    rw [accepted_append, offered_append]
    have hoffer : offered [.event event] = List.replicate selfTestFrameCount selfTestPayload := by
      rcases hup with rfl | rfl <;> rfl
    rw [hoffer]
    exact hsub.trans (List.sublist_append_left _ _)
  · exact ⟨[.event event], rfl, List.nil_sublist _⟩

theorem Effect.echoes {ctrl : UInt8} (h : Effect (portStation cfg) ctrl s s') : EchoesOnly s s' := by
  cases h with
  | put f => exact (Mute.put _ s f).echoes
  | t1Start => exact (Mute.timer (o := .t1Start cfg.t1Ms) trivial rfl).echoes
  | t1Stop => exact (Mute.timer (o := .t1Stop) trivial rfl).echoes
  | t2Start => exact (Mute.timer (o := .t2Start cfg.t2Ms) trivial rfl).echoes
  | t2Stop => exact (Mute.timer (o := .t2Stop) trivial rfl).echoes
  | data payload => exact echoes_onData payload s
  | event event => exact echoes_onEvent event s
  | reset => exact (Mute.reset _ s).echoes
  | ack _ _ => exact (Mute.log (o := .acked (ctrlNr ctrl)) trivial rfl).echoes
  | nullWindow _ _ => exact (Mute.log (o := .nullWindow) trivial rfl).echoes
  | receive payload => exact (Mute.log (o := .received payload) trivial rfl).echoes
  | link state => exact (Mute.same rfl).echoes
  | rejException => exact (Mute.same rfl).echoes
  | remoteBusy busy => exact (Mute.same rfl).echoes
  | arm fromSeq _ _ _ => exact (Mute.same rfl).echoes
  | frmr flags => exact (Mute.same rfl).echoes

theorem rxBytes_echoes (s : Ctx) (bytes : List UInt8) : EchoesOnly s (rxBytes (portStation cfg) s bytes) := by
  refine rxBytes_induct (P := EchoesOnly s) (Q := fun _ => EchoesOnly s) ?_ ?_ ?_ (fun _ _ h => h)
    (Mute.refl s).echoes bytes
  · exact fun s' u h => h.trans (Mute.same rfl).echoes
  · exact fun s' address ctrl info h => h.trans (Mute.log (o := .dispatch address ctrl info) trivial rfl).echoes
  · exact fun ctrl s' s'' he h => h.trans he.echoes

theorem retransmitLoop_mute (w : TxWindow) (endVs fuel slotIdx : Nat) (s : Ctx) :
    Mute s (retransmitLoop (portStation cfg) w endVs fuel slotIdx s) := by
  induction fuel generalizing slotIdx s with
  | zero => exact .refl s
  | succ fuel ih =>
      simp only [retransmitLoop, frameSend_octets]
      split_ifs
      · exact .refl s
      · have hread : Mute s (s.log (.slotRead slotIdx)) := .log (o := .slotRead slotIdx) trivial rfl
        have hsent := hread.trans (Mute.put (portStation cfg) _
          ⟨s.peerAddress, iCtrl s.vs s.vr false, readSlot w (s.log (.slotRead slotIdx)) slotIdx⟩)
        have hstep (u : Ctx) (vs : Nat) : Mute u { u with vs := vs } := .same rfl
        exact (hsent.trans (hstep _ _)).trans (ih _ _)

theorem retransmitIfPending_mute (s : Ctx) : Mute s (retransmitIfPending (portStation cfg) s) := by
  unfold retransmitIfPending
  split_ifs
  · have hback : Mute s { s with retransmitPending := false, vs := s.retransmitFrom } := .same rfl
    exact (hback.trans (retransmitLoop_mute _ _ 8 _ _)).trans (.timer (o := .t1Start cfg.t1Ms) trivial rfl)
  · exact .refl s

theorem Deed.echoes {c : Call} (hc : ∀ data, c ≠ .transmitI data) (h : Deed (portStation cfg) c s s') :
    EchoesOnly s s' := by
  cases h with
  | put f => exact (Mute.put _ s f).echoes
  | loose crc os hos _ =>
      refine Mute.echoes ⟨os, rfl, fun o ho => ?_⟩
      have hloose := hos o ho
      cases o with
      | send | frame | nullRead => trivial
      | _ => exact hloose.elim
  | t1Start => exact (Mute.timer (o := .t1Start cfg.t1Ms) trivial rfl).echoes
  | t2Stop => exact (Mute.timer (o := .t2Stop) trivial rfl).echoes
  | event event => exact echoes_onEvent event s
  | reset _ => exact (Mute.reset _ s).echoes
  | accept w data h _ => exact absurd h (hc data)
  | _ => exact (Mute.same rfl).echoes

theorem Call.echoes (cfg : PortConfig) (s : Ctx) {c : Call} (hlegal : c.Legal) (hc : ∀ data, c ≠ .transmitI data) :
    EchoesOnly s (c.run (portStation cfg) s) := by
  by_cases hin : ∃ bytes, c = .dataIn bytes
  · obtain ⟨bytes, rfl⟩ := hin
    exact (rxBytes_echoes s bytes).trans (retransmitIfPending_mute _).echoes
  · exact (Call.deeds (portStation cfg) s hlegal fun bytes h => hin ⟨bytes, h⟩).induct (P := EchoesOnly s)
      (fun _ _ hd h => h.trans (hd.echoes hc)) (Mute.refl s).echoes

/-- In every run in which the application transmits nothing of its own, the port accepts for transmission what
its peer has sent and the self-tests, in this order and each at most once: an echo may be missing where the
window is full, but none is made up, doubled or overtaken. -/
theorem port_echoes (h : ReachableBy (portStation cfg) mem (fun _ c => ∀ data, c ≠ .transmitI data) s) :
    (accepted s.trace).Sublist (offered s.trace) := by
  induction h with
  | init => exact .slnil
  | call c _ hlegal hc ih =>
      obtain ⟨os, htrace, hsub⟩ := Call.echoes cfg _ hlegal hc
      rw [htrace, accepted_append, offered_append]
      exact ih.append hsub

/-- The link comes up, and the host sends one octet. -/
def portEchoing : Ctx :=
  [.linkSetup 0x01, .dataIn (Frame.octets crcOpsDefault ⟨0x01, uCtrl uUa true, []⟩),
    .dataIn (Frame.octets crcOpsDefault ⟨0x02, iCtrl 0 0 false, [0x42]⟩)].foldl
    (Call.run (portStation portConfig)) (initCtx (portStation portConfig) zeroMemory)

theorem port_echoes_readme :
    accepted portEchoing.trace = List.replicate 5 selfTestPayload ++ [[0x42]] ∧
      (accepted portEchoing.trace).Sublist (offered portEchoing.trace) := by
  have hreach : ReachableBy (portStation portConfig) zeroMemory (fun _ c => ∀ data, c ≠ .transmitI data) portEchoing :=
    ReachableBy.init.foldl (by simp [Call.Legal])
      ⟨fun _ => Call.noConfusion, fun _ => Call.noConfusion, fun _ => Call.noConfusion, trivial⟩
  exact ⟨by decide +kernel, port_echoes hreach⟩

end Echo

end AtcHdlc
