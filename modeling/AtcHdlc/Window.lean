import AtcHdlc.Lib.Serial
import AtcHdlc.Runs

/-! The transmit window against unbounded counters. The trace tells what the current session has
accepted and how much of it is acknowledged; `WindowInv` says how V(A), V(S), the slot cursor and the
slots represent that, and every call of a station keeps it, whatever the line delivers. -/

namespace AtcHdlc

/-- The payloads that `atc_hdlc_transmit_i` accepted since the last `reset_state`, and the number of
them that are acknowledged. -/
structure Session where
  sent : List (List UInt8)
  acked : Nat

namespace Session

def start : Session := ⟨[], 0⟩

/-- An acknowledgement moves the counter on to the next number with the residue N(R). -/
def step (σ : Session) : Obs → Session
  | .reset => start
  | .accept payload => { σ with sent := σ.sent ++ [payload] }
  | .acked nr => { σ with acked := Serial.advance mod8 σ.acked nr }
  | _ => σ

end Session

def session (trace : List Obs) : Session := trace.foldl Session.step .start

/-- The control octet of the last dispatched frame. -/
def lastCtrl (trace : List Obs) : Option UInt8 :=
  trace.foldl (fun last o => match o with | .dispatch _ ctrl _ => some ctrl | _ => last) none

/-- Observations that neither concern the session nor dispatch a frame. -/
def Neutral : Obs → Prop
  | .reset | .accept _ | .acked _ | .dispatch _ _ _ => False
  | _ => True

theorem session_snoc (trace : List Obs) (o : Obs) :
    session (trace ++ [o]) = (session trace).step o := by
  rw [session, List.foldl_append]
  rfl

theorem session_neutral (trace : List Obs) {os : List Obs} (h : ∀ o ∈ os, Neutral o) :
    session (trace ++ os) = session trace := by
  induction os generalizing trace with
  | nil => rw [List.append_nil]
  | cons o os ih =>
      have ho : session (trace ++ [o]) = session trace := by
        have hneutral := h o List.mem_cons_self
        rw [session_snoc]
        cases o with
        | reset | accept | acked | dispatch => exact hneutral.elim
        | _ => rfl
      rw [List.append_cons, ih _ fun o' ho' => h o' (List.mem_cons_of_mem _ ho'), ho]

theorem lastCtrl_neutral (trace : List Obs) {os : List Obs} (h : ∀ o ∈ os, Neutral o) :
    lastCtrl (trace ++ os) = lastCtrl trace := by
  induction os generalizing trace with
  | nil => rw [List.append_nil]
  | cons o os ih =>
      have ho : lastCtrl (trace ++ [o]) = lastCtrl trace := by
        have hneutral := h o List.mem_cons_self
        rw [lastCtrl, List.foldl_append]
        cases o with
        | reset | accept | acked | dispatch => exact hneutral.elim
        | _ => rfl
      rw [List.append_cons, ih _ fun o' ho' => h o' (List.mem_cons_of_mem _ ho'), ho]

/-- The acknowledgement `nr` after a trace: it is the N(R) of the frame being handled, and it moves the
counter to a number that does not pass what was sent, in a window shorter than the modulus. -/
structure AckOk (trace : List Obs) (nr : Nat) : Prop where
  received : ∃ ctrl, lastCtrl trace = some ctrl ∧ ctrlNr ctrl = nr
  le_sent : Serial.advance mod8 (session trace).acked nr ≤ (session trace).sent.length
  sent_lt : (session trace).sent.length < (session trace).acked + mod8

/-- Every acknowledgement of a trace is in order. -/
def WellAcked (trace : List Obs) : Prop :=
  ∀ l nr r, trace = l ++ .acked nr :: r → AckOk l nr

theorem WellAcked.snoc {trace : List Obs} (h : WellAcked trace) {o : Obs}
    (ho : ∀ nr, o = .acked nr → AckOk trace nr) : WellAcked (trace ++ [o]) := by
  intro l nr r heq
  rcases List.eq_nil_or_concat r with rfl | ⟨r, last, rfl⟩
  · obtain ⟨hl, hlast⟩ := List.append_inj' heq rfl
    rw [← hl]
    exact ho nr (List.singleton_inj.mp hlast)
  · have hassoc : l ++ .acked nr :: r.concat last = (l ++ .acked nr :: r) ++ [last] := by
      simp [List.concat_eq_append]
    rw [hassoc] at heq
    exact h l nr r (List.append_inj' heq rfl).1

theorem WellAcked.neutral {trace : List Obs} (h : WellAcked trace) {os : List Obs}
    (hos : ∀ o ∈ os, Neutral o) : WellAcked (trace ++ os) := by
  induction os generalizing trace with
  | nil =>
      rw [List.append_nil]
      exact h
  | cons o os ih =>
      have ho : WellAcked (trace ++ [o]) := by
        refine h.snoc fun nr hnr => ?_
        have hneutral := hos o List.mem_cons_self
        rw [hnr] at hneutral
        exact hneutral.elim
      rw [List.append_cons]
      exact ih ho fun o' ho' => hos o' (List.mem_cons_of_mem _ ho')

/-! ### The invariant -/

/-- Slots of the flat buffer that hold `m` octets each without overlapping, as the code finds them with
its 32-bit products. -/
def SlotsApart (w : TxWindow) (m : Nat) : Prop :=
  ∀ i < w.slotCount, ∀ j < w.slotCount, i ≠ j →
    slotOffset w i + m ≤ slotOffset w j ∨ slotOffset w j + m ≤ slotOffset w i

/-- How a context represents its session: V(A) and V(S) modulo 8, the cursor and the slots modulo the
slot count. Where the slots are apart, all payloads still in a slot are kept, acknowledged or not. -/
structure WindowInv (w : TxWindow) (s : Ctx) : Prop where
  acked_le : (session s.trace).acked ≤ (session s.trace).sent.length
  sent_le : (session s.trace).sent.length ≤ (session s.trace).acked + w.slotCount
  va : s.va = (session s.trace).acked % mod8
  vs : s.vs = (session s.trace).sent.length % mod8
  cursor : s.txNextSlot = (session s.trace).sent.length % w.slotCount
  stored : ∀ m, SlotsApart w m → (∀ payload ∈ (session s.trace).sent, payload.length ≤ m) →
    ∀ k (hk : k < (session s.trace).sent.length),
      (session s.trace).sent.length ≤ k + w.slotCount →
        readSlot w s (k % w.slotCount) = (session s.trace).sent[k]
  fits : ∀ payload ∈ (session s.trace).sent, payload.length ≤ w.slotCapacity
  from_lt : s.retransmitFrom < mod8
  acks : WellAcked s.trace

/-- A change that the transmit window does not notice. -/
structure Quiet (s s' : Ctx) : Prop where
  va : s'.va = s.va
  vs : s'.vs = s.vs
  cursor : s'.txNextSlot = s.txNextSlot
  retransmitFrom : s'.retransmitFrom = s.retransmitFrom
  slots : s'.slots = s.slots
  slotLens : s'.slotLens = s.slotLens
  trace : ∃ os, (∀ o ∈ os, Neutral o) ∧ s'.trace = s.trace ++ os

namespace Quiet

theorem of_trace {s s' : Ctx} (hva : s'.va = s.va) (hvs : s'.vs = s.vs)
    (hcursor : s'.txNextSlot = s.txNextSlot) (hfrom : s'.retransmitFrom = s.retransmitFrom)
    (hslots : s'.slots = s.slots) (hlens : s'.slotLens = s.slotLens) (htrace : s'.trace = s.trace) :
    Quiet s s' :=
  ⟨hva, hvs, hcursor, hfrom, hslots, hlens, [], by simp, by rw [htrace, List.append_nil]⟩

theorem trans {s t u : Ctx} (h : Quiet s t) (h' : Quiet t u) : Quiet s u := by
  obtain ⟨os, hos, htrace⟩ := h.trace
  obtain ⟨os', hos', htrace'⟩ := h'.trace
  refine ⟨h'.va.trans h.va, h'.vs.trans h.vs, h'.cursor.trans h.cursor,
    h'.retransmitFrom.trans h.retransmitFrom, h'.slots.trans h.slots, h'.slotLens.trans h.slotLens,
    os ++ os', ?_, ?_⟩
  · intro o ho
    rcases List.mem_append.mp ho with ho | ho
    · exact hos o ho
    · exact hos' o ho
  · rw [htrace', htrace, List.append_assoc]

theorem logs (s : Ctx) {os : List Obs} (h : ∀ o ∈ os, Neutral o) : Quiet s (s.logs os) :=
  ⟨rfl, rfl, rfl, rfl, rfl, rfl, os, h, rfl⟩

theorem put (st : Station) (s : Ctx) (f : Frame) : Quiet s (s.put st f) := by
  refine ⟨rfl, rfl, rfl, rfl, rfl, rfl, f.obs st.crc s.moment, fun o ho => ?_, rfl⟩
  rcases Frame.mem_obs ho with rfl | ⟨byte, flush, rfl⟩
  · trivial
  · trivial

theorem t1Start (st : Station) (s : Ctx) : Quiet s (t1Start st s) :=
  ⟨rfl, rfl, rfl, rfl, rfl, rfl, _, by intro o ho; split_ifs at ho <;> simp_all [Neutral], rfl⟩

theorem t1Stop (st : Station) (s : Ctx) : Quiet s (t1Stop st s) :=
  ⟨rfl, rfl, rfl, rfl, rfl, rfl, _, by intro o ho; split_ifs at ho <;> simp_all [Neutral], rfl⟩

theorem t2Start (st : Station) (s : Ctx) : Quiet s (t2Start st s) :=
  ⟨rfl, rfl, rfl, rfl, rfl, rfl, _, by intro o ho; split_ifs at ho <;> simp_all [Neutral], rfl⟩

theorem t2Stop (st : Station) (s : Ctx) : Quiet s (t2Stop st s) :=
  ⟨rfl, rfl, rfl, rfl, rfl, rfl, _, by intro o ho; split_ifs at ho <;> simp_all [Neutral], rfl⟩

theorem onData {st : Station} (hp : st.platform.Passive) (s : Ctx) (payload : List UInt8) :
    Quiet s (onData st s payload) := by
  rw [onData_passive hp, dataObs]
  refine logs s fun o ho => ?_
  split_ifs at ho <;> simp_all [Neutral]

theorem onEvent {st : Station} (hp : st.platform.Passive) (s : Ctx) (event : Event) :
    Quiet s (onEvent st s event) := by
  rw [onEvent_passive hp, eventObs]
  refine logs s fun o ho => ?_
  split_ifs at ho <;> simp_all [Neutral]

end Quiet

theorem readSlot_congr {w : TxWindow} {s s' : Ctx} (hslots : s'.slots = s.slots)
    (hlens : s'.slotLens = s.slotLens) (slot : Nat) : readSlot w s' slot = readSlot w s slot := by
  rw [readSlot, readSlot, hslots, hlens]

theorem WindowInv.quiet {w : TxWindow} {s s' : Ctx} (h : WindowInv w s) (hq : Quiet s s') :
    WindowInv w s' := by
  obtain ⟨os, hos, htrace⟩ := hq.trace
  have hsession : session s'.trace = session s.trace := by rw [htrace, session_neutral _ hos]
  refine ⟨?_, ?_, ?_, ?_, ?_, ?_, ?_, ?_, ?_⟩
  · rw [hsession]
    exact h.acked_le
  · rw [hsession]
    exact h.sent_le
  · rw [hsession, hq.va]
    exact h.va
  · rw [hsession, hq.vs]
    exact h.vs
  · rw [hsession, hq.cursor]
    exact h.cursor
  · intro m hapart hfits k hk hlive
    simp only [hsession] at hk hlive hfits ⊢
    rw [readSlot_congr hq.slots hq.slotLens]
    exact h.stored m hapart hfits k hk hlive
  · rw [hsession]
    exact h.fits
  · rw [hq.retransmitFrom]
    exact h.from_lt
  · rw [htrace]
    exact h.acks.neutral hos

/-- The test of `validate_nr` on the counters behind V(A) and V(S). -/
theorem nrValid_iff {s : Ctx} {a b nr : Nat} (hva : s.va = a % mod8) (hvs : s.vs = b % mod8)
    (hle : a ≤ b) (hlt : b < a + mod8) (hnr : nr < mod8) :
    nrValid s nr = true ↔ Serial.advance mod8 a nr ≤ b := by
  simp only [nrValid, decide_eq_true_eq, hva, hvs, u8, Serial.advance, mod8] at *
  omega

theorem WindowInv.lt_mod8 {w : TxWindow} {s : Ctx} (h : WindowInv w s) :
    (session s.trace).sent.length < (session s.trace).acked + mod8 := by
  have hle := h.sent_le
  have hcount := w.slotCount_le
  simp only [mod8]
  omega

section Effects

variable {st : Station} {w : TxWindow}

theorem session_reset (trace : List Obs) : session (trace ++ [.reset]) = .start :=
  session_snoc trace .reset

theorem lastCtrl_reset (trace : List Obs) : lastCtrl (trace ++ [.reset]) = lastCtrl trace := by
  rw [lastCtrl, List.foldl_append]
  rfl

theorem lastCtrl_acked (trace : List Obs) (nr : Nat) :
    lastCtrl (trace ++ [.acked nr]) = lastCtrl trace := by
  rw [lastCtrl, List.foldl_append]
  rfl

variable (st) in
/-- `reset_state` up to the timers. -/
def clearState (s : Ctx) : Ctx :=
  { clearSlotLens st { s.log .reset with vs := 0, vr := 0, va := 0, txNextSlot := 0 } with
    rejException := false, remoteBusy := false, localBusy := false, n2 := 0 }

theorem resetState_quiet (s : Ctx) : Quiet (clearState st s) (resetState st s) :=
  (Quiet.t1Stop st _).trans (Quiet.t2Stop st _)

theorem clearSlotLens_eq (s : Ctx) :
    clearSlotLens st s = { s with slotLens := (clearSlotLens st s).slotLens } := by
  unfold clearSlotLens
  cases st.txWindow <;> rfl

/-- `reset_state` starts a new, empty session. -/
theorem WindowInv.resetState {s : Ctx} (h : WindowInv w s) : WindowInv w (resetState st s) := by
  refine WindowInv.quiet ?_ (resetState_quiet s)
  have htrace : (clearState st s).trace = s.trace ++ [.reset] := by
    rw [clearState, clearSlotLens_eq]
    rfl
  have hsession : session (clearState st s).trace = .start := by rw [htrace, session_reset]
  refine ⟨?_, ?_, ?_, ?_, ?_, ?_, ?_, ?_, ?_⟩
  · rw [hsession]
    exact Nat.le_refl 0
  · rw [hsession]
    exact Nat.zero_le _
  · rw [hsession, clearState, clearSlotLens_eq]
    rfl
  · rw [hsession, clearState, clearSlotLens_eq]
    rfl
  · rw [hsession, clearState, clearSlotLens_eq]
    exact (Nat.zero_mod _).symm
  · intro _ _ _ k hk
    simp only [hsession] at hk
    exact absurd hk (Nat.not_lt_zero k)
  · rw [hsession]
    exact fun payload hmem => absurd hmem List.not_mem_nil
  · rw [clearState, clearSlotLens_eq]
    exact h.from_lt
  · rw [htrace]
    exact h.acks.snoc fun nr hnr => Obs.noConfusion hnr

/-- A valid N(R) moves the counter behind V(A). -/
theorem WindowInv.ack {s : Ctx} (h : WindowInv w s) {ctrl : UInt8}
    (hlast : lastCtrl s.trace = some ctrl) (hvalid : nrValid s (ctrlNr ctrl)) :
    WindowInv w { s.log (.acked (ctrlNr ctrl)) with va := ctrlNr ctrl, n2 := 0 } := by
  have hle : Serial.advance mod8 (session s.trace).acked (ctrlNr ctrl) ≤
      (session s.trace).sent.length :=
    (nrValid_iff h.va h.vs h.acked_le h.lt_mod8 (ctrlNr_lt ctrl)).mp hvalid
  have hge := Serial.le_advance (m := mod8) (session s.trace).acked (ctrlNr ctrl)
  have hsession : session (s.trace ++ [.acked (ctrlNr ctrl)]) =
      ⟨(session s.trace).sent, Serial.advance mod8 (session s.trace).acked (ctrlNr ctrl)⟩ :=
    session_snoc s.trace _
  have hsent := h.sent_le
  refine ⟨?_, ?_, ?_, ?_, ?_, ?_, ?_, h.from_lt, ?_⟩
  · simp only [Ctx.log, hsession]
    exact hle
  · simp only [Ctx.log, hsession]
    omega
  · simp only [Ctx.log, hsession]
    exact (Serial.advance_mod (ctrlNr_lt ctrl)).symm
  · simp only [Ctx.log, hsession]
    exact h.vs
  · simp only [Ctx.log, hsession]
    exact h.cursor
  · simp only [Ctx.log, hsession]
    exact h.stored
  · simp only [Ctx.log, hsession]
    exact h.fits
  · refine h.acks.snoc fun nr hnr => ?_
    obtain rfl : ctrlNr ctrl = nr := Obs.acked.inj hnr
    exact ⟨⟨ctrl, hlast, rfl⟩, hle, h.lt_mod8⟩

/-- What holds while a frame with control octet `ctrl` is handled. -/
def Handled (w : TxWindow) (ctrl : UInt8) (s : Ctx) : Prop :=
  WindowInv w s ∧ lastCtrl s.trace = some ctrl

theorem Handled.quiet {ctrl : UInt8} {s s' : Ctx} (h : Handled w ctrl s) (hq : Quiet s s') :
    Handled w ctrl s' := by
  obtain ⟨os, hos, htrace⟩ := hq.trace
  refine ⟨h.1.quiet hq, ?_⟩
  rw [htrace, lastCtrl_neutral _ hos]
  exact h.2

/-- Every effect of the receive side keeps the invariant. -/
theorem Handled.effect (hp : st.platform.Passive) {ctrl : UInt8} {s s' : Ctx}
    (he : Effect st ctrl s s') (h : Handled w ctrl s) : Handled w ctrl s' := by
  cases he with
  | put f => exact h.quiet (.put st s f)
  | t1Start => exact h.quiet (.t1Start st s)
  | t1Stop => exact h.quiet (.t1Stop st s)
  | t2Start => exact h.quiet (.t2Start st s)
  | t2Stop => exact h.quiet (.t2Stop st s)
  | data payload => exact h.quiet (.onData hp s payload)
  | event event => exact h.quiet (.onEvent hp s event)
  | nullWindow => exact h.quiet (@Quiet.logs s [.nullWindow] (by simp [Neutral]))
  | receive payload =>
      have hlog : Quiet s (s.log (.received payload)) :=
        @Quiet.logs s [.received payload] (by simp [Neutral])
      exact h.quiet (hlog.trans (.of_trace rfl rfl rfl rfl rfl rfl rfl))
  | link | rejException | remoteBusy | frmr =>
      exact h.quiet (.of_trace rfl rfl rfl rfl rfl rfl rfl)
  | reset =>
      refine ⟨h.1.resetState, ?_⟩
      obtain ⟨os, hos, htrace⟩ := (@resetState_quiet st s).trace
      rw [htrace, lastCtrl_neutral _ hos, clearState, clearSlotLens_eq]
      exact (lastCtrl_reset s.trace).trans h.2
  | ack hvalid hne => exact ⟨h.1.ack h.2 hvalid, (lastCtrl_acked s.trace _).trans h.2⟩
  | arm fromSeq hsome hne hva =>
      have hlt : fromSeq < mod8 := by
        rw [hva hp, h.1.va]
        exact Nat.mod_lt _ (by decide)
      exact ⟨⟨h.1.acked_le, h.1.sent_le, h.1.va, h.1.vs, h.1.cursor, h.1.stored, h.1.fits, hlt,
        h.1.acks⟩, h.2⟩

/-- A frame that is about to be handled changes nothing yet. -/
theorem WindowInv.dispatched {s : Ctx} (h : WindowInv w s) (address ctrl : UInt8)
    (info : Option (List UInt8)) : Handled w ctrl (s.log (.dispatch address ctrl info)) := by
  have hsession : session (s.trace ++ [.dispatch address ctrl info]) = session s.trace :=
    session_snoc s.trace _
  have hacks : WellAcked (s.trace ++ [.dispatch address ctrl info]) :=
    h.acks.snoc fun nr hnr => Obs.noConfusion hnr
  refine ⟨⟨?_, ?_, ?_, ?_, ?_, ?_, ?_, h.from_lt, hacks⟩, ?_⟩
  · simp only [Ctx.log, hsession]
    exact h.acked_le
  · simp only [Ctx.log, hsession]
    exact h.sent_le
  · simp only [Ctx.log, hsession]
    exact h.va
  · simp only [Ctx.log, hsession]
    exact h.vs
  · simp only [Ctx.log, hsession]
    exact h.cursor
  · simp only [Ctx.log, hsession]
    exact h.stored
  · simp only [Ctx.log, hsession]
    exact h.fits
  · rw [Ctx.log, lastCtrl, List.foldl_append]
    rfl

/-- The octets of a chunk keep the invariant. -/
theorem WindowInv.rxBytes (hp : st.platform.Passive) {s : Ctx} (h : WindowInv w s)
    (bytes : List UInt8) : WindowInv w (rxBytes st s bytes) := by
  refine rxBytes_induct (Q := Handled w) ?_ ?_ (fun ctrl s s' => Handled.effect hp) ?_ h bytes
  · exact fun s t hs => hs.quiet (.of_trace rfl rfl rfl rfl rfl rfl rfl)
  · exact fun s address ctrl info hs => hs.dispatched address ctrl info
  · exact fun ctrl s hs => hs.1

/-- A change that the transmit window does not notice, but for V(S). -/
def Still (s s' : Ctx) : Prop := Quiet s { s' with vs := s.vs }

theorem Quiet.still {s s' : Ctx} (h : Quiet s s') : Still s s' :=
  ⟨h.va, rfl, h.cursor, h.retransmitFrom, h.slots, h.slotLens, h.trace⟩

theorem Still.trans {s t u : Ctx} (h : Still s t) (h' : Still t u) : Still s u := by
  have hu : Quiet { t with vs := s.vs } { u with vs := s.vs } :=
    ⟨h'.va, rfl, h'.cursor, h'.retransmitFrom, h'.slots, h'.slotLens, h'.trace⟩
  exact Quiet.trans h hu

theorem Still.setVs (s : Ctx) (vs : Nat) : Still s { s with vs := vs } :=
  .of_trace rfl rfl rfl rfl rfl rfl rfl

theorem Still.quiet {s s' : Ctx} (h : Still s s') (hvs : s'.vs = s.vs) : Quiet s s' :=
  ⟨h.va, hvs, h.cursor, h.retransmitFrom, h.slots, h.slotLens, h.trace⟩

/-- The loop changes V(S) only. -/
theorem retransmitLoop_still (endVs fuel slotIdx : Nat) (s : Ctx) :
    Still s (retransmitLoop st w endVs fuel slotIdx s) := by
  induction fuel generalizing slotIdx s with
  | zero => exact Still.setVs s s.vs
  | succ fuel ih =>
      simp only [retransmitLoop]
      split_ifs
      · exact Still.setVs s s.vs
      · rw [frameSend_octets]
        have hread : Quiet s (s.log (.slotRead slotIdx)) :=
          @Quiet.logs s [.slotRead slotIdx] (by simp [Neutral])
        have hput := Quiet.put st (s.log (.slotRead slotIdx)) ⟨s.peerAddress,
          iCtrl s.vs s.vr false, readSlot w (s.log (.slotRead slotIdx)) slotIdx⟩
        exact (hread.trans hput).still.trans ((Still.setVs _ _).trans (ih _ _))

/-- The loop walks V(S) to its end. -/
theorem retransmitLoop_vs {endVs fuel slotIdx : Nat} {s : Ctx} (hvs : s.vs < mod8)
    (hend : endVs < mod8) (hfuel : (endVs + mod8 - s.vs) % mod8 ≤ fuel) :
    (retransmitLoop st w endVs fuel slotIdx s).vs = endVs := by
  induction fuel generalizing slotIdx s with
  | zero =>
      simp only [retransmitLoop, mod8] at *
      omega
  | succ fuel ih =>
      simp only [retransmitLoop, frameSend_octets]
      split_ifs with hdone
      · exact hdone
      · have hnext : (s.vs + 1) % mod8 < mod8 := Nat.mod_lt _ (by decide)
        refine ih hnext ?_
        simp only [mod8, Ctx.put, Ctx.log] at *
        omega

theorem retransmitOutstanding_quiet {s : Ctx} (hvs : s.vs < mod8) (hfrom : s.retransmitFrom < mod8) :
    Quiet s (retransmitOutstanding st w s) := by
  unfold retransmitOutstanding
  extract_lets t endVs outstanding slotIdx u v
  have hend : v.vs = s.vs :=
    retransmitLoop_vs hfrom hvs (Nat.le_of_lt (Nat.mod_lt _ (by decide)))
  have hpending : Still s t := Quiet.still (.of_trace rfl rfl rfl rfl rfl rfl rfl)
  have hstill : Still s v :=
    hpending.trans ((Still.setVs t _).trans (retransmitLoop_still endVs 8 slotIdx u))
  exact (hstill.quiet hend).trans (Quiet.t1Start st v)

theorem WindowInv.vs_lt {s : Ctx} (h : WindowInv w s) : s.vs < mod8 := by
  rw [h.vs]
  exact Nat.mod_lt _ (by decide)

/-- A received chunk keeps the invariant. -/
theorem WindowInv.dataIn (hw : st.txWindow = some w) (hp : st.platform.Passive) {s : Ctx}
    (h : WindowInv w s) (bytes : List UInt8) : WindowInv w (dataIn st s bytes) := by
  have hread := h.rxBytes hp bytes
  unfold AtcHdlc.dataIn retransmitIfPending
  rw [hw]
  split_ifs
  · exact hread.quiet (retransmitOutstanding_quiet hread.vs_lt hread.from_lt)
  · exact hread

theorem slotOffset_eq (hcap : w.slotCount * w.slotCapacity < 2 ^ 32) {slot : Nat}
    (hslot : slot < w.slotCount) : slotOffset w slot = slot * w.slotCapacity := by
  have hle : slot * w.slotCapacity ≤ w.slotCount * w.slotCapacity :=
    Nat.mul_le_mul_right _ (Nat.le_of_lt hslot)
  exact Nat.mod_eq_of_lt (Nat.lt_of_le_of_lt hle hcap)

/-- Slots at their true offsets are apart. -/
theorem SlotsApart.of_exact (hexact : ∀ slot < w.slotCount, slotOffset w slot = slot * w.slotCapacity) :
    SlotsApart w w.slotCapacity := by
  intro i hi j hj hij
  rw [hexact i hi, hexact j hj]
  rcases Nat.lt_or_gt_of_ne hij with h | h
  · have hstep : (i + 1) * w.slotCapacity ≤ j * w.slotCapacity := Nat.mul_le_mul_right _ h
    rw [Nat.succ_mul] at hstep
    exact Or.inl hstep
  · have hstep : (j + 1) * w.slotCapacity ≤ i * w.slotCapacity := Nat.mul_le_mul_right _ h
    rw [Nat.succ_mul] at hstep
    exact Or.inr hstep

/-- Within 32 bits the slots are apart. -/
theorem SlotsApart.of_lt (hcap : w.slotCount * w.slotCapacity < 2 ^ 32) :
    SlotsApart w w.slotCapacity := .of_exact fun _ hslot => slotOffset_eq hcap hslot

/-- The context once the payload of `atc_hdlc_transmit_i` is in its slot. -/
def filled (w : TxWindow) (s : Ctx) (data : Payload) : Ctx :=
  { s with
    slots := fun i =>
      if slotOffset w s.txNextSlot ≤ i ∧ i < slotOffset w s.txNextSlot + data.read.length then
        data.read.getD (i - slotOffset w s.txNextSlot) 0
      else s.slots i
    slotLens := Function.update s.slotLens s.txNextSlot data.len }

theorem Payload.NonNull.length_read {data : Payload} (h : data.NonNull) :
    data.read.length = data.len := by
  cases data with
  | octets octets => rfl
  | null n => exact List.length_replicate

theorem readSlot_filled {s : Ctx} {data : Payload} (hdata : data.NonNull) :
    readSlot w (filled w s data) s.txNextSlot = data.read := by
  have hlen : (filled w s data).slotLens s.txNextSlot = data.read.length := by
    rw [hdata.length_read]
    exact Function.update_self _ _ _
  apply List.ext_getElem
  · rw [readSlot, List.length_map, List.length_range, hlen]
  · intro i _ hi
    have hrange : slotOffset w s.txNextSlot ≤ slotOffset w s.txNextSlot + i ∧
        slotOffset w s.txNextSlot + i < slotOffset w s.txNextSlot + data.read.length := by omega
    simp only [readSlot, List.getElem_map, List.getElem_range, filled]
    rw [if_pos hrange, Nat.add_sub_cancel_left, List.getD_eq_getElem _ _ hi]

/-- A slot none of whose octets is written to. -/
theorem readSlot_filled_of_clear {s : Ctx} {data : Payload} {slot : Nat} (hne : slot ≠ s.txNextSlot)
    (hclear : ∀ i < s.slotLens slot, ∀ j < data.read.length,
      slotOffset w slot + i ≠ slotOffset w s.txNextSlot + j) :
    readSlot w (filled w s data) slot = readSlot w s slot := by
  have hlens : (filled w s data).slotLens slot = s.slotLens slot := Function.update_of_ne hne _ _
  rw [readSlot, readSlot, hlens]
  apply List.map_congr_left
  intro i hi
  rw [List.mem_range] at hi
  refine if_neg fun hrange => ?_
  exact hclear i hi (slotOffset w slot + i - slotOffset w s.txNextSlot) (by omega) (by omega)

/-- A slot apart from the one that is written to. -/
theorem readSlot_filled_of_ne {m : Nat} (hapart : SlotsApart w m) {s : Ctx} {data : Payload}
    (hdata : data.NonNull) (hlen : data.len ≤ m) {slot : Nat} (hslot : slot < w.slotCount)
    (hcursor : s.txNextSlot < w.slotCount) (hne : slot ≠ s.txNextSlot) (hfits : s.slotLens slot ≤ m) :
    readSlot w (filled w s data) slot = readSlot w s slot := by
  have hread := hdata.length_read
  refine readSlot_filled_of_clear hne fun i hi j hj => ?_
  rcases hapart slot hslot s.txNextSlot hcursor hne with hle | hle
  · omega
  · omega

/-- What `atc_hdlc_transmit_i` can do: nothing, or accept the payload. -/
theorem transmitI_cases (s : Ctx) (data : Payload) :
    (transmitI st s data).2 = s ∨
      ∃ w, st.txWindow = some w ∧ s.currentState = .connected ∧ s.remoteBusy = false ∧
        data.len ≤ st.config.maxInfoSize ∧ outstanding s < w.slotCount ∧
        (transmitI st s data).2 = acceptI st w s data := by
  unfold transmitI
  cases hw : st.txWindow with
  | none => split_ifs <;> exact Or.inl rfl
  | some w =>
      by_cases hstate : s.currentState ≠ .connected
      · exact Or.inl (by simp only [if_pos hstate])
      · by_cases hbusy : s.remoteBusy = true
        · exact Or.inl (by simp only [if_neg hstate, if_pos hbusy])
        · simp only [if_neg hstate, if_neg hbusy]
          by_cases hlen : data.len > st.config.maxInfoSize
          · exact Or.inl (by rw [if_pos hlen])
          · by_cases hslot : 0 < data.len ∧ ¬data.isNull ∧ data.len > w.slotCapacity
            · exact Or.inl (by rw [if_neg hlen, if_pos hslot])
            · by_cases hfull : outstanding s ≥ w.slotCount
              · exact Or.inl (by rw [if_neg hlen, if_neg hslot, if_pos hfull])
              · refine Or.inr ⟨w, rfl, not_not.mp hstate, by simpa using hbusy, by omega, by omega, ?_⟩
                rw [if_neg hlen, if_neg hslot, if_neg hfull]

/-- `atc_hdlc_transmit_i` as the filling of a slot and one I-frame. -/
theorem acceptI_eq (s : Ctx) {data : Payload} (hdata : data.NonNull) :
    acceptI st w s data =
      let next := u8 (((s.txNextSlot + 1) % w.slotCount : Nat) : Int)
      let stored := { (filled w s data).log (.accept data.read) with txNextSlot := next }
      let sent := stored.put st ⟨s.peerAddress, iCtrl s.vs s.vr false, data.read⟩
      let stopped := t2Stop st { sent with vs := (s.vs + 1) % mod8 }
      if outstanding s = 0 then t1Start st stopped else stopped := by
  unfold acceptI
  extract_lets out slot s1 s2 logged s3 s4 s5 s6 next filled' stored sent stopped
  have hcopy : s2 = { s1 with slots := (filled w s data).slots } := by
    unfold s2
    split_ifs with hlen
    · rfl
    · have hempty : data.read.length = 0 := by
        rw [hdata.length_read]
        rcases hdata with h | h
        · simp only [h, Bool.false_eq_true, not_false_eq_true, and_true] at hlen
          omega
        · exact h
      have hslots : (filled w s data).slots = s.slots := by
        funext i
        exact if_neg (by omega)
      rw [hslots]
  have hstored : s3 = stored := by
    unfold s3 logged
    rw [hcopy]
    rfl
  have hsent : s4 = sent := by
    unfold s4 sent
    rw [hstored, frameSend_of_nonNull st stored _ _ hdata]
    rfl
  have hstopped : s6 = stopped := by
    unfold s6 s5 stopped
    rw [hsent]
    rfl
  rw [hstopped]

/-- The number of unacknowledged I-frames that `atc_hdlc_transmit_i` computes. -/
theorem outstanding_eq {s : Ctx} {a b : Nat} (hva : s.va = a % mod8) (hvs : s.vs = b % mod8)
    (hle : a ≤ b) (hlt : b < a + mod8) : outstanding s = b - a := by
  have hpos : (0 : Int) ≤ (s.vs : Int) - s.va + mod8 := by
    rw [hva, hvs]
    simp only [mod8]
    omega
  rw [outstanding, Int.tmod_eq_emod_of_nonneg hpos]
  simp only [u8, hva, hvs, mod8] at *
  omega

theorem u8_natCast {n : Nat} (h : n < 256) : u8 n = n := by
  simp only [u8]
  omega

theorem readSlot_length (s : Ctx) (slot : Nat) : (readSlot w s slot).length = s.slotLens slot := by
  rw [readSlot, List.length_map, List.length_range]

theorem WindowInv.cursor_lt {s : Ctx} (h : WindowInv w s) : s.txNextSlot < w.slotCount := by
  rw [h.cursor]
  exact Nat.mod_lt _ w.slotCount_pos

/-- No frame of a window with room is in the slot at the cursor. -/
theorem WindowInv.slot_ne_cursor {s : Ctx} (h : WindowInv w s) {k : Nat}
    (hlt : k < (session s.trace).sent.length) (hroom : (session s.trace).sent.length < k + w.slotCount) :
    k % w.slotCount ≠ s.txNextSlot := by
  rw [h.cursor]
  intro heq
  have hsame := Serial.eq_of_mod_eq (Nat.le_refl k) (by omega) (Nat.le_of_lt hlt) hroom heq
  omega

/-- The slots after one more payload: the newest is in the slot at the cursor, those of the window
before it are where they were. -/
theorem WindowInv.readSlot_filled {m : Nat} (hapart : SlotsApart w m) {s : Ctx}
    (h : WindowInv w s) {data : Payload} (hdata : data.NonNull)
    (hlen : ∀ payload ∈ (session s.trace).sent ++ [data.read], payload.length ≤ m)
    {k : Nat} (hlive : (session s.trace).sent.length + 1 ≤ k + w.slotCount)
    (hk : k < ((session s.trace).sent ++ [data.read]).length) :
    readSlot w (filled w s data) (k % w.slotCount) = ((session s.trace).sent ++ [data.read])[k] := by
  rcases Nat.lt_or_ge k (session s.trace).sent.length with hlt | hge
  · have hne := h.slot_ne_cursor hlt (by omega)
    have hread := h.stored m hapart (fun payload hmem => hlen payload (List.mem_append_left _ hmem)) k
      hlt (by omega)
    have hfits : s.slotLens (k % w.slotCount) ≤ m := by
      rw [← readSlot_length (w := w), hread]
      exact hlen _ (List.mem_append_left _ (List.getElem_mem hlt))
    have hdataLen : data.len ≤ m := by
      rw [← hdata.length_read]
      exact hlen _ (List.mem_append_right _ List.mem_cons_self)
    rw [readSlot_filled_of_ne hapart hdata hdataLen (Nat.mod_lt _ w.slotCount_pos) h.cursor_lt hne hfits, hread,
      List.getElem_append_left hlt]
  · have hlast : k = (session s.trace).sent.length := by
      rw [List.length_append, List.length_singleton] at hk
      omega
    subst hlast
    rw [← h.cursor, AtcHdlc.readSlot_filled hdata, List.getElem_concat_length rfl]

/-- An accepted payload keeps the invariant. -/
theorem WindowInv.acceptI {s : Ctx} (h : WindowInv w s) {data : Payload} (hdata : data.NonNull) (hlen : data.len ≤ w.slotCapacity)
    (hroom : outstanding s < w.slotCount) : WindowInv w (acceptI st w s data) := by
  rw [acceptI_eq s hdata]
  extract_lets next logged stored sent stopped
  have hsent : WindowInv w { sent with vs := (s.vs + 1) % mod8 } := by
    have hput : Still stored { sent with vs := (s.vs + 1) % mod8 } :=
      (Quiet.put st stored _).still.trans (Still.setVs sent _)
    refine WindowInv.quiet (s := { stored with vs := (s.vs + 1) % mod8 }) ?_
      ⟨hput.va, rfl, hput.cursor, hput.retransmitFrom, hput.slots, hput.slotLens, hput.trace⟩
    have hout : outstanding s = (session s.trace).sent.length - (session s.trace).acked :=
      outstanding_eq h.va h.vs h.acked_le h.lt_mod8
    have hcount := w.slotCount_le
    have hsession : session (s.trace ++ [.accept data.read]) =
        ⟨(session s.trace).sent ++ [data.read], (session s.trace).acked⟩ := session_snoc s.trace _
    have hlength : ((session s.trace).sent ++ [data.read]).length =
        (session s.trace).sent.length + 1 := by simp
    have hacked := h.acked_le
    refine ⟨?_, ?_, ?_, ?_, ?_, ?_, ?_, h.from_lt, ?_⟩
    · simp only [stored, logged, Ctx.log, filled, hsession, hlength]
      omega
    · simp only [stored, logged, Ctx.log, filled, hsession, hlength]
      omega
    · simp only [stored, logged, Ctx.log, filled, hsession]
      exact h.va
    · simp only [stored, logged, Ctx.log, filled, hsession, hlength, h.vs, mod8]
      omega
    · simp only [stored, next, logged, Ctx.log, filled, hsession, hlength]
      have hnext : (s.txNextSlot + 1) % w.slotCount < 256 :=
        Nat.lt_trans (Nat.mod_lt _ w.slotCount_pos) (by omega)
      rw [u8_natCast hnext, h.cursor, Nat.mod_add_mod]
    · intro m hapart hfits k hk hlive
      have hslots : readSlot w { stored with vs := (s.vs + 1) % mod8 } (k % w.slotCount) =
          readSlot w (filled w s data) (k % w.slotCount) := readSlot_congr rfl rfl _
      simp only [stored, logged, Ctx.log, filled, hsession, hlength] at hk hlive hslots hfits ⊢
      rw [hslots]
      exact h.readSlot_filled hapart hdata hfits hlive (by omega)
    · simp only [stored, logged, Ctx.log, filled, hsession]
      intro payload hmem
      rcases List.mem_append.mp hmem with hold | hnew
      · exact h.fits payload hold
      · rw [List.mem_singleton.mp hnew, hdata.length_read]
        exact hlen
    · exact h.acks.snoc fun nr hnr => Obs.noConfusion hnr
  have hstopped : WindowInv w stopped := hsent.quiet (.t2Stop st _)
  split_ifs
  · exact hstopped.quiet (.t1Start st _)
  · exact hstopped

theorem setState_quiet (hp : st.platform.Passive) (s : Ctx) (newState : State) (event : Event) :
    Quiet s (setState st s newState event) := by
  simp only [setState]
  split_ifs
  · have hlink : Quiet s { s with currentState := newState } := .of_trace rfl rfl rfl rfl rfl rfl rfl
    exact hlink.trans (.onEvent hp _ event)
  · exact .of_trace rfl rfl rfl rfl rfl rfl rfl

theorem emitAll_quiet (s : Ctx) (octets : List UInt8) : Quiet s (emitAll st s octets) := by
  rw [emitAll_eq]
  refine ⟨rfl, rfl, rfl, rfl, rfl, rfl, _, fun o ho => ?_, rfl⟩
  obtain ⟨byte, _, rfl⟩ := List.mem_map.mp ho
  trivial

theorem frameBegin_quiet (s : Ctx) (address control : UInt8) :
    Quiet s (frameBegin st s address control) := by
  rw [frameBegin_eq]
  refine ⟨rfl, rfl, rfl, rfl, rfl, rfl, _, fun o ho => ?_, rfl⟩
  rcases List.mem_cons.mp ho with rfl | ho
  · trivial
  · obtain ⟨byte, _, rfl⟩ := List.mem_map.mp ho
    trivial

theorem frameEnd_quiet (s : Ctx) : Quiet s (frameEnd s) := by
  rw [frameEnd_eq]
  refine Quiet.logs s fun o ho => ?_
  rcases List.mem_append.mp ho with ho | ho
  · obtain ⟨byte, _, rfl⟩ := List.mem_map.mp ho
    trivial
  · rw [List.mem_singleton.mp ho]
    trivial

theorem frameSend_quiet (s : Ctx) (address ctrl : UInt8) (data : Payload) :
    Quiet s (frameSend st s address ctrl data) := by
  unfold frameSend
  extract_lets begun logged all
  have hlogged : Quiet begun logged := by
    unfold logged
    split_ifs
    · exact @Quiet.logs begun [.nullRead] (by simp [Neutral])
    · exact .of_trace rfl rfl rfl rfl rfl rfl rfl
  exact ((frameBegin_quiet s address ctrl).trans hlogged).trans
    ((emitAll_quiet logged data.read).trans (frameEnd_quiet all))

theorem t1Expired_inv (hp : st.platform.Passive) {s : Ctx} (h : WindowInv w s) :
    WindowInv w (t1Expired st s) := by
  unfold t1Expired
  extract_lets s1 maxRetries s2
  have hs : WindowInv w s2 := h.quiet (.of_trace rfl rfl rfl rfl rfl rfl rfl)
  have hsend (f : Frame) : WindowInv w (t1Start st (s2.put st f)) :=
    hs.quiet ((Quiet.put st s2 f).trans (.t1Start st _))
  by_cases hlost : maxRetries > 0 ∧ s2.n2 > maxRetries
  · rw [if_pos hlost]
    exact (hs.quiet (setState_quiet hp s2 _ _)).resetState
  · simp only [if_neg hlost, sendU_eq, sendRr, sendRnr, sendS_eq, retransmitFrmr_eq]
    split
    · exact hsend _
    · exact hsend _
    · split_ifs
      · exact hsend _
      · exact hsend _
      · exact hs
    · exact hsend _
    · exact hs

/-- Every call keeps the invariant. -/
theorem WindowInv.call (hw : st.txWindow = some w) (hp : st.platform.Passive) {s : Ctx}
    (h : WindowInv w s) (call : Call) (hlegal : call.Legal) : WindowInv w (call.run st s) := by
  cases call with
  | t1Expired => exact t1Expired_inv hp h
  | t2Expired =>
      simp only [Call.run, AtcHdlc.t2Expired, sendRr, sendRnr, sendS_eq]
      have hs : WindowInv w { s with t2Active := false } :=
        h.quiet (.of_trace rfl rfl rfl rfl rfl rfl rfl)
      split_ifs
      · exact hs.quiet (.put st _ _)
      · exact hs.quiet (.put st _ _)
  | linkSetup peerAddr =>
      simp only [Call.run, AtcHdlc.linkSetup, sendU_eq]
      split_ifs
      · exact h
      · have hs : WindowInv w { s with peerAddress := peerAddr } :=
          h.quiet (.of_trace rfl rfl rfl rfl rfl rfl rfl)
        exact hs.quiet (((Quiet.put st _ _).trans (.t1Start st _)).trans (setState_quiet hp _ _ _))
  | disconnect =>
      simp only [Call.run, AtcHdlc.disconnect, sendU_eq]
      split_ifs
      · exact h
      · exact h.quiet (((Quiet.put st _ _).trans (.t1Start st _)).trans (setState_quiet hp _ _ _))
  | linkReset =>
      simp only [Call.run, AtcHdlc.linkReset, sendU_eq]
      exact h.resetState.quiet
        (((Quiet.put st _ _).trans (.t1Start st _)).trans (setState_quiet hp _ _ _))
  | abort =>
      have hflags : Quiet s ((s.log (.send flag false)).log (.send flag true)) :=
        (@Quiet.logs s [.send flag false] (by simp [Neutral])).trans
          (@Quiet.logs _ [.send flag true] (by simp [Neutral]))
      exact (h.quiet hflags).resetState.quiet (.of_trace rfl rfl rfl rfl rfl rfl rfl)
  | setLocalBusy busy =>
      simp only [Call.run, AtcHdlc.setLocalBusy, sendRr, sendS_eq]
      split_ifs
      · exact h
      · exact h.quiet (.of_trace rfl rfl rfl rfl rfl rfl rfl)
      · have hs : WindowInv w { s with localBusy := false } :=
          h.quiet (.of_trace rfl rfl rfl rfl rfl rfl rfl)
        exact hs.quiet (.put st _ _)
      · exact h
  | dataIn bytes => exact h.dataIn hw hp bytes
  | transmitUi address data =>
      simp only [Call.run, AtcHdlc.transmitUi, transmitU]
      split_ifs
      · exact h
      · exact h
      · exact h.quiet (frameSend_quiet s _ _ data)
  | transmitTest address data =>
      simp only [Call.run, AtcHdlc.transmitTest, transmitU]
      split_ifs
      · exact h
      · exact h
      · exact h.quiet (frameSend_quiet s _ _ data)
  | transmitI data =>
      simp only [Call.run, AtcHdlc.transmitI, hw]
      split_ifs with hstate hbusy hlen hslot hfull
      · exact h
      · exact h
      · exact h
      · exact h
      · exact h
      · have hcapacity := st.slotCapacity_min w hw
        exact h.acceptI hlegal (by omega) (by omega)
  | transmitUiStart address => exact h.quiet (@frameBegin_quiet st s address (uCtrl uUi false))
  | transmitUiData data =>
      simp only [Call.run, AtcHdlc.transmitUiData]
      split_ifs
      · exact h
      · exact h.quiet (emitAll_quiet s data.read)
  | transmitUiEnd => exact h.quiet (frameEnd_quiet s)

theorem WindowInv.init (st : Station) (mem : Memory) : WindowInv w (initCtx st mem) := by
  refine ⟨Nat.le_refl 0, Nat.zero_le _, rfl, rfl, (Nat.zero_mod _).symm, ?_, ?_,
    Nat.zero_lt_succ 7, ?_⟩
  · exact fun _ _ _ k hk => absurd hk (Nat.not_lt_zero k)
  · exact fun payload hmem => absurd hmem List.not_mem_nil
  · intro l nr r heq
    exact absurd heq (List.ne_nil_of_mem (List.mem_append_right l List.mem_cons_self)).symm

theorem Reachable.windowInv (hw : st.txWindow = some w) (hp : st.platform.Passive) {mem : Memory}
    {s : Ctx} (h : Reachable st mem s) : WindowInv w s :=
  h.invariant (WindowInv.init st mem) fun _ hs call hlegal => hs.call hw hp call hlegal

/-- An acknowledgement in order moves the counter to the only number of the window with the residue
N(R). -/
theorem AckOk.unique {trace : List Obs} {nr : Nat} (h : AckOk trace nr) (b : Nat) :
    (session trace).acked ≤ b ∧ b ≤ (session trace).sent.length ∧ b % mod8 = nr ↔
      b = (session (trace ++ [.acked nr])).acked := by
  obtain ⟨ctrl, -, rfl⟩ := h.received
  have hlt := h.sent_lt
  have hsession : (session (trace ++ [.acked (ctrlNr ctrl)])).acked =
      Serial.advance mod8 (session trace).acked (ctrlNr ctrl) := by
    rw [session_snoc]
    rfl
  rw [hsession]
  constructor
  · rintro ⟨hge, hle, hmod⟩
    exact (Serial.advance_eq (m := mod8) (ctrlNr_lt ctrl) hge (by omega) hmod).symm
  · rintro rfl
    exact ⟨Serial.le_advance _ _, h.le_sent, Serial.advance_mod (ctrlNr_lt ctrl)⟩

/-- Within a session the counters do not decrease, and only acknowledgements move the first. -/
theorem Session.step_mono (σ : Session) {o : Obs} (ho : o ≠ .reset) :
    σ.acked ≤ (σ.step o).acked ∧ σ.sent <+: (σ.step o).sent ∧
      ((σ.step o).acked ≠ σ.acked → ∃ nr, o = .acked nr) := by
  cases o with
  | reset => exact absurd rfl ho
  | accept payload =>
      exact ⟨Nat.le_refl _, List.prefix_append _ _, fun hne => absurd rfl hne⟩
  | acked nr => exact ⟨Serial.le_advance _ _, List.prefix_rfl, fun _ => ⟨nr, rfl⟩⟩
  | _ => exact ⟨Nat.le_refl _, List.prefix_rfl, fun hne => absurd rfl hne⟩

/-- A context represents a session: its counters modulo 8 and modulo the slot count, and in the slots
what is not acknowledged. -/
structure Represents (w : TxWindow) (s : Ctx) (σ : Session) : Prop where
  acked_le : σ.acked ≤ σ.sent.length
  outstanding_le : σ.sent.length - σ.acked ≤ w.slotCount
  va : s.va = σ.acked % 8
  vs : s.vs = σ.sent.length % 8
  txNextSlot : s.txNextSlot = σ.sent.length % w.slotCount
  slot : ∀ k (hk : k < σ.sent.length), σ.acked ≤ k →
    s.slotLens (k % w.slotCount) = σ.sent[k].length ∧ readSlot w s (k % w.slotCount) = σ.sent[k]

/-- The transmit window between any two calls of any run represents the current session. `reset_state`
begins a session; within it the counters only grow, and the one behind V(A) moves only to the one
number of the window that a received N(R) stands for. -/
theorem txWindow_represents_session (hw : st.txWindow = some w) (hp : st.platform.Passive)
    (hcap : w.slotCount * w.slotCapacity < 2 ^ 32) {mem : Memory} {s : Ctx}
    (h : Reachable st mem s) :
    Represents w s (session s.trace) ∧
    ∀ l o r, s.trace = l ++ o :: r →
      (o = .reset → session (l ++ [o]) = ⟨[], 0⟩) ∧
      (o ≠ .reset →
        (session l).acked ≤ (session (l ++ [o])).acked ∧
        (session l).sent <+: (session (l ++ [o])).sent ∧
        ((session (l ++ [o])).acked ≠ (session l).acked →
          ∃ ctrl, lastCtrl l = some ctrl ∧ ∀ b,
            (session l).acked ≤ b ∧ b ≤ (session l).sent.length ∧ b % 8 = ctrlNr ctrl ↔
              b = (session (l ++ [o])).acked)) := by
  have hinv := h.windowInv hw hp
  constructor
  · have hsent := hinv.sent_le
    refine ⟨hinv.acked_le, by omega, hinv.va, hinv.vs, hinv.cursor, fun k hk hlive => ?_⟩
    have hread := hinv.stored _ (SlotsApart.of_lt hcap) hinv.fits k hk (by omega)
    refine ⟨?_, hread⟩
    rw [← readSlot_length (w := w), hread]
  · intro l o r htrace
    constructor
    · rintro rfl
      exact session_reset l
    · intro ho
      obtain ⟨hacked, hsent, hmove⟩ := (session l).step_mono ho
      rw [session_snoc]
      refine ⟨hacked, hsent, fun hne => ?_⟩
      obtain ⟨nr, rfl⟩ := hmove hne
      have hok := hinv.acks l nr r htrace
      obtain ⟨ctrl, hlast, rfl⟩ := hok.received
      refine ⟨ctrl, hlast, fun b => ?_⟩
      rw [← session_snoc]
      exact hok.unique b

/-- A UA that answers a set-up, then one accepted payload. -/
theorem txWindow_represents_session_mock :
    let st := mockStation 0x01 1 (by decide) (by decide)
    let calls : List Call := [.linkSetup 0x02,
      .dataIn (Frame.octets crcOpsDefault ⟨0x02, uCtrl uUa true, []⟩), .transmitI (.octets [0x55])]
    let s := calls.foldl (Call.run st) (initCtx st zeroMemory)
    s.vs = 1 ∧ Represents ⟨1024, 1, by decide, by decide⟩ s (session s.trace) := by
  intro st calls s
  refine ⟨by decide +kernel, ?_⟩
  have hreach : Reachable st zeroMemory s :=
    .call (.transmitI (.octets [0x55])) (.call _ (.call (.linkSetup 0x02) .init trivial) trivial)
      (Or.inl rfl)
  exact (txWindow_represents_session rfl mockPlatform_passive (by decide) hreach).1

end Effects

end AtcHdlc
