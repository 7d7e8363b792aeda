import AtcHdlc.Calls

/-! The timers as the platform sees them. The library keeps one bit for each timer, and the platform hears of
it through two callbacks only. A platform that starts a timer when it is told to, and stops it when it is told
to or when it has expired, agrees with the bits at every moment at which no call is on, whatever the calls are
and whatever callbacks they make. -/

namespace AtcHdlc

/-- The acknowledgement timer T1 and the delay timer T2. -/
inductive Timer where
  | t1
  | t2
  deriving DecidableEq, Repr

namespace Timer

/-- The bit of the context. -/
def active (s : Ctx) : Timer → Bool
  | t1 => s.t1Active
  | t2 => s.t2Active

/-- The call that the platform makes when the timer has expired. -/
def expiry : Timer → Call
  | t1 => .t1Expired
  | t2 => .t2Expired

theorem legal_expiry (t : Timer) : t.expiry.Legal := by cases t <;> trivial

/-- The first statement of the expiry. -/
def clear (s : Ctx) : Timer → Ctx
  | t1 => { s with t1Active := false }
  | t2 => { s with t2Active := false }

/-- What a callback tells a timer: to run, or to stop. -/
def told : Timer → Obs → Option Bool
  | t1, .t1Start _ => some true
  | t1, .t1Stop => some false
  | t2, .t2Start _ => some true
  | t2, .t2Stop => some false
  | _, _ => none

/-- Whether a timer runs after some callbacks. -/
def after (t : Timer) (running : Bool) (os : List Obs) : Bool :=
  os.foldl (fun running o => (t.told o).getD running) running

theorem after_append (t : Timer) (running : Bool) (os os' : List Obs) :
    t.after running (os ++ os') = t.after (t.after running os) os' := List.foldl_append

theorem after_cons (t : Timer) (running : Bool) (o : Obs) (os : List Obs) :
    t.after running (o :: os) = t.after ((t.told o).getD running) os := rfl

/-- Callbacks that are not for a timer leave it alone. -/
theorem after_untold {t : Timer} {os : List Obs} (h : ∀ o ∈ os, t.told o = none) (running : Bool) :
    t.after running os = running := by
  induction os with
  | nil => rfl
  | cons o os ih =>
      rw [after_cons, h o List.mem_cons_self, Option.getD_none]
      exact ih fun o' ho' => h o' (List.mem_cons_of_mem o ho')

/-- The callbacks that start and stop a timer are both there. -/
def Wired (p : Platform) : Timer → Prop
  | t1 => p.t1Start = true ∧ p.t1Stop = true
  | t2 => p.t2Start = true ∧ p.t2Stop = true

end Timer

/-- The platform calls the expiry of a timer that runs. -/
def OnTime (s : Ctx) (c : Call) : Prop := ∀ t : Timer, c = t.expiry → t.active s = true

theorem onTime_of_ne {s : Ctx} {c : Call} (h1 : c ≠ .t1Expired) (h2 : c ≠ .t2Expired) : OnTime s c := by
  rintro (_ | _) rfl
  · exact absurd rfl h1
  · exact absurd rfl h2

/-! ### What a change tells a timer -/

/-- From `s` to `s'` the platform hears all that happens to the bit of a timer. -/
def Tracked (t : Timer) (s s' : Ctx) : Prop :=
  ∃ os, s'.trace = s.trace ++ os ∧ t.active s' = t.after (t.active s) os

namespace Tracked

variable {t : Timer} {s s' s'' : Ctx}

theorem refl (t : Timer) (s : Ctx) : Tracked t s s := ⟨[], (List.append_nil _).symm, rfl⟩

theorem trans (h : Tracked t s s') (h' : Tracked t s' s'') : Tracked t s s'' := by
  obtain ⟨os, htrace, hactive⟩ := h
  obtain ⟨os', htrace', hactive'⟩ := h'
  refine ⟨os ++ os', ?_, ?_⟩
  · rw [htrace', htrace, List.append_assoc]
  · rw [hactive', hactive, Timer.after_append]

/-- A change that no timer hears of. -/
theorem of_eq (htrace : s'.trace = s.trace) (hactive : t.active s' = t.active s) : Tracked t s s' :=
  ⟨[], by rw [htrace, List.append_nil], hactive⟩

theorem logs (os : List Obs) (hos : ∀ o ∈ os, t.told o = none) (htrace : s'.trace = s.trace ++ os)
    (hactive : t.active s' = t.active s) : Tracked t s s' :=
  ⟨os, htrace, hactive.trans (Timer.after_untold hos _).symm⟩

/-- What is logged with a change that is not for the timers. -/
theorem log {o : Obs} (ho : t.told o = none) (htrace : s'.trace = s.trace ++ [o])
    (hactive : t.active s' = t.active s) : Tracked t s s' :=
  logs [o] (fun _ h => List.mem_singleton.mp h ▸ ho) htrace hactive

theorem ite {c : Prop} [Decidable c] (h : c → Tracked t s s') (h' : ¬c → Tracked t s s'') :
    Tracked t s (if c then s' else s'') := by
  split_ifs with hc
  · exact h hc
  · exact h' hc

end Tracked

/-- The callbacks of the application leave the platform's view of a timer right. -/
def Platform.Tracks (p : Platform) (t : Timer) : Prop :=
  (∀ f ∈ p.onData, ∀ payload s, Tracked t s (f payload s)) ∧ ∀ f ∈ p.onEvent, ∀ event s, Tracked t s (f event s)

theorem Platform.Passive.tracks {p : Platform} (h : p.Passive) (t : Timer) : p.Tracks t := by
  refine ⟨fun f hf payload s => ?_, fun f hf event s => ?_⟩
  · rw [h.1 f hf]
    exact .refl t s
  · rw [h.2 f hf]
    exact .refl t s

section Tracked

variable {st : Station} {t : Timer}

theorem tracked_put (st : Station) (t : Timer) (s : Ctx) (f : Frame) : Tracked t s (s.put st f) := by
  refine .logs (f.obs st.crc s.moment) (fun o ho => ?_) rfl (by cases t <;> rfl)
  rcases Frame.mem_obs ho with rfl | ⟨byte, flush, rfl⟩
  · cases t <;> rfl
  · cases t <;> rfl

theorem tracked_onData (hp : st.platform.Tracks t) (s : Ctx) (payload : List UInt8) :
    Tracked t s (onData st s payload) := by
  unfold onData
  cases hf : st.platform.onData with
  | none => exact .refl t s
  | some f =>
      have hlog : Tracked t s (s.log (.data payload)) := .log (by cases t <;> rfl) rfl (by cases t <;> rfl)
      exact hlog.trans (hp.1 f hf payload _)

theorem tracked_onEvent (hp : st.platform.Tracks t) (s : Ctx) (event : Event) :
    Tracked t s (onEvent st s event) := by
  unfold onEvent
  cases hf : st.platform.onEvent with
  | none => exact .refl t s
  | some f =>
      have hlog : Tracked t s (s.log (.event event)) := .log (by cases t <;> rfl) rfl (by cases t <;> rfl)
      exact hlog.trans (hp.2 f hf event _)

theorem tracked_t1Start (hw : t.Wired st.platform) (s : Ctx) : Tracked t s (t1Start st s) := by
  refine ⟨_, rfl, ?_⟩
  cases t with
  | t1 =>
      rw [if_pos hw.1]
      rfl
  | t2 => split_ifs <;> rfl

theorem tracked_t2Start (hw : t.Wired st.platform) (s : Ctx) : Tracked t s (t2Start st s) := by
  refine ⟨_, rfl, ?_⟩
  cases t with
  | t1 => split_ifs <;> rfl
  | t2 =>
      rw [if_pos hw.1]
      rfl

/-- A timer that does not run is not stopped, and need not be. -/
theorem tracked_t1Stop (hw : t.Wired st.platform) (s : Ctx) : Tracked t s (t1Stop st s) := by
  refine ⟨_, rfl, ?_⟩
  cases t with
  | t1 =>
      rw [hw.2, Bool.and_true]
      show false = Timer.t1.after s.t1Active _
      cases s.t1Active <;> rfl
  | t2 => split_ifs <;> rfl

theorem tracked_t2Stop (hw : t.Wired st.platform) (s : Ctx) : Tracked t s (t2Stop st s) := by
  refine ⟨_, rfl, ?_⟩
  cases t with
  | t1 => split_ifs <;> rfl
  | t2 =>
      rw [hw.2, Bool.and_true]
      show false = Timer.t2.after s.t2Active _
      cases s.t2Active <;> rfl

theorem tracked_resetState (hw : t.Wired st.platform) (s : Ctx) : Tracked t s (resetState st s) := by
  unfold resetState
  extract_lets logged cleared emptied lowered stopped
  have hlogged : Tracked t s logged := .log (by cases t <;> rfl) rfl (by cases t <;> rfl)
  have hemptied : Tracked t cleared emptied := by
    unfold emptied clearSlotLens
    cases st.txWindow with
    | none => exact .refl t _
    | some w => exact .of_eq rfl (by cases t <;> rfl)
  have hcleared : Tracked t logged cleared := .of_eq rfl (by cases t <;> rfl)
  have hlowered : Tracked t emptied lowered := .of_eq rfl (by cases t <;> rfl)
  exact ((((hlogged.trans hcleared).trans hemptied).trans hlowered).trans (tracked_t1Stop hw _)).trans
    (tracked_t2Stop hw _)

theorem Effect.tracked (hw : t.Wired st.platform) (hp : st.platform.Tracks t) {ctrl : UInt8} {s s' : Ctx}
    (h : Effect st ctrl s s') : Tracked t s s' := by
  cases h with
  | put f => exact tracked_put st t s f
  | t1Start => exact tracked_t1Start hw s
  | t1Stop => exact tracked_t1Stop hw s
  | t2Start => exact tracked_t2Start hw s
  | t2Stop => exact tracked_t2Stop hw s
  | data payload => exact tracked_onData hp s payload
  | event event => exact tracked_onEvent hp s event
  | reset => exact tracked_resetState hw s
  | ack _ _ => exact .log (o := .acked (ctrlNr ctrl)) (by cases t <;> rfl) rfl (by cases t <;> rfl)
  | nullWindow _ _ => exact .log (o := .nullWindow) (by cases t <;> rfl) rfl (by cases t <;> rfl)
  | receive payload => exact .log (o := .received payload) (by cases t <;> rfl) rfl (by cases t <;> rfl)
  | link state => exact .of_eq rfl (by cases t <;> rfl)
  | rejException => exact .of_eq rfl (by cases t <;> rfl)
  | remoteBusy busy => exact .of_eq rfl (by cases t <;> rfl)
  | arm fromSeq _ _ _ => exact .of_eq rfl (by cases t <;> rfl)
  | frmr flags => exact .of_eq rfl (by cases t <;> rfl)

theorem rxBytes_tracked (hw : t.Wired st.platform) (hp : st.platform.Tracks t) (s : Ctx) (bytes : List UInt8) :
    Tracked t s (rxBytes st s bytes) := by
  refine rxBytes_induct (P := Tracked t s) (Q := fun _ => Tracked t s) ?_ ?_ ?_ (fun _ _ h => h) (.refl t s) bytes
  · exact fun s' u h => h.trans (.of_eq rfl (by cases t <;> rfl))
  · exact fun s' address ctrl info h => h.trans (.log (o := .dispatch address ctrl info) (by cases t <;> rfl) rfl
      (by cases t <;> rfl))
  · exact fun ctrl s' s'' he h => h.trans (he.tracked hw hp)

theorem retransmitLoop_tracked (w : TxWindow) (endVs fuel slotIdx : Nat) (s : Ctx) :
    Tracked t s (retransmitLoop st w endVs fuel slotIdx s) := by
  induction fuel generalizing slotIdx s with
  | zero => exact .refl t s
  | succ fuel ih =>
      simp only [retransmitLoop, frameSend_octets]
      refine .ite (fun _ => .refl t s) fun _ => ?_
      have hread : Tracked t s (s.log (.slotRead slotIdx)) := .log (by cases t <;> rfl) rfl (by cases t <;> rfl)
      have hsent := hread.trans (tracked_put st t _
        ⟨s.peerAddress, iCtrl s.vs s.vr false, readSlot w (s.log (.slotRead slotIdx)) slotIdx⟩)
      have hstep (u : Ctx) (vs : Nat) : Tracked t u { u with vs := vs } := .of_eq rfl (by cases t <;> rfl)
      exact (hsent.trans (hstep _ _)).trans (ih _ _)

theorem retransmitIfPending_tracked (hw : t.Wired st.platform) (s : Ctx) :
    Tracked t s (retransmitIfPending st s) := by
  unfold retransmitIfPending
  refine .ite (fun _ => ?_) fun _ => .refl t s
  cases st.txWindow with
  | none => exact .log (o := .nullWindow) (by cases t <;> rfl) rfl (by cases t <;> rfl)
  | some w =>
      simp only [retransmitOutstanding]
      have hback : Tracked t s { s with retransmitPending := false, vs := s.retransmitFrom } :=
        .of_eq rfl (by cases t <;> rfl)
      exact (hback.trans (retransmitLoop_tracked w _ 8 _ _)).trans (tracked_t1Start hw _)

theorem Deed.tracked (hw : t.Wired st.platform) (hp : st.platform.Tracks t) {call : Call}
    (hexpiry : call ≠ t.expiry) {s s' : Ctx} (h : Deed st call s s') : Tracked t s s' := by
  cases h with
  | put f => exact tracked_put st t s f
  | loose crc os hos _ =>
      refine .logs os (fun o ho => ?_) rfl (by cases t <;> rfl)
      have hloose := hos o ho
      cases o with
      | send byte flush => cases t <;> rfl
      | frame address ctrl moment => cases t <;> rfl
      | nullRead => cases t <;> rfl
      | _ => exact hloose.elim
  | t1Start => exact tracked_t1Start hw s
  | t2Stop => exact tracked_t2Stop hw s
  | t1Done h =>
      cases t with
      | t1 => exact absurd h hexpiry
      | t2 => exact .of_eq rfl rfl
  | t2Done h =>
      cases t with
      | t1 => exact .of_eq rfl rfl
      | t2 => exact absurd h hexpiry
  | event event => exact tracked_onEvent hp s event
  | reset _ => exact tracked_resetState hw s
  | accept w data _ _ => exact .log (o := .accept data.read) (by cases t <;> rfl) rfl (by cases t <;> rfl)
  | _ => exact .of_eq rfl (by cases t <;> rfl)

/-- The platform hears all that a call does to the bit of a timer, but for the timer's own expiry. -/
theorem Call.tracked (hw : t.Wired st.platform) (hp : st.platform.Tracks t) (s : Ctx) {c : Call}
    (hlegal : c.Legal) (hexpiry : c ≠ t.expiry) : Tracked t s (c.run st s) := by
  by_cases hin : ∃ bytes, c = .dataIn bytes
  · obtain ⟨bytes, rfl⟩ := hin
    exact (rxBytes_tracked hw hp s bytes).trans (retransmitIfPending_tracked hw _)
  · exact (Call.deeds st s hlegal fun bytes h => hin ⟨bytes, h⟩).induct (P := Tracked t s)
      (fun _ _ hd h => h.trans (hd.tracked hw hp hexpiry)) (.refl t s)

theorem t1Expired_tracked (hw : Timer.t1.Wired st.platform) (hp : st.platform.Tracks .t1) (s : Ctx) :
    Tracked .t1 { s with t1Active := false } (t1Expired st s) := by
  have hcount : Tracked .t1 { s with t1Active := false }
      { s with t1Active := false, n2 := (s.n2 + 1) % 256 } := .of_eq rfl rfl
  have hagain (f : Frame) : Tracked .t1 { s with t1Active := false }
      (t1Start st (Ctx.put { s with t1Active := false, n2 := (s.n2 + 1) % 256 } st f)) :=
    (hcount.trans (tracked_put st .t1 _ f)).trans (tracked_t1Start hw _)
  simp only [t1Expired, sendRr, sendRnr, sendU_eq, sendS_eq, retransmitFrmr_eq]
  refine .ite (fun _ => ?_) fun _ => ?_
  · refine Tracked.trans ?_ (tracked_resetState hw _)
    simp only [setState]
    refine .ite (fun _ => ?_) fun _ => hcount
    exact (hcount.trans (.of_eq rfl rfl)).trans (tracked_onEvent hp _ _)
  · split
    · exact hagain _
    · exact hagain _
    · refine .ite (fun _ => ?_) fun _ => hcount
      split_ifs
      · exact hagain _
      · exact hagain _
    · exact hagain _
    · exact hcount

/-- The platform hears all that the expiry does to the bit once it is cleared. -/
theorem expiry_tracked (hw : t.Wired st.platform) (hp : st.platform.Tracks t) (s : Ctx) :
    Tracked t (t.clear s) (t.expiry.run st s) := by
  cases t with
  | t1 => exact t1Expired_tracked hw hp s
  | t2 =>
      simp only [Timer.expiry, Call.run, AtcHdlc.t2Expired, sendRr, sendRnr, sendS_eq]
      exact .ite (fun _ => tracked_put st .t2 _ _) fun _ => tracked_put st .t2 _ _

end Tracked

end AtcHdlc
