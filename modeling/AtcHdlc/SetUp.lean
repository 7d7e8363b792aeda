import AtcHdlc.Connection

/-! Set-up and release over channels that lose nothing, collisions included. As long as T2 expires in a
session only, two stations with nothing between them are both connected or both disconnected. -/

namespace AtcHdlc

open DataLink

/-- The moves of two stations between which nothing is lost, and for which T1 is long enough. -/
def Opens (w : World) : Move → Prop
  | .call .t1Expired | .lose _ => False
  | m => Connects w m

/-- T2 expires in a session. -/
def Seasonable (w : World) (m : Move) : Prop := m = .call .t2Expired → w.near.ctx.currentState = .connected

/-- The three counters are where `reset_state` puts them. -/
def Zeroed (s : Ctx) : Prop := s.vs = 0 ∧ s.va = 0 ∧ s.vr = 0

/-- With nothing on the way both stations are up or both are down; a station that comes up begins at zero; and
no I-frame is the next to arrive at a station that is connecting. -/
structure Converges (w : World) : Prop where
  settled : w.near.out = [] → w.far.out = [] →
    w.near.ctx.currentState = .connected ∧ w.far.ctx.currentState = .connected ∨
      w.near.ctx.currentState = .disconnected ∧ w.far.ctx.currentState = .disconnected
  zeroed : ∀ m, Opens w m → w.near.ctx.currentState ≠ .connected →
    (w.step m).near.ctx.currentState = .connected → Zeroed (w.step m).near.ctx
  spared : w.near.ctx.currentState = .connecting → ∀ flight ∈ w.far.out.head?, isIframe flight.wire.ctrl = false

theorem Opens.connects {w : World} {m : Move} (h : Opens w m) : Connects w m := by
  cases m with
  | call c =>
      cases c with
      | t1Expired => exact h.elim
      | _ => exact h
  | lose i => exact h.elim
  | deliver n => exact h

section Entry

variable {st : Station}

/-- Only a frame that establishes the link brings a station up. -/
theorem establishes_of_linkAfter {s : Ctx} {ctrl : UInt8} (hdown : s.currentState ≠ .connected)
    (hup : linkAfter s ctrl = .connected) : establishes s ctrl = true := by
  unfold linkAfter at hup
  unfold establishes
  cases hstate : s.currentState with
  | connected => exact absurd hstate hdown
  | disconnected | frmrError =>
      simp only [hstate] at hup
      split_ifs at hup with hsabm
      simp [hsabm.1, hsabm.2]
  | connecting =>
      simp only [hstate] at hup
      split_ifs at hup with hua
      simp [hua.1, hua.2.1, hua.2.2]
  | disconnecting =>
      simp only [hstate] at hup
      split_ifs at hup

theorem zeroed_of_establishes (hp : st.platform.Passive) {s : Ctx} {f : Received}
    (hest : establishes s f.ctrl = true) : Zeroed (f.dispatch st s) := by
  have hreset (t : Ctx) : Zeroed (resetState st t) := by
    rw [resetState_eq]
    exact ⟨rfl, rfl, rfl⟩
  have hset {t : Ctx} (h : Zeroed t) (state : State) (event : Event) : Zeroed (setState st t state event) := by
    simp only [setState, onEvent_passive hp]
    split_ifs
    · exact h
    · exact h
  rw [dispatch_of_establishes hest]
  split_ifs
  · exact hset (hreset _) _ _
  · refine hset ?_ _ _
    simp only [sendUa, sendU_eq]
    exact hreset _

/-- A frame that brings a station up leaves its counters at zero. -/
theorem dataIn_zeroed (hp : st.platform.Passive) {s : Ctx} (hindex : s.rxIndex = 0)
    (hpending : s.retransmitPending = false) (crc : CrcOps) (f : Frame) (hdown : s.currentState ≠ .connected)
    (hup : (dataIn st s (f.octets crc)).currentState = .connected) : Zeroed (dataIn st s (f.octets crc)) := by
  unfold dataIn at hup ⊢
  rw [retransmitIfPending_currentState] at hup
  obtain ⟨t, hread⟩ := @rxBytes_octets_of_crc st s hindex crc f
  rw [hread] at hup ⊢
  by_cases hkeeps : Keeps st s.myAddress s.peerAddress (f.content crc)
  · rw [if_pos hkeeps] at hup ⊢
    have hlink : linkAfter (s.withParser t) f.arriving.ctrl = .connected :=
      (dispatchFrame_currentState hp (s.withParser t) f.arriving).symm.trans hup
    have hest : establishes (s.withParser t) f.arriving.ctrl = true := establishes_of_linkAfter hdown hlink
    have hunarmed : (f.arriving.dispatch st (s.withParser t)).retransmitPending = false :=
      (establishes_pending hp hest).trans hpending
    have hidle : retransmitIfPending st (rxRestart (f.arriving.dispatch st (s.withParser t)) .addr) =
        rxRestart (f.arriving.dispatch st (s.withParser t)) .addr := if_neg (ne_true_of_eq_false hunarmed)
    rw [hidle]
    exact zeroed_of_establishes hp hest
  · rw [if_neg hkeeps] at hup
    exact absurd hup hdown

/-- No call but `atc_hdlc_data_in` brings a station up. -/
theorem call_not_up (hp : st.platform.Passive) {w : World} {c : Call} (hc : Opens w (.call c)) {s : Ctx}
    (hdown : s.currentState ≠ .connected) : (c.run st s).currentState ≠ .connected := by
  cases c with
  | linkSetup peerAddr =>
      simp only [Call.run, linkSetup]
      split_ifs
      · exact hdown
      · rw [setState_currentState hp]
        decide
  | disconnect =>
      simp only [Call.run, disconnect]
      split_ifs
      · exact hdown
      · rw [setState_currentState hp]
        decide
  | transmitI data =>
      rcases @transmitI_cases st s data with hsame | ⟨tw, -, hup, -⟩
      · have hrun : Call.run st s (.transmitI data) = s := hsame
        rw [hrun]
        exact hdown
      · exact absurd hup hdown
  | setLocalBusy busy =>
      simp only [Call.run, setLocalBusy]
      rw [if_pos hdown]
      exact hdown
  | t2Expired =>
      simp only [Call.run, t2Expired, sendRr, sendRnr, sendS_eq]
      split_ifs
      · exact hdown
      · exact hdown
  | _ => exact hc.elim

end Entry

/-- The channels lose nothing, and there are no timers. -/
def losslessRules : Rules := ⟨mod8, False, False, False⟩

section Runs

variable {R : Rules} {bound : Nat} {w : World} {n : Net (List UInt8)}

/-- What is next to arrive at a station that is connecting. -/
theorem Related.opening_hears (h : Related R bound w n) (hphase : Converging n)
    (hstate : w.near.ctx.currentState = .connecting) {flight : Flight} (hflight : flight ∈ w.far.out.head?) :
    (∃ k, Carries w.far.station w.near.station.config.address flight (.setup k)) ∨
      Carries w.far.station w.near.station.config.address flight (.accept w.near.issued) := by
  obtain ⟨flights, hflights⟩ := List.head?_eq_some_iff.mp hflight
  have hout := h.far.out
  rw [hflights] at hout
  obtain ⟨m, rest, hm, -, hms⟩ := List.forall₂_cons_left_iff.mp hout
  have hopening : n.near.link = .opening := h.near.reflects.link.trans (linkOf_opening.mpr hstate)
  rcases hphase.opening_hears hopening hms.symm with ⟨k, rfl⟩ | rfl
  · exact Or.inl ⟨k, hm⟩
  · rw [← h.near.issued] at hm
    exact Or.inr hm

/-- Without losses and timers no answer comes late. -/
theorem Related.punctual (h : Related R bound w n) (hphase : Converging n) {m : Move} (hm : Opens w m)
    (hseason : Seasonable w m) : Punctual w m := by
  cases m with
  | call c =>
      cases c with
      | t1Expired => exact hm.elim
      | t2Expired => exact hseason rfl
      | _ => trivial
  | lose i => trivial
  | deliver k =>
      intro hstate flight hflight
      rcases h.opening_hears hphase hstate hflight with ⟨k, hsetup⟩ | haccept
      · have hctrl := hsetup.setup
        exact ⟨fun hua => absurd (hctrl.symm.trans hua) (by decide), fun hdm => absurd (hctrl.symm.trans hdm) (by decide)⟩
      · obtain ⟨hctrl, hnumber⟩ := haccept.accept
        exact ⟨fun _ => hnumber, fun hdm => absurd (hctrl.symm.trans hdm) (by decide)⟩

theorem Related.converging_step (h : Related losslessRules bound w n) (hphase : Converging n) (hwired : Wired w)
    (hlimited : Limited bound w) {m : Move} (hm : Opens w m) (hseason : Seasonable w m) :
    ∃ n', Related losslessRules bound (w.step m) n' ∧ Converging n' := by
  have hpunctual := h.punctual hphase hm hseason
  obtain ⟨n', hsteps, hrelated⟩ := h.step rfl hwired hm.connects hpunctual False.elim
    (fun hreject => absurd hreject hphase.not_reject.2)
    (fun heq => by rw [heq] at hm; exact hm.elim) (fun i heq => by rw [heq] at hm; exact hm.elim)
    fun _ _ hlen => hlen.trans hlimited.near
  exact ⟨n', hrelated, hphase.steps h.inv hsteps id id⟩

theorem Run.converging {w₀ : World} (hstart : Initial w₀)
    (hrun : Run (fun w m => Opens w m ∧ Seasonable w m) w₀ w) :
    Wired w ∧ ∃ n, Related losslessRules w₀.maxInfo w n ∧ Converging n := by
  suffices h : Wired w ∧ Limited w₀.maxInfo w ∧ ∃ n, Related losslessRules w₀.maxInfo w n ∧ Converging n from
    ⟨h.1, h.2.2⟩
  refine hrun.invariant
    (P := fun w => Wired w ∧ Limited w₀.maxInfo w ∧ ∃ n, Related losslessRules w₀.maxInfo w n ∧ Converging n)
    ⟨hstart.wired, limited_maxInfo w₀, _, hstart.related rfl _, Or.inl (.idle rfl rfl rfl rfl)⟩ ?_ ?_
  · rintro w ⟨hwired, hlimited, n, hrelated, hphase⟩
    exact ⟨hwired.swap, hlimited.swap, n.swap, hrelated.swap, hphase.swap⟩
  · rintro w m ⟨hwired, hlimited, n, hrelated, hphase⟩ ⟨hm, hseason⟩
    exact ⟨hwired.step m, hlimited.step m, hrelated.converging_step hphase hwired hlimited hm hseason⟩

theorem Related.converges (h : Related losslessRules bound w n) (hphase : Converging n) (hwired : Wired w) :
    Converges w := by
  constructor
  · intro hnear hfar
    have hout := h.near.out
    have hout' := h.far.out
    rw [hnear] at hout
    rw [hfar] at hout'
    have hquiet := hphase.quiescent (List.forall₂_nil_left_iff.mp hout) (List.forall₂_nil_left_iff.mp hout')
    rw [h.near.reflects.link, h.far.reflects.link] at hquiet
    exact hquiet.imp (And.imp linkOf_up.mp linkOf_up.mp) (And.imp linkOf_down.mp linkOf_down.mp)
  · intro m hm hdown hup
    cases m with
    | call c =>
        have hctx : (w.step (.call c)).near.ctx = c.run w.near.station w.near.ctx := (become_eq w.near _).1
        rw [hctx] at hup
        exact absurd hup (call_not_up hwired.nearPassive hm hdown)
    | lose i => exact hm.elim
    | deliver k =>
        obtain rfl : k = 1 := hm
        have hctx := (receive_eq w.near (w.far.out.take 1)).1
        have hnear : (w.step (.deliver 1)).near = w.near.receive (w.far.out.take 1) := rfl
        rw [hnear, hctx] at hup ⊢
        have hout := h.far.out
        cases hflights : w.far.out with
        | nil =>
            rw [hflights] at hup
            have hidle : (dataIn w.near.station w.near.ctx []).currentState = w.near.ctx.currentState :=
              retransmitIfPending_currentState _
            exact absurd (hidle.symm.trans hup) hdown
        | cons flight flights =>
            rw [hflights] at hout hup
            obtain ⟨m, -, ⟨f, hwire, -⟩, -, -⟩ := List.forall₂_cons_left_iff.mp hout
            have hoctets : ((flight :: flights).take 1).flatMap (fun f => f.wire.octets) =
                f.octets w.far.station.crc := by
              rw [List.take_succ_cons, List.take_zero, List.flatMap_singleton, hwire]
              rfl
            rw [hoctets] at hup ⊢
            exact dataIn_zeroed hwired.nearPassive h.near.index h.near.pending _ f hdown hup
  · intro hstate flight hflight
    rcases h.opening_hears hphase hstate hflight with ⟨k, hsetup⟩ | haccept
    · rw [hsetup.setup]
      rfl
    · rw [haccept.accept.1]
      rfl

end Runs

/-- In every run in which T2 expires in sessions only, set-up and release converge. -/
theorem setup_converges {w₀ w : World} (hstart : Initial w₀)
    (hrun : Run (fun w m => Opens w m ∧ Seasonable w m) w₀ w) : Converges w ∧ Converges w.swap := by
  obtain ⟨hwired, n, hrelated, hphase⟩ := hrun.converging hstart
  exact ⟨hrelated.converges hphase hwired, hrelated.swap.converges hphase.swap hwired.swap⟩

/-- Both stations set the link up at once. -/
def crossedWorld : World :=
  (((blankWorld.step (.call (.linkSetup 0x02))).stepFar (.call (.linkSetup 0x01))).step (.deliver 1)).stepFar (.deliver 1)

/-- The near station hears an I-frame, releases the link and sets it up again. -/
def reopenedWorld : World :=
  ((((((((blankWorld.step (.call (.linkSetup 0x02))).stepFar (.deliver 1)).step (.deliver 1)).stepFar
    (.call (.transmitI (.octets [0x11])))).step (.deliver 1)).step (.call .disconnect)).stepFar (.deliver 1)).step
      (.deliver 1)).step (.call (.linkSetup 0x02))

/-- T2 of the session before expires, and everything arrives. -/
def staleWorld : World :=
  ((((reopenedWorld.step (.call .t2Expired)).stepFar (.deliver 1)).stepFar (.deliver 1)).step (.deliver 1)).step
    (.deliver 1)

theorem setup_converges_mock : Converges crossedWorld ∧ Converges crossedWorld.swap := by
  refine setup_converges blankWorld_initial ?_
  refine .far _ (.near _ (.far _ (.near _ .start ?_) ?_) ?_) ?_
  · exact ⟨rfl, fun heq => absurd heq (by simp)⟩
  · exact ⟨rfl, fun heq => absurd heq (by simp)⟩
  · exact ⟨rfl, fun heq => absurd heq (by simp)⟩
  · exact ⟨rfl, fun heq => absurd heq (by simp)⟩

/-- The stale acknowledgement is rejected, and both stations end up in FRMR_ERROR. -/
theorem stale_t2_breaks_link :
    Initial blankWorld ∧ Run Opens blankWorld staleWorld ∧ staleWorld.near.out = [] ∧ staleWorld.far.out = [] ∧
      staleWorld.near.ctx.currentState = .frmrError ∧ staleWorld.far.ctx.currentState = .frmrError ∧
      ¬Converges staleWorld := by
  have hnear : staleWorld.near.ctx.currentState = .frmrError := by decide +kernel
  have hfar : staleWorld.far.ctx.currentState = .frmrError := by decide +kernel
  have hout : staleWorld.near.out = [] := by decide +kernel
  have hout' : staleWorld.far.out = [] := by decide +kernel
  refine ⟨blankWorld_initial, ?_, hout, hout', hnear, hfar, fun h => ?_⟩
  · refine .near _ (.near _ (.far _ (.far _ (.near _ (.near _ (.near _ (.far _ (.near _ (.near _ (.far _
      (.near _ (.far _ (.near _ .start ?_) ?_) ?_) ?_) ?_) ?_) ?_) ?_) ?_) ?_) ?_) ?_) ?_) ?_
    · exact rfl
    · exact rfl
    · exact rfl
    · exact Or.inl rfl
    · exact rfl
    · trivial
    · exact rfl
    · exact rfl
    · show (0x02 : UInt8) = _
      decide +kernel
    · show reopenedWorld.near.ctx.t2Active = true
      decide +kernel
    · exact rfl
    · exact rfl
    · exact rfl
    · exact rfl
  · rcases h.settled hout hout' with ⟨hup, -⟩ | ⟨hdown, -⟩
    · exact absurd (hnear.symm.trans hup) (by decide)
    · exact absurd (hnear.symm.trans hdown) (by decide)

end AtcHdlc
