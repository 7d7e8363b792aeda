import AtcHdlc.Connection

/-! Two stations that do not reject each other. A station answers with FRMR when it hears an N(R) from
outside its window, or a UA in the middle of a session; as long as no answer comes late, neither of them is
ever on its way to a station in a session. -/

namespace AtcHdlc

open DataLink

/-- The station is not in FRMR_ERROR and has sent no FRMR. -/
structure Peaceful (s : Ctx) : Prop where
  state : s.currentState ≠ .frmrError
  frames : ∀ x ∈ heads s.trace, x.2 ≠ uCtrl uFrmr false

/-- No UA arrives in a session. -/
def Expected (w : World) : Move → Prop
  | .deliver _ => w.near.ctx.currentState = .connected → ∀ flight ∈ w.far.out.head?,
      flight.wire.ctrl ≠ uCtrl uUa true
  | _ => True

section Frames

/-- What holds of the control octet of every frame that was begun holds of every frame on the line. -/
theorem wires_heads {P : UInt8 → Prop} (hzero : P 0) {trace : List Obs} (h : ∀ x ∈ heads trace, P x.2) :
    ∀ f ∈ wires trace, P f.ctrl := by
  have hfold (l : List Wire × Wire) (hl : ∀ f ∈ l.1, P f.ctrl) (hw : P l.2.ctrl) :
      ∀ f ∈ (trace.foldl wireStep l).1, P f.ctrl := by
    induction trace generalizing l with
    | nil => exact hl
    | cons o trace ih =>
        cases o with
        | frame address ctrl m =>
            have hctrl : P ctrl := h (address, ctrl) List.mem_cons_self
            exact ih (fun x hx => h x (List.mem_cons_of_mem _ hx)) (l.1, ⟨ctrl, []⟩) hl hctrl
        | send byte flush =>
            rw [List.foldl_cons, wireStep]
            cases flush with
            | false => exact ih h _ hl hw
            | true =>
                refine ih h _ (fun f hf => ?_) hw
                rcases List.mem_append.mp hf with hf | hf
                · exact hl f hf
                · rw [List.mem_singleton.mp hf]
                  exact hw
        | _ => exact ih h l hl hw
  exact hfold ([], ⟨0, []⟩) (fun f hf => absurd hf List.not_mem_nil) hzero

/-- A rule that does not look at the moment. -/
theorem upholds_heads (P : UInt8 → Prop) (trace : List Obs) :
    Upholds (fun ctrl _ => P ctrl) trace ↔ ∀ x ∈ heads trace, P x.2 := by
  induction trace with
  | nil => simp [Upholds, marks, heads]
  | cons o trace ih =>
      cases o with
      | frame address ctrl m =>
          have hmarks : Upholds (fun ctrl _ => P ctrl) (.frame address ctrl m :: trace) ↔
              P ctrl ∧ Upholds (fun ctrl _ => P ctrl) trace := List.forall_mem_cons
          have hheads : (∀ x ∈ heads (.frame address ctrl m :: trace), P x.2) ↔
              P ctrl ∧ ∀ x ∈ heads trace, P x.2 := List.forall_mem_cons
          rw [hmarks, hheads, ih]
      | _ => exact ih

theorem Peaceful.wires {s : Ctx} (h : Peaceful s) : ∀ f ∈ wires s.trace, f.ctrl ≠ uCtrl uFrmr false :=
  @wires_heads (· ≠ uCtrl uFrmr false) (by decide) s.trace h.frames

end Frames

section Calls

variable {st : Station}

/-- Some frames of which none is an FRMR, and a state that is not FRMR_ERROR. -/
theorem Peaceful.of_upholds {s s' : Ctx} (h : Peaceful s) (hstate : s'.currentState ≠ .frmrError)
    (hframes : Upholds (fun ctrl _ => ctrl ≠ uCtrl uFrmr false) s.trace →
      Upholds (fun ctrl _ => ctrl ≠ uCtrl uFrmr false) s'.trace) : Peaceful s' :=
  ⟨hstate, (upholds_heads (· ≠ uCtrl uFrmr false) _).mp
    (hframes ((upholds_heads (· ≠ uCtrl uFrmr false) _).mpr h.frames))⟩

theorem Peaceful.put {s : Ctx} (h : Peaceful s) {f : Frame} (hf : f.ctrl ≠ uCtrl uFrmr false) :
    Peaceful (s.put st f) :=
  h.of_upholds h.state fun hframes => (upholds_put s f).mpr ⟨hframes, hf⟩

theorem Peaceful.t1Start {s : Ctx} (h : Peaceful s) : Peaceful (t1Start st s) :=
  h.of_upholds h.state (upholds_t1Start s).mpr

theorem Peaceful.setState (hp : st.platform.Passive) {s : Ctx} (h : Peaceful s) {state : State}
    (hne : state ≠ .frmrError) (event : Event) : Peaceful (setState st s state event) :=
  h.of_upholds (by rw [setState_currentState hp]; exact hne) (upholds_setState hp s state event).mpr

theorem sCtrl_ne (kind nr : Nat) (pf : Bool) : sCtrl kind nr pf ≠ uCtrl uFrmr false :=
  beq_eq_false_iff_ne.mp (sCtrl_ne_frmr kind nr pf)

theorem iCtrl_ne (ns nr : Nat) : iCtrl ns nr false ≠ uCtrl uFrmr false := by
  intro heq
  have hi := (iCtrl_fields ns nr false).1
  rw [heq] at hi
  exact absurd hi (by decide)

/-- What a station that waits says again, outside FRMR_ERROR. -/
theorem enquiry_ne {s : Ctx} (h : s.currentState ≠ .frmrError) : (enquiry s).ctrl ≠ uCtrl uFrmr false := by
  unfold enquiry
  cases hstate : s.currentState with
  | frmrError => exact absurd hstate h
  | connecting => exact (show uCtrl uSabm true ≠ _ by decide)
  | disconnecting => exact (show uCtrl uDisc true ≠ _ by decide)
  | connected | disconnected =>
      dsimp only
      split_ifs
      · exact sCtrl_ne _ _ _
      · exact sCtrl_ne _ _ _

theorem t1Expired_peaceful (hp : st.platform.Passive) {s : Ctx} (h : Peaceful s) : Peaceful (t1Expired st s) := by
  have hcounted : Peaceful (counted s) := ⟨h.state, h.frames⟩
  by_cases hspent : Exhausted st (counted s)
  · have hgone : t1Expired st s = resetState st (setState st (counted s) .disconnected .linkFailure) := if_pos hspent
    rw [hgone]
    have hne : State.disconnected ≠ .frmrError := by decide
    have hset := hcounted.setState hp hne .linkFailure
    exact hset.of_upholds (by rw [resetState_currentState]; exact hset.state) (upholds_resetState _).mpr
  · by_cases hwait : Awaiting s
    · have hagain : t1Expired st s = t1Start st ((counted s).put st (enquiry s)) := t1Expired_repeats hwait hspent
      rw [hagain]
      exact (hcounted.put (enquiry_ne h.state)).t1Start
    · have hidle : t1Expired st s = counted s := t1Expired_idle hwait hspent
      rw [hidle]
      exact hcounted

/-- A call of the connection. -/
theorem Call.peaceful (hp : st.platform.Passive) {w : World} {c : Call} (hc : Connects w (.call c)) {s : Ctx}
    (h : Peaceful s) : Peaceful (c.run st s) := by
  cases c with
  | linkSetup peerAddr =>
      simp only [Call.run, AtcHdlc.linkSetup, sendU_eq]
      split_ifs
      · exact h
      · have hpeer : Peaceful { s with peerAddress := peerAddr } := ⟨h.state, h.frames⟩
        exact (hpeer.put (show uCtrl uSabm true ≠ _ by decide)).t1Start.setState hp (by decide) _
  | disconnect =>
      simp only [Call.run, AtcHdlc.disconnect, sendU_eq]
      split_ifs
      · exact h
      · exact (h.put (show uCtrl uDisc true ≠ _ by decide)).t1Start.setState hp (by decide) _
  | transmitI data =>
      rcases @transmitI_cases st s data with hsame | ⟨tw, -, hup, -, -, -, haccept⟩
      · have hrun : Call.run st s (.transmitI data) = s := hsame
        rw [hrun]
        exact h
      · have hrun : Call.run st s (.transmitI data) = acceptI st tw s data := haccept
        rw [hrun]
        refine h.of_upholds ?_ fun hframes => (acceptI_upholds_iff hc).mpr ⟨hframes, iCtrl_ne _ _⟩
        rw [(acceptI_view hc).2.2]
        exact h.state
  | setLocalBusy busy =>
      simp only [Call.run, AtcHdlc.setLocalBusy, sendRr, sendS_eq]
      split_ifs
      · exact h
      · exact ⟨h.state, h.frames⟩
      · have hcleared : Peaceful { s with localBusy := false } := ⟨h.state, h.frames⟩
        exact hcleared.put (sCtrl_ne _ _ _)
      · exact ⟨h.state, h.frames⟩
  | t1Expired => exact t1Expired_peaceful hp h
  | t2Expired =>
      have hstopped : Peaceful { s with t2Active := false } := ⟨h.state, h.frames⟩
      simp only [Call.run, AtcHdlc.t2Expired, sendRr, sendRnr, sendS_eq]
      split_ifs
      · exact hstopped.put (sCtrl_ne _ _ _)
      · exact hstopped.put (sCtrl_ne _ _ _)
  | _ => exact hc.elim

end Calls

section Arrival

variable {st : Station}

/-- What a station in a session takes without an FRMR. -/
def Harmless (s : Ctx) (ctrl : UInt8) : Prop :=
  s.currentState = .connected → (isUframe ctrl = false → nrValid s (ctrlNr ctrl) = true) ∧
    (isUframe ctrl = true → uCmd ctrl ≠ .ua ∧ uCmd ctrl ≠ .unknown ∧ uCmd ctrl ≠ .frmr)

theorem Peaceful.dispatch (hp : st.platform.Passive) {s : Ctx} (h : Peaceful s) {f : Received}
    (hf : Harmless s f.ctrl) : Peaceful (f.dispatch st s) := by
  constructor
  · rw [dispatchFrame_currentState hp]
    unfold linkAfter
    cases hstate : s.currentState with
    | frmrError => exact absurd hstate h.state
    | connected =>
        obtain ⟨hvalid, hcmd⟩ := hf hstate
        dsimp only
        split_ifs with hu hleft hfrmr hnr
        · decide
        · exact absurd hfrmr (hcmd hu).2.2
        · decide
        · decide
        · exact absurd (hvalid (Bool.eq_false_iff.mpr hu)) hnr
    | disconnected | connecting | disconnecting =>
        dsimp only
        split_ifs <;> decide
  · obtain ⟨l, hl, hmild⟩ := @LinkView.mild_next st s f fun hstate =>
      ⟨(hf hstate).1, fun hu => ⟨((hf hstate).2 hu).1, ((hf hstate).2 hu).2.1⟩⟩
    have hheads : heads (f.dispatch st s).trace = heads s.trace ++ l := by
      rw [← heads_onLine, ← heads_onLine s.trace]
      exact (congrArg (fun v => heads (LinkView.line v)) (dispatchFrame_linkView hp s f)).trans hl
    rw [hheads]
    intro x hx
    rcases List.mem_append.mp hx with hx | hx
    · exact h.frames x hx
    · exact hmild x hx

theorem retransmitIfPending_peaceful {s : Ctx} (h : Peaceful s) : Peaceful (retransmitIfPending st s) := by
  constructor
  · rw [retransmitIfPending_currentState]
    exact h.state
  · obtain ⟨-, l, hl, hkind⟩ := @retransmitIfPending_heads st s
    rw [hl]
    intro x hx hfrmr
    rcases List.mem_append.mp hx with hx | hx
    · exact h.frames x hx hfrmr
    · have hi := (hkind x hx).1
      rw [hfrmr] at hi
      exact absurd hi (by decide)

/-- A frame of any sender. -/
theorem dataIn_peaceful (hp : st.platform.Passive) {s : Ctx} (hindex : s.rxIndex = 0) (crc : CrcOps) {f : Frame}
    (h : Peaceful s) (hf : Harmless s f.ctrl) : Peaceful (dataIn st s (f.octets crc)) := by
  obtain ⟨t, hread⟩ := @rxBytes_octets_of_crc st s hindex crc f
  have hbefore : Peaceful (s.withParser t) := ⟨h.state, h.frames⟩
  unfold dataIn
  refine retransmitIfPending_peaceful ?_
  rw [hread]
  split_ifs
  · have hafter : Peaceful (f.arriving.dispatch st (s.withParser t)) := hbefore.dispatch hp hf
    exact ⟨hafter.state, hafter.frames⟩
  · exact ⟨hbefore.state, hbefore.frames⟩

/-- A frame of the partner draws no FRMR if its N(R) is valid, it is no UA in a session, and no FRMR. -/
theorem Means.harmless {my p : UInt8} {f : Frame} {n : Nat} {m : Msg (List UInt8)} (h : Means my p f n m) {s : Ctx}
    (hnr : s.currentState = .connected → ∀ r, m.nr? = some r → nrValid s (r % mod8) = true)
    (hua : s.currentState = .connected → f.ctrl ≠ uCtrl uUa true) (hfrmr : f.ctrl ≠ uCtrl uFrmr false) :
    Harmless s f.ctrl := by
  intro hstate
  have hunnumbered {ctrl : UInt8} (hctrl : f.ctrl = ctrl) (hu : isUframe ctrl = true)
      (hcmd : uCmd ctrl ≠ .ua ∧ uCmd ctrl ≠ .unknown ∧ uCmd ctrl ≠ .frmr) :
      (isUframe f.ctrl = false → nrValid s (ctrlNr f.ctrl) = true) ∧
        (isUframe f.ctrl = true → uCmd f.ctrl ≠ .ua ∧ uCmd f.ctrl ≠ .unknown ∧ uCmd f.ctrl ≠ .frmr) := by
    rw [hctrl]
    exact ⟨fun hnot => absurd (hu.symm.trans hnot) (by decide), fun _ => hcmd⟩
  have hnumbered {r : Nat} (hr : m.nr? = some r) (hctrl : ctrlNr f.ctrl = r % mod8) :
      (isUframe f.ctrl = false → nrValid s (ctrlNr f.ctrl) = true) ∧
        (isUframe f.ctrl = true → uCmd f.ctrl ≠ .ua ∧ uCmd f.ctrl ≠ .unknown ∧ uCmd f.ctrl ≠ .frmr) := by
    have hu : isUframe f.ctrl = false := h.numbered (by rw [hr]; rfl)
    rw [hctrl]
    exact ⟨fun _ => hnr hstate r hr, fun hnot => absurd (hu.symm.trans hnot) (by decide)⟩
  cases h with
  | data k r haddr hctrl => exact hnumbered rfl (by rw [hctrl]; exact (iCtrl_fields k r false).2.2.1)
  | ack kind r poll haddr hctrl hinfo => exact hnumbered rfl (by rw [hctrl]; exact (sCtrl_fields kind r poll).2.2.1)
  | setup heq => exact hunnumbered (show f.ctrl = uCtrl uSabm true by rw [heq]) (by decide) (by decide)
  | release heq => exact hunnumbered (show f.ctrl = uCtrl uDisc true by rw [heq]) (by decide) (by decide)
  | refuse heq => exact hunnumbered (show f.ctrl = uCtrl uDm true by rw [heq]) (by decide) (by decide)
  | accept heq => exact absurd (congrArg Frame.ctrl heq) (hua hstate)
  | reject haddr hctrl hinfo => exact absurd hctrl hfrmr

end Arrival

/-! ### Two stations -/

/-- A station that has sent no FRMR, and has none on its way. -/
structure Polite (e : Endpoint) : Prop where
  peaceful : Peaceful e.ctx
  out : ∀ flight ∈ e.out, flight.wire.ctrl ≠ uCtrl uFrmr false

theorem Polite.become {e : Endpoint} (h : Polite e) {s : Ctx} (hs : Peaceful s) : Polite (e.become s) := by
  constructor
  · rw [(become_eq e s).1]
    exact hs
  · intro flight hflight
    rcases (foldl_emit_out { e with ctx := s } _).2.2 flight hflight with hold | hnew
    · exact h.out flight hold
    · exact hs.wires flight.wire (List.mem_of_mem_drop hnew)

/-- T1 runs, and channels lose whole frames. -/
def connectionRules : Rules := ⟨mod8, False, True, True⟩

section Runs

variable {bound : Nat} {w : World} {n : Net (List UInt8)}

/-- What is next to arrive draws no FRMR. -/
theorem Related.harmless (h : Related connectionRules bound w n) (hfar : Polite w.far) {flight : Flight}
    {flights : List Flight} (hflights : w.far.out = flight :: flights)
    (hexpected : w.near.ctx.currentState = .connected → flight.wire.ctrl ≠ uCtrl uUa true) :
    ∃ f : Frame, flight.wire = f.wire w.far.station.crc ∧ Harmless w.near.ctx f.ctrl := by
  have hout := h.far.out
  rw [hflights] at hout
  obtain ⟨m, rest, ⟨f, hwire, hmeans⟩, -, hms⟩ := List.forall₂_cons_left_iff.mp hout
  have hctrl : flight.wire.ctrl = f.ctrl := by rw [hwire, Frame.wire]
  refine ⟨f, hwire, hmeans.harmless (fun hstate r hr => ?_) (fun hstate => ?_) ?_⟩
  · have hup : n.near.link = .up := h.near.reflects.link.trans (linkOf_up.mpr hstate)
    have hm : m ∈ n.far.out := by
      rw [hms]
      exact List.mem_cons_self
    obtain ⟨hadvance, -, hle⟩ := h.inv.near.advance_eq h.inv.far hup hm hr
    refine (h.near.reflects.nrValid_iff (Nat.mod_lt r (by decide))).mpr ?_
    rw [← hadvance] at hle
    exact hle
  · rw [← hctrl]
    exact hexpected hstate
  · rw [← hctrl]
    refine hfar.out flight ?_
    rw [hflights]
    exact List.mem_cons_self

theorem Related.polite_deliver (h : Related connectionRules bound w n) (hwired : Wired w) (hnear : Polite w.near)
    (hfar : Polite w.far) (hexpected : Expected w (.deliver 1)) : Polite (w.near.receive (w.far.out.take 1)) := by
  obtain ⟨heard, hhear⟩ := foldl_hear w.near (w.far.out.take 1)
  have hheard : Polite { w.near with heard := heard } := ⟨hnear.peaceful, hnear.out⟩
  rw [Endpoint.receive, hhear]
  refine hheard.become ?_
  cases hflights : w.far.out with
  | nil => exact retransmitIfPending_peaceful hnear.peaceful
  | cons flight flights =>
      have hhead : flight ∈ w.far.out.head? := by rw [hflights, List.head?_cons]; rfl
      obtain ⟨f, hwire, hharmless⟩ := h.harmless hfar hflights fun hstate => hexpected hstate flight hhead
      have hoctets : ((flight :: flights).take 1).flatMap (fun f => f.wire.octets) = f.octets w.far.station.crc := by
        rw [List.take_succ_cons, List.take_zero, List.flatMap_singleton, hwire]
        rfl
      rw [hoctets]
      exact dataIn_peaceful hwired.nearPassive h.near.index _ hnear.peaceful hharmless

/-- A move of the near station. -/
theorem Related.polite_step (h : Related connectionRules bound w n) (hwired : Wired w) (hnear : Polite w.near)
    (hfar : Polite w.far) {m : Move} (hm : Connects w m) (hexpected : Expected w m) :
    Polite (w.step m).near ∧ Polite (w.step m).far := by
  cases m with
  | call c => exact ⟨hnear.become (Call.peaceful hwired.nearPassive hm hnear.peaceful), hfar⟩
  | lose i => exact ⟨⟨hnear.peaceful, fun flight hflight => hnear.out flight (List.mem_of_mem_eraseIdx hflight)⟩, hfar⟩
  | deliver k =>
      obtain rfl : k = 1 := hm
      refine ⟨h.polite_deliver hwired hnear hfar hexpected, hfar.peaceful, fun flight hflight => ?_⟩
      exact hfar.out flight (List.mem_of_mem_drop hflight)

end Runs

/-- What holds along a run in which no answer comes late. -/
structure Agreeable (bound : Nat) (w : World) : Prop where
  wired : Wired w
  bounded : Limited bound w
  related : ∃ n, Related connectionRules bound w n
  near : Polite w.near
  far : Polite w.far

theorem Initial.polite {st : Station} {mem : Memory} {peer : UInt8} : Polite (.initial st mem peer) :=
  ⟨⟨show State.disconnected ≠ .frmrError by decide, fun _ hx => absurd hx List.not_mem_nil⟩, fun _ hflight => absurd hflight List.not_mem_nil⟩

theorem Run.agreeable {w₀ w : World} (hstart : Initial w₀)
    (hrun : Run (fun w m => Connects w m ∧ Punctual w m ∧ Expected w m) w₀ w) : Agreeable w₀.maxInfo w := by
  obtain ⟨mem, hnear⟩ := hstart.near
  obtain ⟨mem', hfar⟩ := hstart.far
  refine hrun.invariant (P := Agreeable w₀.maxInfo) ⟨hstart.wired, limited_maxInfo w₀, ⟨_, hstart.related rfl _⟩, ?_, ?_⟩
    ?_ ?_
  · rw [hnear]
    exact Initial.polite
  · rw [hfar]
    exact Initial.polite
  · rintro w ⟨hwired, hlimited, ⟨n, hrelated⟩, hnear, hfar⟩
    exact ⟨hwired.swap, hlimited.swap, ⟨n.swap, hrelated.swap⟩, hfar, hnear⟩
  · rintro w m ⟨hwired, hlimited, ⟨n, hrelated⟩, hnear, hfar⟩ ⟨hm, hpunctual, hexpected⟩
    obtain ⟨n', -, hrelated'⟩ := hrelated.step rfl hwired hm hpunctual False.elim (fun _ => trivial)
      (fun _ => trivial) (fun _ _ => trivial) fun _ _ hlen => hlen.trans hlimited.near
    obtain ⟨hnear', hfar'⟩ := hrelated.polite_step hwired hnear hfar hm hexpected
    exact ⟨hwired.step m, hlimited.step m, ⟨n', hrelated'⟩, hnear', hfar'⟩

/-- In every run in which no answer comes late and no UA arrives in a session, neither station sends an FRMR or
enters FRMR_ERROR. -/
theorem no_rejection {w₀ w : World} (hstart : Initial w₀)
    (hrun : Run (fun w m => Connects w m ∧ Punctual w m ∧ Expected w m) w₀ w) :
    Peaceful w.near.ctx ∧ Peaceful w.far.ctx := by
  have hagreeable := hrun.agreeable hstart
  exact ⟨hagreeable.near.peaceful, hagreeable.far.peaceful⟩

/-- The first SABM is lost, and T1 repeats it. -/
def retriedWorld : World :=
  ((((blankWorld.step (.call (.linkSetup 0x02))).step (.lose 0)).step (.call .t1Expired)).stepFar (.deliver 1)).step
    (.deliver 1)

/-- The first SABM is only late. -/
def doubledWorld : World :=
  ((((((blankWorld.step (.call (.linkSetup 0x02))).step (.call .t1Expired)).stepFar (.deliver 1)).stepFar
    (.deliver 1)).step (.deliver 1)).step (.deliver 1)).stepFar (.deliver 1)

theorem no_rejection_mock : Peaceful retriedWorld.near.ctx ∧ Peaceful retriedWorld.far.ctx := by
  refine no_rejection blankWorld_initial ?_
  refine .near _ (.far _ (.near _ (.near _ (.near _ .start ?_) ?_) ?_) ?_) ?_
  · exact ⟨rfl, trivial, trivial⟩
  · exact ⟨trivial, trivial, trivial⟩
  · exact ⟨rfl, fun hspent => absurd hspent.2 (by decide +kernel), trivial⟩
  · exact ⟨rfl, fun hstate => absurd hstate (by decide +kernel), fun hstate => absurd hstate (by decide +kernel)⟩
  · refine ⟨rfl, fun _ => ?_, fun hstate => absurd hstate (by decide +kernel)⟩
    decide +kernel

/-- The UA that answers the repeated SABM is answered with FRMR, and the other station ends up in FRMR_ERROR. -/
theorem late_ua_rejected :
    Initial blankWorld ∧ Run Connects blankWorld doubledWorld ∧ ¬Peaceful doubledWorld.near.ctx ∧
      ¬Peaceful doubledWorld.far.ctx ∧ doubledWorld.near.ctx.currentState = .connected ∧
      doubledWorld.far.ctx.currentState = .frmrError := by
  have hnear : doubledWorld.near.ctx.currentState = .connected := by decide +kernel
  have hfar : doubledWorld.far.ctx.currentState = .frmrError := by decide +kernel
  have hframe : (0x01, uCtrl uFrmr false) ∈ heads doubledWorld.near.ctx.trace := by decide +kernel
  refine ⟨blankWorld_initial, ?_, fun h => h.frames _ hframe rfl, fun h => h.state hfar, hnear, hfar⟩
  refine .far _ (.near _ (.near _ (.far _ (.far _ (.near _ (.near _ .start ?_) ?_) ?_) ?_) ?_) ?_) ?_
  · exact rfl
  · exact rfl
  · exact rfl
  · exact rfl
  · exact rfl
  · exact rfl
  · exact rfl

end AtcHdlc
