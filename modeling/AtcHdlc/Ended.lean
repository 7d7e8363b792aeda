import AtcHdlc.Replies
import AtcHdlc.Transfer

/-! The end of a session. A SABM comes from `atc_hdlc_link_setup` and `atc_hdlc_link_reset` and from T1 in
CONNECTING only; so where neither is called a station that has left CONNECTED stays out of it. Two stations
that are CONNECTED have then been so all the time, and no expiry of T1 has exhausted the retries. -/

namespace AtcHdlc

open DataLink

/-- The session is over: DISCONNECTED or FRMR_ERROR. -/
def Over (s : Ctx) : Prop := s.currentState = .disconnected ∨ s.currentState = .frmrError

section Steps

variable {st : Station} {s s' s'' : Ctx}

/-- What is said without a SABM. -/
abbrev Said (st : Station) (v v' : LinkView) : Prop := LinkView.Replies st (fun f => NoSabm f.ctrl) v v'

/-- No frame is answered with a SABM. -/
theorem grants_noSabm (s : Ctx) (f : Received) : Grants (fun g => NoSabm g.ctrl) s f where
  short _ h := h
  rej _ := noSabm_sCtrl _ _ _
  frmr _ _ := noSabm_uCtrl (Or.inr (Or.inr (Or.inr rfl))) false
  echo _ := noSabm_uCtrl (Or.inr (Or.inr (Or.inl rfl))) _

/-- A station in a session, or in one that is over: it sends no SABM, and what is over stays so. -/
structure Lasts (st : Station) (s s' : Ctx) : Prop where
  state : s.currentState = .connected ∨ Over s → s'.currentState = .connected ∨ Over s'
  ended : Over s → Over s'
  replies : Said st (linkView s) (linkView s')

theorem Lasts.refl (s : Ctx) : Lasts st s s := ⟨id, id, .silent rfl⟩

theorem Lasts.trans (h : Lasts st s s') (h' : Lasts st s' s'') : Lasts st s s'' :=
  ⟨h'.state ∘ h.state, h'.ended ∘ h.ended, h.replies.trans h'.replies⟩

/-- The link state stays as it is. -/
theorem Lasts.of_state (hstate : s'.currentState = s.currentState)
    (hreplies : Said st (linkView s) (linkView s')) : Lasts st s s' := by
  refine ⟨fun h => ?_, fun h => ?_, hreplies⟩
  · unfold Over at h ⊢
    rw [hstate]
    exact h
  · unfold Over at h ⊢
    rw [hstate]
    exact h

theorem Lasts.put (s : Ctx) {f : Frame} (hf : NoSabm f.ctrl) : Lasts st s (s.put st f) := by
  refine .of_state rfl ?_
  rw [linkView_put]
  exact .say _ hf

theorem Lasts.of_view (h : linkView s' = linkView s) : Lasts st s s' :=
  .of_state (congrArg LinkView.currentState h) (.silent (congrArg LinkView.line h))

/-- Only a SABM opens a session. -/
theorem Lasts.dispatch (hp : st.platform.Passive) (s : Ctx) {f : Received} (hf : NoSabm f.ctrl) :
    Lasts st s (f.dispatch st s) := by
  have hafter := dispatchFrame_currentState hp s f
  refine ⟨fun h => ?_, fun h => ?_, ?_⟩
  · unfold Over
    rw [hafter]
    unfold linkAfter
    rcases h with hstate | hstate | hstate
    · rw [hstate]
      dsimp only
      split_ifs <;> simp
    · rw [hstate]
      dsimp only
      split_ifs <;> simp
    · rw [hstate]
      dsimp only
      split_ifs <;> simp
  · unfold Over
    rw [hafter]
    unfold linkAfter
    rcases h with hstate | hstate
    · rw [hstate]
      exact Or.inl (if_neg fun h => hf h.1 h.2)
    · rw [hstate]
      exact Or.inr (if_neg fun h => hf h.1 h.2)
  · rw [dispatchFrame_linkView hp]
    exact LinkView.replies_next (grants_noSabm s f)

theorem retransmitLoop_replies (w : TxWindow) (endVs fuel slotIdx : Nat) (s : Ctx) :
    Said st (linkView s) (linkView (retransmitLoop st w endVs fuel slotIdx s)) := by
  induction fuel generalizing slotIdx s with
  | zero => exact .silent rfl
  | succ fuel ih =>
      simp only [retransmitLoop, frameSend_octets]
      split_ifs
      · exact .silent rfl
      · have hlogged : linkView (s.log (.slotRead slotIdx)) = linkView s :=
          @linkView_logs s [.slotRead slotIdx] rfl rfl (by simp [Plain])
        have hput (t : Ctx) {f : Frame} (vs : Nat) (hf : NoSabm f.ctrl) :
            Said st (linkView t) (linkView { t.put st f with vs := vs }) := (Lasts.put t hf).replies
        rw [← hlogged]
        exact (hput _ _ (noSabm_iCtrl _ _ _)).trans (ih _ _)

theorem retransmitIfPending_lasts (s : Ctx) : Lasts st s (retransmitIfPending st s) := by
  refine .of_state (retransmitIfPending_currentState s) ?_
  unfold retransmitIfPending
  split_ifs
  · cases st.txWindow with
    | none =>
        have hlogged : linkView (s.log .nullWindow) = linkView s :=
          @linkView_logs s [.nullWindow] rfl rfl (by simp [Plain])
        exact .silent (congrArg LinkView.line hlogged)
    | some w =>
        simp only [retransmitOutstanding]
        rw [linkView_t1Start]
        exact retransmitLoop_replies w _ 8 _ _
  · exact .silent rfl

/-- Some frames of the other station, read between two frames. -/
theorem rxBytes_lasts (hp : st.platform.Passive) (crc : CrcOps) {fs : List Frame} (hfs : ∀ f ∈ fs, NoSabm f.ctrl)
    (s : Ctx) (hindex : s.rxIndex = 0) :
    Lasts st s (rxBytes st s (fs.flatMap (Frame.octets crc))) ∧
      (rxBytes st s (fs.flatMap (Frame.octets crc))).rxIndex = 0 := by
  induction fs generalizing s with
  | nil => exact ⟨.refl s, hindex⟩
  | cons f fs ih =>
      obtain ⟨t, hread⟩ := @rxBytes_octets_of_crc st s hindex crc f
      have hone : Lasts st s (rxBytes st s (f.octets crc)) ∧ (rxBytes st s (f.octets crc)).rxIndex = 0 := by
        have hparser : Lasts st s (s.withParser t) := .of_view rfl
        have hrestart (u : Ctx) : Lasts st u (rxRestart u .addr) := .of_view rfl
        rw [hread]
        split_ifs
        · have hf : NoSabm f.arriving.ctrl := hfs f List.mem_cons_self
          exact ⟨(hparser.trans (.dispatch hp _ hf)).trans (hrestart _), rfl⟩
        · exact ⟨hparser.trans (hrestart _), rfl⟩
      obtain ⟨hrest, hindex'⟩ := ih (fun g hg => hfs g (List.mem_cons_of_mem _ hg)) _ hone.2
      rw [List.flatMap_cons, rxBytes, List.foldl_append]
      exact ⟨hone.1.trans hrest, hindex'⟩

end Steps

/-- What the stations do that have a session and set up no other: payloads of at most `bound` octets, the busy
condition, and the expiries of T1 and T2 at any time. -/
def Operates (bound : Nat) (_ : World) : Move → Prop
  | .call (.transmitI data) => data.NonNull ∧ data.len ≤ bound
  | .call .t1Expired | .call (.setLocalBusy _) | .call .t2Expired | .lose _ | .deliver _ => True
  | _ => False

section Calls

variable {st : Station} {s : Ctx}

theorem t1Expired_lasts (hp : st.platform.Passive) (hs : s.currentState = .connected ∨ Over s) :
    Lasts st s (t1Expired st s) ∧ (Exhausted st (counted s) → Over (t1Expired st s)) := by
  have hcounted : Lasts st s (counted s) := .of_view rfl
  by_cases hspent : Exhausted st (counted s)
  · have hgone : t1Expired st s = resetState st (setState st (counted s) .disconnected .linkFailure) := if_pos hspent
    have hdown : (t1Expired st s).currentState = .disconnected := by
      rw [hgone, resetState_currentState, setState_currentState hp]
    refine ⟨⟨fun _ => Or.inr (Or.inl hdown), fun _ => Or.inl hdown, .silent ?_⟩, fun _ => Or.inl hdown⟩
    rw [hgone, linkView_resetState]
    exact congrArg LinkView.line (linkView_setState hp (counted s) _ _) |>.trans (by split_ifs <;> rfl)
  · refine ⟨?_, fun h => absurd h hspent⟩
    by_cases hwait : Awaiting s
    · have hrepeats : Repeats st (enquiry s) s := t1Expired_repeats hwait hspent
      have henquiry : NoSabm (enquiry s).ctrl := by
        unfold enquiry
        rcases hs with hstate | hstate | hstate
        · simp only [hstate]
          split_ifs
          · exact noSabm_sCtrl _ _ _
          · exact noSabm_sCtrl _ _ _
        · simp only [hstate]
          split_ifs
          · exact noSabm_sCtrl _ _ _
          · exact noSabm_sCtrl _ _ _
        · simp only [hstate]
          exact noSabm_uCtrl (Or.inr (Or.inr (Or.inr rfl))) false
      rw [Repeats] at hrepeats
      rw [hrepeats]
      exact (hcounted.trans (.put _ henquiry)).trans (.of_view (linkView_t1Start _))
    · have hidle : t1Expired st s = counted s := t1Expired_idle hwait hspent
      rw [hidle]
      exact hcounted

theorem Call.lasts (hp : st.platform.Passive) {bound : Nat} {w : World} {c : Call} (hc : Operates bound w (.call c))
    (hs : s.currentState = .connected ∨ Over s) : Lasts st s (c.run st s) := by
  cases c with
  | transmitI data =>
      rcases @transmitI_cases st s data with hsame | ⟨tw, -, hstate, -, -, -, haccepted⟩
      · have hrun : Call.run st s (.transmitI data) = s := hsame
        rw [hrun]
        exact .refl s
      · have hrun : Call.run st s (.transmitI data) = acceptI st tw s data := haccepted
        have hview := @linkView_acceptI st tw s data hc.1
        rw [hrun]
        refine .of_state (congrArg LinkView.currentState hview) ?_
        rw [hview]
        exact LinkView.Replies.say (P := fun f => NoSabm f.ctrl) (linkView s) (noSabm_iCtrl _ _ _)
  | setLocalBusy busy =>
      have hflag (b : Bool) : Lasts st s { s with localBusy := b } := .of_state rfl (.silent rfl)
      simp only [Call.run, AtcHdlc.setLocalBusy, sendRr, sendS_eq]
      split_ifs
      · exact .refl s
      · exact hflag true
      · exact (hflag false).trans (.put _ (noSabm_sCtrl _ _ _))
      · exact .refl s
  | t1Expired => exact (t1Expired_lasts hp hs).1
  | t2Expired =>
      have hstopped : Lasts st s { s with t2Active := false } := .of_state rfl (.silent rfl)
      simp only [Call.run, AtcHdlc.t2Expired, sendRr, sendRnr, sendS_eq]
      split_ifs
      · exact hstopped.trans (.put _ (noSabm_sCtrl _ _ _))
      · exact hstopped.trans (.put _ (noSabm_sCtrl _ _ _))
  | _ => exact hc.elim

end Calls

/-! ### Two stations -/

/-- A station in a session or past it, between two frames, with no SABM on its way. -/
structure Tame (e : Endpoint) : Prop where
  state : e.ctx.currentState = .connected ∨ Over e.ctx
  index : e.ctx.rxIndex = 0
  out : ∃ fs : List Frame, e.out.map Flight.wire = fs.map (Frame.wire e.station.crc) ∧ ∀ f ∈ fs, NoSabm f.ctrl

theorem Tame.of_lasts {e e' : Endpoint} (h : Tame e) {s : Ctx} (hctx : e'.ctx = s) (hstation : e'.station = e.station)
    (hs : Lasts e.station e.ctx s) (hindex : s.rxIndex = 0)
    (hout : ∀ l, wires s.trace = wires e.ctx.trace ++ l → e'.out.map Flight.wire = e.out.map Flight.wire ++ l) :
    Tame e' := by
  obtain ⟨fs, hfs, hall⟩ := h.out
  obtain ⟨gs, hgs, hall'⟩ := hs.replies.wires
  have hwires : wires s.trace = wires e.ctx.trace ++ gs.map (Frame.wire e.station.crc) := by
    rw [← wires_onLine, ← wires_onLine e.ctx.trace]
    exact hgs
  refine ⟨?_, ?_, fs ++ gs, ?_, fun f hf => ?_⟩
  · rw [hctx]
    exact hs.state h.state
  · rw [hctx]
    exact hindex
  · rw [hout _ hwires, hfs, hstation, List.map_append]
  · rcases List.mem_append.mp hf with hf | hf
    · exact hall f hf
    · exact hall' f hf

theorem Tame.call {bound : Nat} {w : World} {e : Endpoint} (hp : e.station.platform.Passive) (h : Tame e) {c : Call}
    (hc : Operates bound w (.call c)) : Tame (e.call c) := by
  have hlegal : c.Legal := by
    cases c with
    | transmitI data => exact hc.1
    | setLocalBusy | t1Expired | t2Expired => trivial
    | _ => exact hc.elim
  have hin : ∀ bytes, c ≠ .dataIn bytes := by
    rintro bytes rfl
    exact hc
  exact h.of_lasts (become_eq e _).1 (become_eq e _).2 (Call.lasts hp hc h.state)
    ((Call.rxIndex_eq hp e.ctx hlegal hin).trans h.index) fun l hl => become_wires hl

/-- Some of the frames on their way arrive. -/
theorem Tame.receive {e g : Endpoint} (hp : e.station.platform.Passive) (h : Tame e) (hg : Tame g) (n : Nat) :
    Tame (e.receive (g.out.take n)) ∧ (Over e.ctx → Over (e.receive (g.out.take n)).ctx) := by
  obtain ⟨fs, hfs, hall⟩ := hg.out
  obtain ⟨hctx, hstation⟩ := receive_eq e (g.out.take n)
  have htake : ∀ f ∈ fs.take n, NoSabm f.ctrl := fun f hf => hall f (List.mem_of_mem_take hf)
  have hread := rxBytes_lasts hp g.station.crc htake e.ctx h.index
  rw [← take_octets hfs n] at hread
  have hlasts := hread.1.trans (retransmitIfPending_lasts _)
  refine ⟨h.of_lasts hctx hstation hlasts ?_ fun l hl => receive_wires hl, fun hover => ?_⟩
  · exact (retransmitIfPending_agree _).rxIndex.trans hread.2
  · rw [hctx]
    exact hlasts.ended hover

/-- One of the sessions is over. -/
structure Finished (w : World) : Prop where
  near : Tame w.near
  far : Tame w.far
  ended : Over w.near.ctx ∨ Over w.far.ctx

theorem Finished.swap {w : World} (h : Finished w) : Finished w.swap := ⟨h.far, h.near, h.ended.symm⟩

theorem Tame.lose {e : Endpoint} (h : Tame e) (i : Nat) : Tame { e with out := e.out.eraseIdx i } := by
  obtain ⟨fs, hfs, hall⟩ := h.out
  refine ⟨h.state, h.index, fs.eraseIdx i, ?_, fun f hf => hall f (List.mem_of_mem_eraseIdx hf)⟩
  exact (List.eraseIdx_map _ _ _).symm.trans ((congrArg (List.eraseIdx · i) hfs).trans (List.eraseIdx_map _ _ _))

theorem Tame.drop {e : Endpoint} (h : Tame e) (n : Nat) : Tame { e with out := e.out.drop n } := by
  obtain ⟨fs, hfs, hall⟩ := h.out
  exact ⟨h.state, h.index, fs.drop n, drop_wires hfs n, fun f hf => hall f (List.mem_of_mem_drop hf)⟩

theorem Finished.step {bound : Nat} {w : World} (h : Finished w) (hp : w.near.station.platform.Passive) {m : Move}
    (hm : Operates bound w m) : Finished (w.step m) := by
  cases m with
  | call c =>
      refine ⟨h.near.call hp hm, h.far, h.ended.imp_left fun hover => ?_⟩
      have hlasts := Call.lasts hp hm h.near.state
      exact (become_eq w.near _).1 ▸ hlasts.ended hover
  | lose i => exact ⟨h.near.lose i, h.far, h.ended⟩
  | deliver n =>
      obtain ⟨hnear, hover⟩ := h.near.receive hp h.far n
      exact ⟨hnear, h.far.drop n, h.ended.imp_left hover⟩

theorem Stands.tame {peer : UInt8} {bound : Nat} {e : Endpoint} {x : Peer (List UInt8)} (h : Stands peer bound e x)
    (hup : x.link = .up) (hout : ∀ m ∈ x.out, m.nr?.isSome = true) : Tame e := by
  refine ⟨Or.inl (linkOf_up.mp (h.reflects.link.symm.trans hup)), h.index, ?_⟩
  have hcarried := h.out
  generalize e.out = flights at hcarried
  generalize x.out = ms at hcarried hout
  induction hcarried with
  | nil => exact ⟨[], rfl, by simp⟩
  | @cons flight m flights ms hm _ ih =>
      obtain ⟨f, hwire, hmeans⟩ := hm
      obtain ⟨fs, hfs, hall⟩ := ih fun m hm => hout m (List.mem_cons_of_mem _ hm)
      refine ⟨f :: fs, by rw [List.map_cons, hwire, hfs, List.map_cons], List.forall_mem_cons.mpr ⟨?_, hall⟩⟩
      exact noSabm_numbered (hmeans.numbered (hout m List.mem_cons_self))

/-- A move of the near station is one of a session, or the end of it. -/
theorem InSession.transfers_or_finished {bound : Nat} {w₀ w : World} {n : Net (List UInt8)}
    (h : InSession sessionRules bound w₀ w n) (hp : w.near.station.platform.Passive) {m : Move}
    (hm : Operates bound w m) : Transfers bound w m ∨ Finished (w.step m) := by
  have hnear := h.near.tame h.talking.near h.talking.nearOut
  have hfar := h.far.tame h.talking.far h.talking.farOut
  cases m with
  | call c =>
      cases c with
      | t1Expired =>
          by_cases hspent : Exhausted w.near.station (counted w.near.ctx)
          · refine Or.inr ⟨hnear.call hp hm, hfar, Or.inl ?_⟩
            exact (become_eq w.near _).1 ▸ (t1Expired_lasts hp hnear.state).2 hspent
          · exact Or.inl hspent
      | transmitI data => exact Or.inl hm
      | setLocalBusy busy => exact Or.inl trivial
      | t2Expired => exact Or.inl trivial
      | _ => exact hm.elim
  | lose i => exact Or.inl trivial
  | deliver k => exact Or.inl trivial

/-- A run of two stations that are both CONNECTED at its end is a run of a session. -/
theorem Run.transfers {bound : Nat} {w₀ w : World} (hstart : Paired w₀)
    (hrun : Run (fun w m => Operates bound w m ∧ Protects w m) w₀ w)
    (hnear : w.near.ctx.currentState = .connected) (hfar : w.far.ctx.currentState = .connected) :
    Run (fun w m => Transfers bound w m ∧ Protects w m) w₀ w := by
  have hpassive {v : World} (hv : Run (fun w m => Operates bound w m ∧ Protects w m) w₀ v) :
      v.near.station.platform.Passive ∧ v.far.station.platform.Passive := by
    obtain ⟨hnear, hfar⟩ := hv.stations
    rw [hnear, hfar]
    exact ⟨hstart.matched.nearPassive, hstart.matched.farPassive⟩
  have heither : Run (fun w m => Transfers bound w m ∧ Protects w m) w₀ w ∨ Finished w := by
    clear hnear hfar
    induction hrun with
    | start => exact Or.inl .start
    | near m hv hm ih =>
        rcases ih with hrun | hfinished
        · obtain ⟨-, n, hn⟩ := hrun.inSession hstart
          exact (hn.transfers_or_finished (hpassive hv).1 hm.1).imp_left fun h => .near m hrun ⟨h, hm.2⟩
        · exact Or.inr (hfinished.step (hpassive hv).1 hm.1)
    | far m hv hm ih =>
        rcases ih with hrun | hfinished
        · obtain ⟨-, n, hn⟩ := hrun.inSession hstart
          exact (hn.swap.transfers_or_finished (hpassive hv).2 hm.1).imp (fun h => .far m hrun ⟨h, hm.2⟩)
            Finished.swap
        · exact Or.inr (hfinished.swap.step (hpassive hv).2 hm.1).swap
  refine heither.resolve_right fun hfinished => ?_
  rcases hfinished.ended with (hover | hover) | (hover | hover)
  · exact absurd (hnear.symm.trans hover) (by decide)
  · exact absurd (hnear.symm.trans hover) (by decide)
  · exact absurd (hfar.symm.trans hover) (by decide)
  · exact absurd (hfar.symm.trans hover) (by decide)

end AtcHdlc
