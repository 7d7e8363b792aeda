import AtcHdlc.Acknowledge

/-! The events for which an application waits after a refusal. The step that opens a full window calls
`on_event` with WINDOW_OPEN, always; the step that ends the peer's busy condition calls it with PEER_READY
when an RR ends it, and does not when a REJ does. -/

namespace AtcHdlc

/-- The calls of `on_event` with an event. -/
def fired (event : Event) (trace : List Obs) : Nat := trace.count (.event event)

theorem fired_upper (event : Event) (trace : List Obs) : fired event (upper trace) = fired event trace :=
  List.count_filter rfl

/-- The window refuses a payload. -/
def Full (st : Station) (s : Ctx) : Prop := ∃ w, st.txWindow = some w ∧ outstanding s ≥ w.slotCount

/-- An RR ends the peer's busy condition. -/
def wakes (s : Ctx) (ctrl : UInt8) : Bool :=
  s.currentState = .connected && isSframe ctrl && ctrlS ctrl = sRr && s.remoteBusy

/-- An acknowledgement opens a full window. -/
def opens (st : Station) (s : Ctx) (ctrl : UInt8) : Bool :=
  acks s ctrl &&
    match st.txWindow with
    | some w => decide (u8 (((s.vs : Int) - s.va) % mod8) ≥ w.slotCount)
    | none => false

/-- The events that a refused application waits for, as a frame brings them. -/
def awaited (st : Station) (s : Ctx) (ctrl : UInt8) : Event → Nat
  | .peerReady => if wakes s ctrl then 1 else 0
  | .windowOpen => if opens st s ctrl then 1 else 0
  | _ => 0

section Frames

variable {st : Station}

namespace LinkView

theorem sessions_next (s : Ctx) (f : Received) :
    ((linkView s).next st s f).sessions =
      (linkView s).sessions + if resets s f.ctrl then 1 else 0 := by
  have hacknowledge (v : LinkView) (pf : Bool) : (v.acknowledge st pf).sessions = v.sessions := by
    unfold acknowledge
    split_ifs <;> rfl
  have hrefuse (v : LinkView) (pf : Bool) : (v.refuse st pf).sessions = v.sessions := by
    unfold refuse
    split_ifs <;> rfl
  have hpoll (v : LinkView) (polled : Bool) : (v.poll st polled).sessions = v.sessions := by
    unfold poll
    split_ifs <;> rfl
  have hbusy (v : LinkView) (kind : Nat) : (v.busy st kind).sessions = v.sessions := by
    unfold busy
    split_ifs <;> rfl
  unfold next resets
  cases s.currentState with
  | disconnected | frmrError => cases isUframe f.ctrl <;> cases uCmd f.ctrl <;> rfl
  | connecting | disconnecting =>
      cases isUframe f.ctrl <;> cases uCmd f.ctrl <;> cases ctrlPf f.ctrl <;> rfl
  | connected =>
      rcases ctrl_cases f.ctrl with ⟨hi, -, hu⟩ | ⟨hi, -, hu⟩ | ⟨-, -, hu⟩
      · simp only [hi, hu, Bool.false_and, Bool.false_eq_true, if_false, if_true, Nat.add_zero]
        by_cases hvalid : nrValid s (ctrlNr f.ctrl) = true
        · rw [if_neg (not_not.mpr hvalid)]
          split_ifs
          · exact hacknowledge _ _
          · exact hrefuse _ _
        · rw [if_pos hvalid]
          rfl
      · simp only [hi, hu, Bool.false_and, Bool.false_eq_true, if_false, Nat.add_zero]
        have hpolled := (hpoll ((linkView s).busy st (ctrlS f.ctrl))
          (isCmd s f.address && ctrlPf f.ctrl)).trans (hbusy (linkView s) (ctrlS f.ctrl))
        by_cases hvalid : nrValid s (ctrlNr f.ctrl) = true
        · rw [if_neg (not_not.mpr hvalid)]
          exact hpolled
        · rw [if_pos hvalid]
          exact hpolled
      · simp only [hu, Bool.true_and, if_true, unnumbered]
        cases uCmd f.ctrl with
        | test =>
            cases isCmd s f.address with
            | true => rfl
            | false => cases f.info <;> rfl
        | _ => rfl

theorem fired_tell (event : Event) (v : LinkView) (os : List Obs) :
    fired event (v.tell os).told = fired event v.told + fired event os := List.count_append

theorem fired_dataObs (event : Event) (payload : List UInt8) : fired event (dataObs st payload) = 0 := by
  unfold dataObs
  split_ifs <;> rfl

variable (hevent : st.platform.onEvent.isSome = true)
include hevent

theorem fired_eventObs (event event' : Event) :
    fired event (eventObs st event') = if event' = event then 1 else 0 := by
  rw [eventObs, if_pos hevent]
  by_cases heq : event' = event
  · subst heq
    rw [if_pos rfl]
    exact List.count_singleton_self
  · rw [if_neg heq]
    refine List.count_eq_zero.mpr fun hmem => heq ?_
    simpa using (List.mem_singleton.mp hmem).symm

/-- What an acknowledgement tells. -/
theorem fired_opened (s : Ctx) {ctrl : UInt8} (hstate : s.currentState = .connected)
    (hu : isUframe ctrl = false) (hvalid : nrValid s (ctrlNr ctrl) = true) (event : Event) :
    fired event (opened st s (ctrlNr ctrl)) =
      if event = .windowOpen then if opens st s ctrl then 1 else 0 else 0 := by
  have hacks : acks s ctrl = decide (ctrlNr ctrl ≠ s.va) := by simp [acks, hstate, hu, hvalid]
  unfold opened opens
  rw [hacks]
  by_cases heq : ctrlNr ctrl = s.va
  · rw [if_pos heq]
    simp [heq, fired]
  · rw [if_neg heq]
    cases st.txWindow with
    | none => simp [fired]
    | some w =>
        by_cases hfull : u8 (((s.vs : Int) - s.va) % mod8) ≥ w.slotCount
        · simp only [if_pos hfull, fired_eventObs hevent]
          simp [heq, hfull, eq_comm]
        · simp only [if_neg hfull]
          simp [heq, hfull, fired]

theorem fired_busy (v : LinkView) (kind : Nat) {event : Event} (h : event = .peerReady ∨ event = .windowOpen) :
    fired event (v.busy st kind).told =
      fired event v.told + if event = .peerReady ∧ kind = sRr ∧ v.remoteBusy = true then 1 else 0 := by
  have hbusy : fired event (eventObs st .peerBusy) = 0 := by
    rw [fired_eventObs hevent]
    rcases h with rfl | rfl <;> rfl
  unfold busy
  by_cases hrr : kind = sRr
  · rw [if_pos hrr, fired_tell]
    cases hremote : v.remoteBusy with
    | true =>
        rw [if_pos rfl, fired_eventObs hevent]
        simp [hrr, eq_comm]
    | false => simp [fired]
  · rw [if_neg hrr]
    by_cases hrnr : kind = sRnr
    · rw [if_pos hrnr, fired_tell]
      cases v.remoteBusy with
      | true => simp [hrr, fired]
      | false => simp [hrr, hbusy]
    · rw [if_neg hrnr]
      simp only [hrr, false_and, and_false, if_false, Nat.add_zero]
      split_ifs <;> rfl

theorem fired_next (s : Ctx) (f : Received) {event : Event} (h : event = .peerReady ∨ event = .windowOpen) :
    fired event ((linkView s).next st s f).told =
      fired event (linkView s).told + awaited st s f.ctrl event := by
  have hacknowledge (v : LinkView) (pf : Bool) : (v.acknowledge st pf).told = v.told := by
    unfold acknowledge
    split_ifs <;> rfl
  have hrefuse (v : LinkView) (pf : Bool) : (v.refuse st pf).told = v.told := by
    unfold refuse
    split_ifs <;> rfl
  have hpoll (v : LinkView) (polled : Bool) : (v.poll st polled).told = v.told := by
    unfold poll
    split_ifs <;> rfl
  have hother {event' : Event} (hne : event' ≠ .peerReady ∧ event' ≠ .windowOpen) (v : LinkView) :
      fired event (v.tell (eventObs st event')).told = fired event v.told := by
    rw [fired_tell, fired_eventObs hevent]
    rcases h with rfl | rfl
    · rw [if_neg hne.1, Nat.add_zero]
    · rw [if_neg hne.2, Nat.add_zero]
  have hdata (v : LinkView) (payload : List UInt8) :
      fired event (v.tell (dataObs st payload)).told = fired event v.told := by
    rw [fired_tell, fired_dataObs, Nat.add_zero]
  by_cases hstate : s.currentState = .connected
  · rcases ctrl_cases f.ctrl with ⟨hi, hs, hu⟩ | ⟨hi, hs, hu⟩ | ⟨hi, hs, hu⟩
    · have hwakes : wakes s f.ctrl = false := by simp [wakes, hs]
      simp only [next, hstate, hi, hu, Bool.false_eq_true, if_false, if_true]
      by_cases hvalid : nrValid s (ctrlNr f.ctrl) = true
      · rw [if_neg (not_not.mpr hvalid)]
        have hopened : fired event ((linkView s).tell (opened st s (ctrlNr f.ctrl))).told =
            fired event (linkView s).told + awaited st s f.ctrl event := by
          rw [fired_tell, fired_opened hevent s hstate hu hvalid]
          rcases h with rfl | rfl
          · simp [awaited, hwakes]
          · simp [awaited]
        rw [← hopened]
        by_cases hseq : ctrlNs f.ctrl = s.vr
        · rw [if_pos hseq, receive, hacknowledge]
          exact hdata _ _
        · rw [if_neg hseq, hrefuse]
      · have hnone : awaited st s f.ctrl event = 0 := by
          rcases h with rfl | rfl
          · simp [awaited, hwakes]
          · simp [awaited, opens, acks, hvalid]
        rw [if_pos hvalid, hnone, Nat.add_zero]
        exact hother (by decide) _
    · simp only [next, hstate, hi, hu, Bool.false_eq_true, if_false]
      have hbusy := fired_busy hevent (linkView s) (ctrlS f.ctrl) h
      have hpolled : fired event (((linkView s).busy st (ctrlS f.ctrl)).poll st
          (isCmd s f.address && ctrlPf f.ctrl)).told = fired event (linkView s).told +
          if event = .peerReady ∧ ctrlS f.ctrl = sRr ∧ s.remoteBusy = true then 1 else 0 := by
        rw [hpoll, hbusy]
        rfl
      by_cases hvalid : nrValid s (ctrlNr f.ctrl) = true
      · rw [if_neg (not_not.mpr hvalid), fired_tell, hpolled, fired_opened hevent s hstate hu hvalid, Nat.add_assoc]
        rcases h with rfl | rfl
        · simp [awaited, wakes, hstate, hs]
        · simp [awaited]
      · have hopens : opens st s f.ctrl = false := by simp [opens, acks, hvalid]
        rw [if_pos hvalid]
        refine (hother (by decide) _).trans (hpolled.trans ?_)
        rcases h with rfl | rfl
        · simp [awaited, wakes, hstate, hs]
        · simp [awaited, hopens]
    · have hnone : awaited st s f.ctrl event = 0 := by
        rcases h with rfl | rfl <;> simp [awaited, wakes, opens, acks, hs, hu]
      simp only [next, hstate, hu, if_true, hnone, Nat.add_zero, unnumbered]
      cases uCmd f.ctrl with
      | sabm | disc | dm | frmr => exact hother (by decide) _
      | ui => exact hdata _ _
      | test =>
          cases isCmd s f.address with
          | true => rfl
          | false =>
              cases f.info with
              | some payload => exact hdata _ _
              | none => rfl
      | snrm | sabme | snrme | sarme | ua | unknown => rfl
  · have hnone : awaited st s f.ctrl event = 0 := by
      rcases h with rfl | rfl <;> simp [awaited, wakes, opens, acks, hstate]
    rw [hnone, Nat.add_zero]
    unfold next
    cases hlink : s.currentState with
    | connected => exact absurd hlink hstate
    | disconnected =>
        cases isUframe f.ctrl with
        | false => rfl
        | true =>
            cases uCmd f.ctrl with
            | sabm => exact hother (by decide) _
            | ui => exact hdata _ _
            | disc | snrm | sabme | snrme | sarme | ua | dm | frmr | test | unknown => rfl
    | connecting =>
        cases isUframe f.ctrl with
        | false => rfl
        | true =>
            cases uCmd f.ctrl with
            | ua =>
                cases ctrlPf f.ctrl with
                | false => rfl
                | true => exact hother (by decide) _
            | dm =>
                cases ctrlPf f.ctrl with
                | false => rfl
                | true => exact hother (by decide) _
            | sabm | disc | ui | frmr | test | snrm | sabme | snrme | sarme | unknown => rfl
    | disconnecting =>
        cases isUframe f.ctrl with
        | false => cases ctrlPf f.ctrl <;> rfl
        | true =>
            cases uCmd f.ctrl with
            | ua =>
                cases ctrlPf f.ctrl with
                | false => rfl
                | true => exact hother (by decide) _
            | dm =>
                cases ctrlPf f.ctrl with
                | false => rfl
                | true => exact hother (by decide) _
            | sabm | sabme | disc | ui | frmr | test | snrm | snrme | sarme | unknown => rfl
    | frmrError =>
        simp only
        split_ifs
        · exact hother (by decide) _
        · rfl

end LinkView

section Chunk

variable (hp : st.platform.Passive)
include hp

theorem resetCount_dispatch (s : Ctx) (f : Received) :
    resetCount (f.dispatch st s).trace = resetCount s.trace + if resets s f.ctrl then 1 else 0 :=
  (congrArg LinkView.sessions (dispatchFrame_linkView hp s f)).trans (LinkView.sessions_next s f)

theorem fired_dispatch (hevent : st.platform.onEvent.isSome = true) (s : Ctx) (f : Received) {event : Event}
    (h : event = .peerReady ∨ event = .windowOpen) :
    fired event (f.dispatch st s).trace = fired event s.trace + awaited st s f.ctrl event := by
  have htold : upper (f.dispatch st s).trace = ((linkView s).next st s f).told :=
    congrArg LinkView.told (dispatchFrame_linkView hp s f)
  rw [← fired_upper, htold, LinkView.fired_next hevent s f h]
  exact congrArg (· + _) (fired_upper event s.trace)

/-- A chunk calls `on_event` with PEER_READY once for each RR that ends a busy condition. -/
theorem fired_rxBytes (hevent : st.platform.onEvent.isSome = true) (s : Ctx) (bytes : List UInt8) :
    fired .peerReady (rxBytes st s bytes).trace =
      fired .peerReady s.trace + (chunkFrames st s bytes).countP fun x => wakes x.1 x.2.ctrl := by
  have hview := rxBytes_view st (fun s => fired .peerReady s.trace)
    (fun n x => n + if wakes x.1 x.2.ctrl then 1 else 0) (P := fun _ => True) (fun _ _ => rfl)
    (fun _ _ _ => trivial) (fun s f _ => ⟨fired_dispatch hp hevent s f (Or.inl rfl), trivial⟩)
    (s := s) trivial bytes
  rw [hview]
  generalize fired .peerReady s.trace = n
  induction chunkFrames st s bytes generalizing n with
  | nil => rfl
  | cons x frames ih =>
      rw [List.foldl_cons, ih, List.countP_cons, Nat.add_assoc]
      exact congrArg (n + ·) (Nat.add_comm _ _)

/-- What a chunk makes of a full window: a new session, a call of `on_event` with WINDOW_OPEN, or nothing. -/
structure Opened (s t : Ctx) : Prop where
  sessions : resetCount s.trace ≤ resetCount t.trace
  told : fired .windowOpen s.trace ≤ fired .windowOpen t.trace
  window : resetCount s.trace < resetCount t.trace ∨
    fired .windowOpen s.trace < fired .windowOpen t.trace ∨ t.va = s.va ∧ t.vs = s.vs

theorem Opened.dispatch (hevent : st.platform.onEvent.isSome = true) {w : TxWindow}
    (hw : st.txWindow = some w) {s t : Ctx}
    (hfull : u8 (((s.vs : Int) - s.va) % mod8) ≥ w.slotCount) (h : Opened s t) (f : Received) :
    Opened s (f.dispatch st t) := by
  have hsessions := resetCount_dispatch hp t f
  have htold := fired_dispatch hp hevent t f (show Event.windowOpen = .peerReady ∨ Event.windowOpen = .windowOpen from Or.inr rfl)
  refine ⟨h.sessions.trans (by omega), h.told.trans (by omega), ?_⟩
  rcases h.window with hnew | hopen | ⟨hva, hvs⟩
  · exact Or.inl (by omega)
  · exact Or.inr (Or.inl (by omega))
  · by_cases hresets : resets t f.ctrl = true
    · rw [if_pos hresets] at hsessions
      have hle := h.sessions
      exact Or.inl (by omega)
    · have hresets : resets t f.ctrl = false := by simpa using hresets
      obtain ⟨hvs', hva'⟩ := next_of_not_resets (v := ackView t) (x := (t, f)) hresets
      rw [← dispatchFrame_ackView hp (.of_some hw t) f] at hvs' hva'
      by_cases hacks : acks t f.ctrl = true
      · have hopens : opens st t f.ctrl = true := by
          rw [opens, hacks, hw, hva, hvs]
          simpa using hfull
        have hone : awaited st t f.ctrl .windowOpen = 1 := if_pos hopens
        have hle := h.told
        exact Or.inr (Or.inl (by omega))
      · refine Or.inr (Or.inr ⟨?_, hvs'.trans hvs⟩)
        rw [if_neg hacks] at hva'
        exact hva'.trans hva

end Chunk

theorem retransmitLoop_told (w : TxWindow) (endVs fuel slotIdx : Nat) (s : Ctx) :
    (linkView (retransmitLoop st w endVs fuel slotIdx s)).told = (linkView s).told ∧
      (linkView (retransmitLoop st w endVs fuel slotIdx s)).sessions = (linkView s).sessions ∧
      (retransmitLoop st w endVs fuel slotIdx s).remoteBusy = s.remoteBusy := by
  induction fuel generalizing slotIdx s with
  | zero => exact ⟨rfl, rfl, rfl⟩
  | succ fuel ih =>
      simp only [retransmitLoop, frameSend_octets]
      split_ifs
      · exact ⟨rfl, rfl, rfl⟩
      · generalize hf : (⟨(s.log (.slotRead slotIdx)).peerAddress,
          iCtrl (s.log (.slotRead slotIdx)).vs (s.log (.slotRead slotIdx)).vr false,
          readSlot w (s.log (.slotRead slotIdx)) slotIdx⟩ : Frame) = f
        have hlogged : linkView (s.log (.slotRead slotIdx)) = linkView s :=
          @linkView_logs s [.slotRead slotIdx] rfl rfl (by simp [Plain])
        have hput : linkView { (s.log (.slotRead slotIdx)).put st f with
            vs := (((s.log (.slotRead slotIdx)).put st f).vs + 1) % mod8 } = (linkView s).say st.crc f := by
          rw [← hlogged]
          exact linkView_put (s.log (.slotRead slotIdx)) f
        obtain ⟨htold, hsessions, hbusy⟩ := ih ((slotIdx + 1) % w.slotCount)
          { (s.log (.slotRead slotIdx)).put st f with
            vs := (((s.log (.slotRead slotIdx)).put st f).vs + 1) % mod8 }
        rw [hput] at htold hsessions
        exact ⟨htold, hsessions, hbusy⟩

/-- The retransmission tells the application nothing and leaves the window and the busy condition alone. -/
theorem dataIn_told {mem : Memory} (hp : st.platform.Passive) {s : Ctx} (hreach : Reachable st mem s)
    (bytes : List UInt8) :
    (∀ event, fired event (dataIn st s bytes).trace = fired event (rxBytes st s bytes).trace) ∧
      resetCount (dataIn st s bytes).trace = resetCount (rxBytes st s bytes).trace ∧
      (dataIn st s bytes).remoteBusy = (rxBytes st s bytes).remoteBusy ∧
      (dataIn st s bytes).va = (rxBytes st s bytes).va ∧
      (dataIn st s bytes).vs = (rxBytes st s bytes).vs := by
  unfold dataIn retransmitIfPending
  by_cases harmed : (rxBytes st s bytes).retransmitPending = true
  · rw [if_pos harmed]
    cases hw : st.txWindow with
    | none =>
        rw [rxBytes_pending hp hw, hreach.not_pending hp] at harmed
        exact absurd harmed (by decide)
    | some w =>
        have hinv := (hreach.windowInv hw hp).rxBytes hp bytes
        have hquiet := @retransmitOutstanding_quiet st w _ hinv.vs_lt hinv.from_lt
        simp only
        refine ⟨?_, ?_, ?_, hquiet.va, hquiet.vs⟩
        all_goals
          unfold retransmitOutstanding
          extract_lets t endVs outstanding slotIdx u v
          obtain ⟨htold, hsessions, hbusy⟩ := @retransmitLoop_told st w endVs 8 slotIdx u
        · intro event
          have hstart : upper (t1Start st v).trace = upper v.trace := congrArg LinkView.told (linkView_t1Start v)
          have hloop : upper v.trace = upper u.trace := htold
          rw [← fired_upper, hstart, hloop, fired_upper]
        · have hstart : resetCount (t1Start st v).trace = resetCount v.trace :=
            congrArg LinkView.sessions (linkView_t1Start v)
          exact hstart.trans hsessions
        · exact hbusy
  · rw [if_neg harmed]
    exact ⟨fun _ => rfl, rfl, rfl, rfl, rfl⟩

theorem resetCount_resetState (s : Ctx) :
    resetCount (resetState st s).trace = resetCount s.trace + 1 :=
  congrArg LinkView.sessions (linkView_resetState s)

theorem setState_kept (hp : st.platform.Passive) (s : Ctx) (state : State) (event : Event) :
    resetCount (setState st s state event).trace = resetCount s.trace ∧
      (setState st s state event).remoteBusy = s.remoteBusy ∧
      (setState st s state event).va = s.va ∧ (setState st s state event).vs = s.vs := by
  have hview := linkView_setState hp s state event
  have hack := ackView_setState hp s state event
  refine ⟨?_, ?_, congrArg AckView.va hack, congrArg AckView.vs hack⟩
  · have hsessions : (linkView (setState st s state event)).sessions = (linkView s).sessions := by
      rw [hview]
      split_ifs <;> rfl
    exact hsessions
  · have hbusy : (linkView (setState st s state event)).remoteBusy = (linkView s).remoteBusy := by
      rw [hview]
      split_ifs <;> rfl
    exact hbusy

/-- A refused payload changes nothing. -/
theorem transmitI_refused {s : Ctx} (h : s.remoteBusy = true ∨ Full st s) (data : Payload) :
    (transmitI st s data).2 = s := by
  rcases @transmitI_cases st s data with hsame | ⟨w, hw, -, hready, -, hroom, -⟩
  · exact hsame
  · rcases h with hbusy | ⟨w', hw', hfull⟩
    · exact absurd (hready.symm.trans hbusy) (by decide)
    · obtain rfl : w = w' := Option.some.inj (hw.symm.trans hw')
      exact absurd hroom (by omega)

/-- No other call ends a refusal in the same session. -/
theorem Call.refused_kept (hp : st.platform.Passive) {s : Ctx} {call : Call}
    (hcall : ∀ bytes, call ≠ .dataIn bytes) (hrefused : s.remoteBusy = true ∨ Full st s)
    (hsession : resetCount (call.run st s).trace = resetCount s.trace) :
    (call.run st s).remoteBusy = s.remoteBusy ∧ (call.run st s).va = s.va ∧ (call.run st s).vs = s.vs := by
  cases call with
  | dataIn bytes => exact absurd rfl (hcall bytes)
  | t1Expired =>
      revert hsession
      simp only [run, AtcHdlc.t1Expired, sendRr, sendRnr, sendU_eq, sendS_eq, retransmitFrmr_eq]
      by_cases hlost : st.config.maxRetries > 0 ∧ (s.n2 + 1) % 256 > st.config.maxRetries
      · rw [if_pos hlost, resetCount_resetState, (setState_kept hp _ _ _).1]
        intro hsession
        exact absurd hsession (Nat.succ_ne_self _)
      · rw [if_neg hlost]
        intro _
        cases s.currentState with
        | connecting | disconnecting | frmrError | disconnected => exact ⟨rfl, rfl, rfl⟩
        | connected =>
            simp only
            split_ifs <;> exact ⟨rfl, rfl, rfl⟩
  | t2Expired =>
      simp only [run, AtcHdlc.t2Expired, sendRr, sendRnr, sendS_eq]
      split_ifs <;> exact ⟨rfl, rfl, rfl⟩
  | linkSetup peerAddr =>
      simp only [run, AtcHdlc.linkSetup, sendU_eq]
      split_ifs
      · exact ⟨rfl, rfl, rfl⟩
      · exact (setState_kept hp _ _ _).2
  | disconnect =>
      simp only [run, AtcHdlc.disconnect, sendU_eq]
      split_ifs
      · exact ⟨rfl, rfl, rfl⟩
      · exact (setState_kept hp _ _ _).2
  | linkReset =>
      simp only [run, AtcHdlc.linkReset, sendU_eq, (setState_kept hp _ _ _).1] at hsession
      have hput : resetCount (t1Start st ((resetState st s).put st
          ⟨(resetState st s).peerAddress, uCtrl uSabm true, []⟩)).trace = resetCount s.trace + 1 := by
        refine (congrArg LinkView.sessions (linkView_t1Start _)).trans ?_
        refine (congrArg LinkView.sessions (linkView_put _ _)).trans ?_
        exact resetCount_resetState s
      exact absurd (hput.symm.trans hsession) (Nat.succ_ne_self _)
  | abort =>
      have hflags : resetCount ((s.log (.send flag false)).log (.send flag true)).trace =
          resetCount s.trace := by
        have happend := resetCount_append s.trace
          (show ∀ o ∈ [Obs.send flag false, .send flag true], Plain o by simp [Plain])
        simpa [Ctx.log] using happend
      have hreset : resetCount (run st s abort).trace = resetCount s.trace + 1 :=
        (resetCount_resetState _).trans (congrArg (· + 1) hflags)
      exact absurd (hreset.symm.trans hsession) (Nat.succ_ne_self _)
  | setLocalBusy busy =>
      simp only [run, AtcHdlc.setLocalBusy, sendRr, sendS_eq]
      split_ifs <;> exact ⟨rfl, rfl, rfl⟩
  | transmitUi address data | transmitTest address data =>
      simp only [run, AtcHdlc.transmitUi, AtcHdlc.transmitTest]
      rcases transmitU_cases st s _ address data with hsame | hput
      · rw [hsame]
        exact ⟨rfl, rfl, rfl⟩
      · rw [hput]
        exact ⟨rfl, rfl, rfl⟩
  | transmitI data =>
      simp only [run, transmitI_refused hrefused data, and_self]
  | transmitUiStart address =>
      simp only [run, AtcHdlc.transmitUiStart, frameBegin_eq, and_self]
  | transmitUiData data =>
      simp only [run, AtcHdlc.transmitUiData, emitAll_eq]
      split_ifs <;> exact ⟨rfl, rfl, rfl⟩
  | transmitUiEnd => simp only [run, AtcHdlc.transmitUiEnd, frameEnd_eq, Ctx.logs, and_self]

/-! ### No refusal ends in silence -/

/-- `atc_hdlc_transmit_i` tells why it refuses. -/
theorem transmitI_error (s : Ctx) (data : Payload) :
    ((transmitI st s data).1 = .windowFull → Full st s) ∧
      ((transmitI st s data).1 = .remoteBusy → s.remoteBusy = true) := by
  unfold transmitI Full
  by_cases hstate : s.currentState ≠ .connected
  · simp [hstate]
  · by_cases hbusy : s.remoteBusy = true
    · simp [hstate, hbusy]
    · cases st.txWindow with
      | none => simp [hstate, hbusy]
      | some w =>
          simp only [hstate, hbusy, if_false, Bool.false_eq_true]
          split_ifs with hlen hslot hfull
          · simp
          · simp
          · exact ⟨fun _ => ⟨w, rfl, hfull⟩, fun h => absurd h (by simp)⟩
          · simp

/-- A chunk in which an RR ends the peer's busy condition. -/
def Woken (st : Station) (s : Ctx) : Call → Prop
  | .dataIn bytes => ∃ x ∈ chunkFrames st s bytes, wakes x.1 x.2.ctrl = true
  | _ => False

/-- In a session the step that opens a full window fires WINDOW_OPEN. -/
theorem window_opens (hp : st.platform.Passive) (hevent : st.platform.onEvent.isSome = true) {mem : Memory}
    {s : Ctx} (hreach : Reachable st mem s) {call : Call}
    (hsession : resetCount (call.run st s).trace = resetCount s.trace) (hfull : Full st s)
    (hopen : ¬Full st (call.run st s)) :
    fired .windowOpen s.trace < fired .windowOpen (call.run st s).trace := by
  have hsame (hva : (call.run st s).va = s.va) (hvs : (call.run st s).vs = s.vs) : False := by
    obtain ⟨w, hw, hcount⟩ := hfull
    refine hopen ⟨w, hw, ?_⟩
    rw [outstanding, hva, hvs]
    exact hcount
  by_cases hcall : ∃ bytes, call = .dataIn bytes
  · obtain ⟨bytes, rfl⟩ := hcall
    obtain ⟨w, hw, hcount⟩ := hfull
    have hinv := hreach.windowInv hw hp
    have hcount' : u8 (((s.vs : Int) - s.va) % mod8) ≥ w.slotCount := by
      have hout := outstanding_eq hinv.va hinv.vs hinv.acked_le hinv.lt_mod8
      rw [hout] at hcount
      have hle := hinv.sent_le
      have hsmall := w.slotCount_le
      rw [hinv.va, hinv.vs]
      simp only [u8, mod8]
      omega
    have hopened : Opened s (rxBytes st s bytes) :=
      rxBytes_frames st (P := Opened s) (K := fun _ => True)
        (fun _ _ h => ⟨h.sessions, h.told, h.window⟩)
        (fun _ f h _ => h.dispatch hp hevent hw hcount' f)
        ⟨Nat.le_refl _, Nat.le_refl _, Or.inr (Or.inr ⟨rfl, rfl⟩)⟩ fun _ _ => trivial
    obtain ⟨hfired, hsessions, -, hva, hvs⟩ := dataIn_told hp hreach bytes
    rcases hopened.window with hnew | htold | ⟨hva', hvs'⟩
    · exact absurd (hsessions.symm.trans hsession) (Nat.ne_of_gt hnew)
    · exact htold.trans_eq (hfired .windowOpen).symm
    · exact (hsame (hva.trans hva') (hvs.trans hvs')).elim
  · push Not at hcall
    obtain ⟨-, hva, hvs⟩ := Call.refused_kept hp hcall (Or.inr hfull) hsession
    exact (hsame hva hvs).elim

/-- In a session the step that ends the peer's busy condition is a chunk, and it fires PEER_READY just when
an RR has ended it. -/
theorem peer_wakes (hp : st.platform.Passive) (hevent : st.platform.onEvent.isSome = true) {mem : Memory}
    {s : Ctx} (hreach : Reachable st mem s) {call : Call}
    (hsession : resetCount (call.run st s).trace = resetCount s.trace) (hbusy : s.remoteBusy = true)
    (hready : (call.run st s).remoteBusy = false) :
    fired .peerReady s.trace < fired .peerReady (call.run st s).trace ↔ Woken st s call := by
  by_cases hcall : ∃ bytes, call = .dataIn bytes
  · obtain ⟨bytes, rfl⟩ := hcall
    have hfired := (dataIn_told hp hreach bytes).1 .peerReady
    have hcount := fired_rxBytes hp hevent s bytes
    have hrun : fired .peerReady (Call.run st s (.dataIn bytes)).trace = fired .peerReady s.trace +
        (chunkFrames st s bytes).countP fun x => wakes x.1 x.2.ctrl := hfired.trans hcount
    rw [hrun, Woken, ← List.countP_pos_iff]
    exact Nat.lt_add_right_iff_pos
  · push Not at hcall
    obtain ⟨hkept, -⟩ := Call.refused_kept hp hcall (Or.inl hbusy) hsession
    exact absurd (hbusy.symm.trans (hkept.symm.trans hready)) (by decide)

/-- A context in which a payload is refused and a step of the same session after which it would not be: the
step fires WINDOW_OPEN where the window was full; and where the peer was busy it fires PEER_READY just when
an RR has ended the busy condition. -/
theorem refusal_ends_with_event (hp : st.platform.Passive) (hevent : st.platform.onEvent.isSome = true)
    {mem : Memory} {s : Ctx} (hreach : Reachable st mem s) {call : Call}
    (hsession : resetCount (call.run st s).trace = resetCount s.trace) (data : Payload) :
    ((transmitI st s data).1 = .windowFull → ¬Full st (call.run st s) →
        fired .windowOpen s.trace < fired .windowOpen (call.run st s).trace) ∧
      ((transmitI st s data).1 = .remoteBusy → (call.run st s).remoteBusy = false →
        (fired .peerReady s.trace < fired .peerReady (call.run st s).trace ↔ Woken st s call)) := by
  obtain ⟨hfull, hbusy⟩ := @transmitI_error st s data
  constructor
  · intro hrefused hopen
    exact window_opens hp hevent hreach hsession (hfull hrefused) hopen
  · intro hrefused hready
    exact peer_wakes hp hevent hreach hsession (hbusy hrefused) hready

/-- A session of the mock set-up whose peer has said that it is busy. -/
def peerBusy : Ctx :=
  mockRun [.linkSetup 0x02, .dataIn (Frame.octets crcOpsDefault ⟨0x02, uCtrl uUa true, []⟩),
    .dataIn (Frame.octets crcOpsDefault ⟨0x01, sCtrl sRnr 0 false, []⟩)]

theorem peerBusy_reachable :
    Reachable (mockStation 0x01 3 (by decide) (by decide)) zeroMemory peerBusy :=
  mockRun_reachable (by simp [Call.Legal])

/-- An RR ends the busy condition. -/
theorem refusal_ends_with_event_mock :
    let st := mockStation 0x01 3 (by decide) (by decide)
    let call := Call.dataIn (Frame.octets crcOpsDefault ⟨0x01, sCtrl sRr 0 false, []⟩)
    fired .peerReady peerBusy.trace < fired .peerReady (call.run st peerBusy).trace := by
  intro st call
  have hsession : resetCount (call.run st peerBusy).trace = resetCount peerBusy.trace := by decide +kernel
  have hevents := refusal_ends_with_event mockPlatform_passive rfl peerBusy_reachable hsession
    (.octets [0x11])
  refine (hevents.2 (by decide +kernel) (by decide +kernel)).mpr ?_
  have hwoken : ∃ x ∈ chunkFrames st peerBusy
      (Frame.octets crcOpsDefault ⟨0x01, sCtrl sRr 0 false, []⟩), wakes x.1 x.2.ctrl = true := by
    decide +kernel
  exact hwoken

/-- A REJ ends it too, and no event tells the application that its payload would be accepted again. -/
theorem rej_wakes_nobody :
    let st := mockStation 0x01 3 (by decide) (by decide)
    let call := Call.dataIn (Frame.octets crcOpsDefault ⟨0x01, sCtrl sRej 0 false, []⟩)
    Reachable st zeroMemory peerBusy ∧
      (transmitI st peerBusy (.octets [0x11])).1 = .remoteBusy ∧
      (transmitI st (call.run st peerBusy) (.octets [0x11])).1 = .ok ∧
      resetCount (call.run st peerBusy).trace = resetCount peerBusy.trace ∧
      fired .peerReady (call.run st peerBusy).trace = fired .peerReady peerBusy.trace :=
  ⟨peerBusy_reachable, by decide +kernel⟩

end Frames

end AtcHdlc
