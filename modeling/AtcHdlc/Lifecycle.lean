import AtcHdlc.Calls
import AtcHdlc.Chunking
import AtcHdlc.Timers

/-! The link as an application hears of it. What `on_event` and `on_data` are called with is a word of a small
automaton that begins at DISCONNECTED: every event comes in a state in which it makes sense, and whoever
follows the events knows the link state, but for an abort, which says nothing. The peer's busy condition is
known from above: the application may think the peer busy that is not (a REJ tells the station, and the station
tells nobody), and never the other way round. -/

namespace AtcHdlc

/-- What an application knows that only listens. -/
structure Picture where
  state : State
  peerBusy : Bool
  deriving DecidableEq, Repr

namespace Picture

/-- After `atc_hdlc_init`. -/
def start : Picture := ⟨.disconnected, false⟩

/-- An event and the states in which it can come. -/
def hearsEvent (l : Picture) (event : Event) : Option Picture :=
  match event, l.state with
  | .setupReq, .disconnected => some { l with state := .connecting }
  | .connAccepted, .connecting => some ⟨.connected, false⟩
  | .connReq, .disconnected | .connReq, .connected | .connReq, .frmrError => some ⟨.connected, false⟩
  | .reset, .disconnected | .reset, .connected | .reset, .frmrError | .reset, .disconnecting =>
      some { l with state := .connecting }
  | .discReq, .connected | .discReq, .frmrError => some { l with state := .disconnecting }
  | .discDone, .disconnecting => some { l with state := .disconnected }
  | .peerDisc, .connected => some { l with state := .disconnected }
  | .peerReject, .connecting | .peerReject, .connected | .peerReject, .disconnecting =>
      some { l with state := .disconnected }
  | .protocolError, .connected => some { l with state := .frmrError }
  | .linkFailure, .connecting | .linkFailure, .connected | .linkFailure, .frmrError
  | .linkFailure, .disconnecting => some { l with state := .disconnected }
  | .peerBusy, .connected => some { l with peerBusy := true }
  | .peerReady, .connected => if l.peerBusy then some { l with peerBusy := false } else none
  | .windowOpen, .connected => some l
  | _, _ => none

/-- A call of `on_data` or of `on_event`; nothing else is heard. -/
def hears (l : Picture) : Obs → Option Picture
  | .data _ => if l.state = .connected ∨ l.state = .disconnected then some l else none
  | .event event => l.hearsEvent event
  | _ => some l

end Picture

/-- Some application has followed what a station has told, and its picture is right. -/
def Followed (v : LinkView) : Prop :=
  ∃ l : Picture, v.told.foldlM Picture.hears Picture.start = some l ∧ l.state = v.currentState ∧
    (v.remoteBusy = true → l.peerBusy = true)

section Followed

variable {st : Station} {v v' : LinkView}

/-- Some more is told, and it makes sense to whoever has followed so far. -/
theorem Followed.hear (h : Followed v) (os : List Obs) (htold : v'.told = v.told ++ os)
    (hos : ∀ l : Picture, l.state = v.currentState → (v.remoteBusy = true → l.peerBusy = true) →
      ∃ l' : Picture, os.foldlM Picture.hears l = some l' ∧ l'.state = v'.currentState ∧
        (v'.remoteBusy = true → l'.peerBusy = true)) : Followed v' := by
  obtain ⟨l, hl, hstate, hbusy⟩ := h
  obtain ⟨l', hl', hstate', hbusy'⟩ := hos l hstate hbusy
  refine ⟨l', ?_, hstate', hbusy'⟩
  rw [htold, List.foldlM_append, hl]
  exact hl'

/-- Nothing is told, and the peer does not become busy. -/
theorem Followed.quiet (h : Followed v) (htold : v'.told = v.told) (hstate : v'.currentState = v.currentState)
    (hbusy : v'.remoteBusy = true → v.remoteBusy = true) : Followed v' := by
  refine h.hear [] (htold.trans (List.append_nil _).symm) fun l hl hpeer => ?_
  exact ⟨l, rfl, hl.trans hstate.symm, fun h' => hpeer (hbusy h')⟩

theorem Followed.say (h : Followed v) (crc : CrcOps) (f : Frame) : Followed (v.say crc f) := h.quiet rfl rfl id

theorem Followed.stopT2 (h : Followed v) : Followed v.stopT2 := h.quiet rfl rfl id

theorem Followed.fresh (h : Followed v) : Followed v.fresh :=
  h.quiet rfl rfl fun hbusy => absurd hbusy Bool.false_ne_true

theorem Followed.data (h : Followed v) (hstate : v.currentState = .connected ∨ v.currentState = .disconnected)
    (payload : List UInt8) : Followed (v.tell (dataObs st payload)) := by
  refine h.hear (dataObs st payload) rfl fun l hl hpeer => ⟨l, ?_, hl, hpeer⟩
  unfold dataObs
  split_ifs
  · rw [← hl] at hstate
    simp [Picture.hears, hstate]
  · rfl

variable (hon : st.platform.onEvent.isSome = true)
include hon

omit hon in
theorem eventObs_some (hon : st.platform.onEvent.isSome = true) (event : Event) :
    eventObs st event = [.event event] := if_pos hon

/-- An event, and the state that it leads to. -/
theorem Followed.leave (h : Followed v) {state : State} {event : Event}
    (hevent : ∀ busy, ∃ busy', Picture.hearsEvent ⟨v.currentState, busy⟩ event = some ⟨state, busy'⟩ ∧
      (v.remoteBusy = true → busy = true → busy' = true)) : Followed (v.leave st state event) := by
  refine h.hear [.event event] ?_ fun l hl hpeer => ?_
  · rw [← eventObs_some hon event]
    rfl
  · obtain ⟨busy', hears, hbusy⟩ := hevent l.peerBusy
    rw [← hl] at hears
    exact ⟨⟨state, busy'⟩, by simp [Picture.hears, hears], rfl, fun h' => hbusy h' (hpeer h')⟩

theorem Followed.accept (h : Followed v) (pf : Bool)
    (hstate : v.currentState = .disconnected ∨ v.currentState = .connected ∨ v.currentState = .frmrError) :
    Followed (v.accept st pf) := by
  refine (h.fresh.say st.crc ⟨v.myAddress, uCtrl uUa pf, []⟩).leave hon fun busy => ⟨false, ?_, ?_⟩
  · show Picture.hearsEvent ⟨v.currentState, busy⟩ .connReq = _
    rcases hstate with hstate | hstate | hstate <;> rw [hstate] <;> rfl
  · exact fun hbusy => absurd hbusy Bool.false_ne_true

theorem Followed.opened (h : Followed v) (hstate : v.currentState = .connected) (s : Ctx) (nr : Nat) :
    Followed (v.tell (opened st s nr)) := by
  refine h.hear (AtcHdlc.opened st s nr) rfl fun l hl hpeer => ⟨l, ?_, hl, hpeer⟩
  have hopen : (eventObs st .windowOpen).foldlM Picture.hears l = some l := by
    rw [eventObs_some hon]
    rw [hstate] at hl
    simp [Picture.hears, Picture.hearsEvent, hl]
  unfold AtcHdlc.opened
  split_ifs
  · rfl
  · cases st.txWindow with
    | none => rfl
    | some w =>
        simp only
        split_ifs
        · exact hopen
        · rfl

theorem Followed.busy (h : Followed v) (hstate : v.currentState = .connected) (kind : Nat) :
    Followed (v.busy st kind) := by
  unfold LinkView.busy
  split_ifs with hrr hready hrnr hbusy hrej
  · refine h.hear [.event .peerReady] (by rw [← eventObs_some hon]; rfl) fun l hl hpeer => ?_
    have hl' : l = ⟨.connected, true⟩ := by
      rw [← hl.trans hstate, ← hpeer hready]
    exact ⟨⟨.connected, false⟩, by rw [hl']; rfl, hstate.symm, fun h' => absurd h' Bool.false_ne_true⟩
  · exact h.quiet (List.append_nil _) rfl fun h' => absurd h' Bool.false_ne_true
  · exact h.quiet (List.append_nil _) rfl fun _ => hbusy
  · refine h.hear [.event .peerBusy] (by rw [← eventObs_some hon]; rfl) fun l hl _ => ?_
    refine ⟨⟨l.state, true⟩, ?_, hl, fun _ => rfl⟩
    simp [Picture.hears, Picture.hearsEvent, hl.trans hstate]
  · exact h.quiet rfl rfl fun h' => absurd h' Bool.false_ne_true
  · exact h

omit hon in
theorem Followed.receive (h : Followed v) (hstate : v.currentState = .connected) (pf : Bool) (payload : List UInt8) :
    Followed (v.receive st pf payload) := by
  have htaken : Followed { v with
      vr := (v.vr + 1) % mod8, rejException := false, got := v.got ++ [payload]
      debt := ((v.debt.1 + 1) % mod8, true) } := h.quiet rfl rfl id
  have hgiven := @Followed.data st _ htaken (Or.inl hstate) payload
  unfold LinkView.receive LinkView.acknowledge
  split_ifs
  · exact (hgiven.say _ _).stopT2
  · exact (hgiven.say _ _).stopT2
  · exact hgiven
  · exact hgiven.say _ _
  · exact hgiven.quiet rfl rfl id

omit hon in
theorem Followed.refuse (h : Followed v) (pf : Bool) : Followed (v.refuse st pf) := by
  have hnoted : Followed { v with rejException := true } := h.quiet rfl rfl id
  unfold LinkView.refuse
  split_ifs
  · exact h.say _ _
  · exact h
  · exact (hnoted.say _ _).stopT2

omit hon in
theorem Followed.poll (h : Followed v) (polled : Bool) : Followed (v.poll st polled) := by
  unfold LinkView.poll
  split_ifs
  · exact (h.say _ _).stopT2
  · exact h

theorem Followed.reject (h : Followed v) (hstate : v.currentState = .connected) (frmr : Frame) :
    Followed (v.reject st frmr) := by
  refine (h.stopT2.say st.crc frmr).leave hon fun busy => ⟨busy, ?_, fun _ => id⟩
  show Picture.hearsEvent ⟨v.currentState, busy⟩ .protocolError = _
  rw [hstate]
  rfl

/-- An event of the table, where the busy condition stays. -/
theorem Followed.moves (h : Followed v) {state : State} {event : Event}
    (hevent : ∀ busy, Picture.hearsEvent ⟨v.currentState, busy⟩ event = some ⟨state, busy⟩) :
    Followed (v.leave st state event) :=
  h.leave hon fun busy => ⟨busy, hevent busy, fun _ => id⟩

theorem Followed.unnumbered (h : Followed v) (hstate : v.currentState = .connected) (s : Ctx) (f : Received) :
    Followed (v.unnumbered st s f) := by
  unfold LinkView.unnumbered
  cases uCmd f.ctrl with
  | sabm => exact h.accept hon _ (Or.inr (Or.inl hstate))
  | disc =>
      refine (h.fresh.say _ _).moves hon fun busy => ?_
      show Picture.hearsEvent ⟨v.currentState, busy⟩ .peerDisc = _
      rw [hstate]
      rfl
  | dm =>
      refine h.fresh.moves hon fun busy => ?_
      show Picture.hearsEvent ⟨v.currentState, busy⟩ .peerReject = _
      rw [hstate]
      rfl
  | frmr =>
      refine h.fresh.moves hon fun busy => ?_
      show Picture.hearsEvent ⟨v.currentState, busy⟩ .protocolError = _
      rw [hstate]
      rfl
  | ui => exact h.data (Or.inl hstate) _
  | test =>
      simp only
      split_ifs
      · exact h.say _ _
      · cases f.info with
        | some payload => exact h.data (Or.inl hstate) payload
        | none => exact h
  | snrm | sabme | snrme | sarme => exact h.say _ _
  | ua | unknown => exact h.stopT2.say _ _

/-- Whatever a frame makes a station tell, it makes sense. -/
theorem Followed.next (s : Ctx) (h : Followed (linkView s)) (f : Received) :
    Followed ((linkView s).next st s f) := by
  have hleft {state : State} {event : Event} (pf : Bool)
      (hevent : ∀ busy, Picture.hearsEvent ⟨s.currentState, busy⟩ event = some ⟨state, busy⟩) :
      Followed (if pf then (linkView s).leave st state event else linkView s) := by
    split_ifs
    · exact h.moves hon hevent
    · exact h
  unfold LinkView.next
  cases hstate : s.currentState with
  | disconnected =>
      cases isUframe f.ctrl with
      | false => exact h
      | true =>
          cases uCmd f.ctrl with
          | sabm => exact h.accept hon _ (Or.inl hstate)
          | disc => exact h.say _ _
          | ui => exact h.data (Or.inr hstate) _
          | snrm | sabme | snrme | sarme => exact h.say _ _
          | ua | dm | frmr | test | unknown => exact h
  | connecting =>
      rw [hstate] at hleft
      cases isUframe f.ctrl with
      | false => exact h
      | true =>
          cases uCmd f.ctrl with
          | sabm | disc => exact h.say _ _
          | ua =>
              cases ctrlPf f.ctrl with
              | false => exact h
              | true =>
                  refine h.fresh.leave hon fun busy => ⟨false, ?_, fun hbusy => absurd hbusy Bool.false_ne_true⟩
                  show Picture.hearsEvent ⟨s.currentState, busy⟩ .connAccepted = _
                  rw [hstate]
                  rfl
          | dm => exact hleft _ fun _ => rfl
          | frmr | ui | test | snrm | sabme | snrme | sarme | unknown => exact h
  | connected =>
      have hup : (linkView s).currentState = .connected := hstate
      have hheard := @Followed.poll st _ (h.busy hon hup (ctrlS f.ctrl)) (isCmd s f.address && ctrlPf f.ctrl)
      have hheardUp : (((linkView s).busy st (ctrlS f.ctrl)).poll st
          (isCmd s f.address && ctrlPf f.ctrl)).currentState = .connected := by
        rw [LinkView.currentState_poll, LinkView.currentState_busy, hup]
      simp only
      split_ifs
      · exact h.unnumbered hon hup s f
      · exact (h.opened hon hup s _).receive hup _ _
      · exact (h.opened hon hup s _).refuse _
      · exact h.reject hon hup _
      · exact hheard.opened hon hheardUp s _
      · exact hheard.reject hon hheardUp _
  | disconnecting =>
      rw [hstate] at hleft
      cases isUframe f.ctrl with
      | false =>
          cases ctrlPf f.ctrl with
          | false => exact h
          | true => exact h.say _ _
      | true =>
          cases uCmd f.ctrl with
          | sabm | sabme | disc => exact h.say _ _
          | ua => exact hleft _ fun _ => rfl
          | dm => exact hleft _ fun _ => rfl
          | frmr | ui | test | snrm | snrme | sarme | unknown => exact h
  | frmrError =>
      simp only
      split_ifs
      · exact h.accept hon _ (Or.inr (Or.inr hstate))
      · exact h

end Followed

section Calls

variable {st : Station} {s : Ctx}

theorem followed_rxBytes (hp : st.platform.Passive) (hon : st.platform.onEvent.isSome = true)
    (h : Followed (linkView s)) (bytes : List UInt8) : Followed (linkView (rxBytes st s bytes)) := by
  refine rxBytes_frames st (P := fun t => Followed (linkView t)) (K := fun _ => True) (fun _ _ ht => ht)
    (fun t f ht _ => ?_) h fun _ _ => trivial
  rw [dispatchFrame_linkView hp]
  exact ht.next hon t f

theorem followed_put (h : Followed (linkView s)) (f : Frame) : Followed (linkView (s.put st f)) := by
  rw [linkView_put]
  exact h.say st.crc f

theorem followed_t1Start (h : Followed (linkView s)) : Followed (linkView (t1Start st s)) := by
  rw [linkView_t1Start]
  exact h

theorem followed_retransmitLoop (h : Followed (linkView s)) (w : TxWindow) (endVs fuel slotIdx : Nat) :
    Followed (linkView (retransmitLoop st w endVs fuel slotIdx s)) := by
  induction fuel generalizing slotIdx s with
  | zero => exact h
  | succ fuel ih =>
      simp only [retransmitLoop, frameSend_octets]
      split_ifs
      · exact h
      · refine ih ?_ _
        have hread : linkView (s.log (.slotRead slotIdx)) = linkView s :=
          @linkView_logs s [.slotRead slotIdx] rfl rfl (by simp [Plain])
        rw [← hread] at h
        exact followed_put h _

theorem followed_retransmitIfPending (h : Followed (linkView s)) :
    Followed (linkView (retransmitIfPending st s)) := by
  unfold retransmitIfPending
  split_ifs
  · cases st.txWindow with
    | none =>
        have hnull : linkView (s.log .nullWindow) = linkView s :=
          @linkView_logs s [.nullWindow] rfl rfl (by simp [Plain])
        rw [hnull]
        exact h
    | some w =>
        simp only [retransmitOutstanding, linkView_t1Start]
        exact followed_retransmitLoop (s := { s with retransmitPending := false, vs := s.retransmitFrom }) h w _ 8 _
  · exact h

/-- A change of the link state that the application is told of. -/
theorem followed_setState (hp : st.platform.Passive) (hon : st.platform.onEvent.isSome = true)
    (h : Followed (linkView s)) {state : State} {event : Event} (hreq : event ≠ .connReq)
    (hevent : s.currentState ≠ state →
      ∀ busy, Picture.hearsEvent ⟨s.currentState, busy⟩ event = some ⟨state, busy⟩) :
    Followed (linkView (setState st s state event)) := by
  rw [linkView_setState hp]
  split_ifs with hchange
  · exact h.moves hon (hevent (hchange.resolve_right hreq))
  · exact h

theorem followed_t1Expired (hp : st.platform.Passive) (hon : st.platform.onEvent.isSome = true)
    (h : Followed (linkView s)) : Followed (linkView (t1Expired st s)) := by
  have hcounted : Followed (linkView { s with t1Active := false, n2 := (s.n2 + 1) % 256 }) := h
  simp only [t1Expired, sendRr, sendRnr, sendU_eq, sendS_eq, retransmitFrmr_eq]
  by_cases hlost : st.config.maxRetries > 0 ∧ (s.n2 + 1) % 256 > st.config.maxRetries
  · rw [if_pos hlost, linkView_resetState]
    refine (followed_setState hp hon hcounted Event.noConfusion fun hne busy => ?_).fresh
    have hne' : s.currentState ≠ .disconnected := hne
    show Picture.hearsEvent ⟨s.currentState, busy⟩ .linkFailure = _
    cases hstate : s.currentState with
    | disconnected => exact absurd hstate hne'
    | _ => rfl
  · rw [if_neg hlost]
    have hagain (f : Frame) : Followed (linkView (t1Start st
        (Ctx.put { s with t1Active := false, n2 := (s.n2 + 1) % 256 } st f))) :=
      followed_t1Start (followed_put hcounted f)
    split
    · exact hagain _
    · exact hagain _
    · split_ifs
      · exact hagain _
      · exact hagain _
      · exact hcounted
    · exact hagain _
    · exact hcounted

theorem upper_sends (octets : List UInt8) : upper (octets.map (Obs.send · false)) = [] := by
  refine List.filter_eq_nil_iff.mpr fun o ho => ?_
  obtain ⟨octet, -, rfl⟩ := List.mem_map.mp ho
  simp

theorem upper_cons_frame (address ctrl : UInt8) (m : Moment) (os : List Obs) :
    upper (.frame address ctrl m :: os) = upper os := rfl

theorem followed_transmitI (h : Followed (linkView s)) {data : Payload} (hdata : data.NonNull) :
    Followed (linkView (transmitI st s data).2) := by
  rcases @transmitI_cases st s data with hsame | ⟨w, -, -, -, -, -, haccepted⟩
  · rw [hsame]
    exact h
  · rw [haccepted, acceptI_eq s hdata]
    extract_lets next logged stored sent stopped
    have hstored : Followed (linkView stored) := by
      refine h.quiet ?_ rfl id
      show upper (s.trace ++ [.accept data.read]) = upper s.trace
      rw [upper_append]
      exact List.append_nil _
    have hsent : Followed (linkView sent) := followed_put hstored _
    have hstopped : Followed (linkView stopped) := by
      unfold stopped
      rw [linkView_t2Stop]
      exact Followed.stopT2 (v := linkView { sent with vs := (s.vs + 1) % mod8 }) hsent
    split_ifs
    · exact followed_t1Start hstopped
    · exact hstopped

theorem Call.followed (hp : st.platform.Passive) (hon : st.platform.onEvent.isSome = true)
    (h : Followed (linkView s)) {c : Call} (hlegal : c.Legal) (habort : c ≠ .abort) :
    Followed (linkView (c.run st s)) := by
  cases c with
  | abort => exact absurd rfl habort
  | dataIn bytes => exact followed_retransmitIfPending (followed_rxBytes hp hon h bytes)
  | t1Expired => exact followed_t1Expired hp hon h
  | t2Expired =>
      have hdone : Followed (linkView { s with t2Active := false }) := h.quiet rfl rfl id
      simp only [run, AtcHdlc.t2Expired, sendRr, sendRnr, sendS_eq]
      split_ifs <;> exact followed_put hdone _
  | linkSetup peerAddr =>
      simp only [run, AtcHdlc.linkSetup, sendU_eq]
      split_ifs with hstate
      · exact h
      · have hdown : s.currentState = .disconnected := not_not.mp hstate
        have hnamed : Followed (linkView { s with peerAddress := peerAddr }) := h.quiet rfl rfl id
        refine followed_setState hp hon (followed_t1Start (followed_put hnamed _)) Event.noConfusion fun _ busy => ?_
        show Picture.hearsEvent ⟨s.currentState, busy⟩ .setupReq = _
        rw [hdown]
        rfl
  | disconnect =>
      simp only [run, AtcHdlc.disconnect, sendU_eq]
      split_ifs with hstate
      · exact h
      · refine followed_setState hp hon (followed_t1Start (followed_put h _)) Event.noConfusion fun _ busy => ?_
        show Picture.hearsEvent ⟨s.currentState, busy⟩ .discReq = _
        cases hs : s.currentState with
        | connected | frmrError => rfl
        | _ => simp [hs] at hstate
  | linkReset =>
      simp only [run, AtcHdlc.linkReset, sendU_eq]
      have hfresh : Followed (linkView (resetState st s)) := by
        rw [linkView_resetState]
        exact h.fresh
      refine followed_setState hp hon (followed_t1Start (followed_put hfresh _)) Event.noConfusion fun hne busy => ?_
      have hsame := @resetState_currentState st s
      have hne' : (resetState st s).currentState ≠ .connecting := hne
      show Picture.hearsEvent ⟨(resetState st s).currentState, busy⟩ .reset = _
      rw [hsame] at hne' ⊢
      cases hs : s.currentState with
      | connecting => exact absurd hs hne'
      | _ => rfl
  | setLocalBusy busy =>
      simp only [run, AtcHdlc.setLocalBusy, sendRr, sendS_eq]
      split_ifs
      · exact h
      · exact h.quiet rfl rfl id
      · have hready : Followed (linkView { s with localBusy := false }) := h.quiet rfl rfl id
        exact followed_put hready _
      · exact h
  | transmitUi address data | transmitTest address data =>
      simp only [run, AtcHdlc.transmitUi, AtcHdlc.transmitTest]
      rcases transmitU_cases st s _ address data with hsame | hput
      · rw [hsame]
        exact h
      · rw [hput]
        exact followed_put h _
  | transmitI data => exact followed_transmitI h hlegal
  | transmitUiStart address =>
      simp only [run, AtcHdlc.transmitUiStart, frameBegin_eq]
      refine h.quiet ?_ rfl id
      show upper (s.trace ++ _) = upper s.trace
      rw [upper_append, upper_cons_frame, upper_sends, List.append_nil]
  | transmitUiData data =>
      simp only [run, AtcHdlc.transmitUiData, emitAll_eq]
      split_ifs
      · exact h
      · refine h.quiet ?_ rfl id
        show upper (s.trace ++ _) = upper s.trace
        rw [upper_append, upper_sends, List.append_nil]
  | transmitUiEnd =>
      simp only [run, AtcHdlc.transmitUiEnd, frameEnd_eq]
      refine h.quiet ?_ rfl id
      show upper (s.trace ++ _) = upper s.trace
      rw [upper_append, upper_append, upper_sends]
      exact List.append_nil _

/-- In every run without an abort, what the application is told makes sense from the first call on, its picture
shows the link state, and it thinks the peer busy whenever the station does. -/
theorem application_follows (hp : st.platform.Passive) (hon : st.platform.onEvent.isSome = true) {mem : Memory}
    (h : ReachableBy st mem (fun _ c => c ≠ .abort) s) :
    ∃ l : Picture, (upper s.trace).foldlM Picture.hears Picture.start = some l ∧ l.state = s.currentState ∧
      (s.remoteBusy = true → l.peerBusy = true) := by
  have hfollowed : Followed (linkView s) := by
    induction h with
    | init => exact ⟨.start, rfl, rfl, fun hbusy => absurd hbusy Bool.false_ne_true⟩
    | call c _ hlegal habort ih => exact Call.followed hp hon ih hlegal habort
  exact hfollowed

/-- A link comes up, the peer becomes busy, sends an I-frame, is ready again, and goes. -/
def visited : Ctx :=
  [.linkSetup 0x02, .dataIn (Frame.octets crcOpsDefault ⟨0x02, uCtrl uUa true, []⟩),
    .dataIn (Frame.octets crcOpsDefault ⟨0x01, sCtrl sRnr 0 false, []⟩),
    .dataIn (Frame.octets crcOpsDefault ⟨0x01, iCtrl 0 0 false, [0x42]⟩),
    .dataIn (Frame.octets crcOpsDefault ⟨0x01, sCtrl sRr 0 false, []⟩),
    .dataIn (Frame.octets crcOpsDefault ⟨0x01, uCtrl uDisc true, []⟩)].foldl
    (Call.run (mockStation 0x01 3 threeSlots_pos threeSlots_le))
    (initCtx (mockStation 0x01 3 threeSlots_pos threeSlots_le) zeroMemory)

theorem application_follows_mock :
    upper visited.trace = [.event .setupReq, .event .connAccepted, .event .peerBusy, .data [0x42],
        .event .peerReady, .event .peerDisc] ∧
      ∃ l : Picture, (upper visited.trace).foldlM Picture.hears Picture.start = some l ∧
        l.state = visited.currentState ∧ (visited.remoteBusy = true → l.peerBusy = true) := by
  have hreach : ReachableBy (mockStation 0x01 3 threeSlots_pos threeSlots_le) zeroMemory (fun _ c => c ≠ .abort)
      visited :=
    ReachableBy.init.foldl (by simp [Call.Legal]) ⟨Call.noConfusion, Call.noConfusion, Call.noConfusion,
      Call.noConfusion, Call.noConfusion, Call.noConfusion, trivial⟩
  exact ⟨by decide +kernel, application_follows mockPlatform_passive rfl hreach⟩

end Calls

end AtcHdlc
