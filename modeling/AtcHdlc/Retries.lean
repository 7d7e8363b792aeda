import AtcHdlc.Polls
import AtcHdlc.Reentry

/-! The retry counter. Every expiry of T1 in a waiting state says something again, until the counter passes
`max_retries`; then the link is given up. The counter has eight bits, and only `reset_state` and progress of
the acknowledgements clear it: not the end of an attempt, and not the beginning of the next. -/

namespace AtcHdlc

/-- The station waits for the peer. -/
def Awaiting (s : Ctx) : Prop :=
  s.currentState = .connecting ∨ s.currentState = .disconnecting ∨ s.currentState = .frmrError ∨
    s.currentState = .connected ∧ s.va ≠ s.vs

instance (s : Ctx) : Decidable (Awaiting s) := inferInstanceAs (Decidable (_ ∨ _ ∨ _ ∨ _ ∧ _))

/-- What a waiting station says when T1 expires. -/
def enquiry (s : Ctx) : Frame :=
  match s.currentState with
  | .connecting => ⟨s.peerAddress, uCtrl uSabm true, []⟩
  | .disconnecting => ⟨s.peerAddress, uCtrl uDisc true, []⟩
  | .frmrError => ⟨s.myAddress, uCtrl uFrmr false, frmrInfo s⟩
  | _ =>
      if s.localBusy then ⟨s.myAddress, sCtrl sRnr s.vr true, []⟩
      else ⟨s.peerAddress, sCtrl sRr s.vr true, []⟩

/-- The expiry repeats a frame and starts T1 again. -/
def Repeats (st : Station) (f : Frame) (s : Ctx) : Prop :=
  t1Expired st s = t1Start st ((counted s).put st f)

/-- The link is given up: LINK_FAILURE is all that the application hears, and `reset_state` has cleared
timers, counters and flags. -/
structure GaveUp (st : Station) (s s' : Ctx) : Prop where
  currentState : s'.currentState = .disconnected
  told : upper s'.trace = upper s.trace ++ eventObs st .linkFailure
  t1Active : s'.t1Active = false
  t2Active : s'.t2Active = false
  n2 : s'.n2 = 0
  vs : s'.vs = 0
  vr : s'.vr = 0
  va : s'.va = 0
  txNextSlot : s'.txNextSlot = 0
  slotLens : ∀ w ∈ st.txWindow, ∀ i < w.slotCount, s'.slotLens i = 0
  rejException : s'.rejException = false
  remoteBusy : s'.remoteBusy = false
  localBusy : s'.localBusy = false
  retransmitPending : s'.retransmitPending = false

section Expiry

variable {st : Station}

/-- The counter is below its limit: the expiry repeats what the station waits with. -/
theorem t1Expired_repeats {s : Ctx} (hwait : Awaiting s) (hkept : ¬Exhausted st (counted s)) :
    Repeats st (enquiry s) s := by
  have hnot : ¬(st.config.maxRetries > 0 ∧ (s.n2 + 1) % 256 > st.config.maxRetries) := hkept
  unfold Repeats enquiry t1Expired
  simp only [sendRr, sendRnr, sendU_eq, sendS_eq, retransmitFrmr_eq]
  rw [if_neg hnot]
  rcases hwait with hstate | hstate | hstate | ⟨hstate, hne⟩
  · simp only [hstate]
    rw [← hstate]
    rfl
  · simp only [hstate]
    rw [← hstate]
    rfl
  · simp only [hstate]
    rw [← hstate]
    rfl
  · simp only [hstate, ne_eq, hne, not_false_eq_true, if_true]
    rw [← hstate]
    split_ifs
    · rfl
    · rfl

/-- A station that waits for nothing only counts the expiry. -/
theorem t1Expired_idle {s : Ctx} (hidle : ¬Awaiting s) (hkept : ¬Exhausted st (counted s)) :
    t1Expired st s = counted s := by
  have hnot : ¬(st.config.maxRetries > 0 ∧ (s.n2 + 1) % 256 > st.config.maxRetries) := hkept
  unfold Awaiting at hidle
  unfold t1Expired
  cases hstate : s.currentState with
  | disconnected =>
      dsimp only
      rw [if_neg hnot, ← hstate]
      rfl
  | connected =>
      have hopen : ¬s.va ≠ s.vs := fun hne => hidle (Or.inr (Or.inr (Or.inr ⟨hstate, hne⟩)))
      dsimp only
      rw [if_neg hnot, if_neg hopen, ← hstate]
      rfl
  | connecting => exact absurd (Or.inl hstate) hidle
  | disconnecting => exact absurd (Or.inr (Or.inl hstate)) hidle
  | frmrError => exact absurd (Or.inr (Or.inr (Or.inl hstate))) hidle

theorem upper_reset (s : Ctx) : upper (resetState st s).trace = upper s.trace :=
  congrArg LinkView.told (linkView_resetState s)

/-- The counter passes its limit: the link is given up. -/
theorem t1Expired_gaveUp (hp : st.platform.Passive) {s : Ctx} (hwait : Awaiting s)
    (hpending : s.retransmitPending = false) (hspent : Exhausted st (counted s)) :
    GaveUp st s (t1Expired st s) := by
  have hup : (counted s).currentState ≠ .disconnected := by
    intro hdown
    have hdown' : s.currentState = .disconnected := hdown
    simp [Awaiting, hdown'] at hwait
  have heq : t1Expired st s =
      resetState st ({ counted s with currentState := .disconnected }.logs (eventObs st .linkFailure)) := by
    have hset : setState st (counted s) .disconnected .linkFailure =
        { counted s with currentState := .disconnected }.logs (eventObs st .linkFailure) := by
      unfold setState
      rw [if_pos (Or.inl hup), onEvent_passive hp]
    rw [← hset]
    exact if_pos hspent
  have hupper : upper (eventObs st .linkFailure) = eventObs st .linkFailure := by
    unfold eventObs
    split_ifs <;> rfl
  have htold : upper (t1Expired st s).trace = upper s.trace ++ eventObs st .linkFailure := by
    rw [heq, upper_reset]
    exact (upper_append _ _).trans (congrArg (upper s.trace ++ ·) hupper)
  rw [heq] at htold ⊢
  have hcleared := @resetState_eq st
    ({ counted s with currentState := .disconnected }.logs (eventObs st .linkFailure))
  exact
    { currentState := congrArg Ctx.currentState hcleared
      told := htold
      t1Active := rfl
      t2Active := rfl
      n2 := rfl
      vs := congrArg Ctx.vs hcleared
      vr := resetState_vr _
      va := congrArg Ctx.va hcleared
      txNextSlot := congrArg Ctx.txNextSlot hcleared
      slotLens := fun w hw i hi => (congrFun (congrArg Ctx.slotLens hcleared) i).trans (clearSlotLens_of_lt hw _ hi)
      rejException := rfl
      remoteBusy := rfl
      localBusy := rfl
      retransmitPending := (resetState_pending _).trans hpending }

theorem upper_t1Start (s : Ctx) : upper (t1Start st s).trace = upper s.trace :=
  congrArg LinkView.told (linkView_t1Start s)

/-- What a repetition leaves as it was. -/
structure Repeated (s s' : Ctx) : Prop where
  currentState : s'.currentState = s.currentState
  peerAddress : s'.peerAddress = s.peerAddress
  n2 : s'.n2 = (s.n2 + 1) % 256
  va : s'.va = s.va
  vs : s'.vs = s.vs
  retransmitPending : s'.retransmitPending = s.retransmitPending
  told : upper s'.trace = upper s.trace

theorem Repeats.repeated {f : Frame} {s : Ctx} (h : Repeats st f s) : Repeated s (t1Expired st s) := by
  rw [show t1Expired st s = t1Start st ((counted s).put st f) from h]
  refine ⟨rfl, rfl, rfl, rfl, rfl, rfl, ?_⟩
  rw [upper_t1Start]
  exact (upper_append _ _).trans (by rw [upper_obs, List.append_nil]; rfl)

theorem Repeated.awaiting {s s' : Ctx} (h : Repeated s s') (hwait : Awaiting s) : Awaiting s' := by
  unfold Awaiting
  rw [h.currentState, h.va, h.vs]
  exact hwait

theorem Effect.n2_le (hp : st.platform.Passive) {limit : Nat} {ctrl : UInt8} {s s' : Ctx}
    (h : Effect st ctrl s s') (hs : s.n2 ≤ limit) : s'.n2 ≤ limit := by
  cases h with
  | data payload =>
      rw [onData_passive hp]
      exact hs
  | event event =>
      rw [onEvent_passive hp]
      exact hs
  | reset => exact Nat.zero_le limit
  | ack => exact Nat.zero_le limit
  | _ => exact hs

theorem Deed.n2_le (hp : st.platform.Passive) {limit : Nat} {call : Call} (hcall : call ≠ .t1Expired)
    {s s' : Ctx} (h : Deed st call s s') (hs : s.n2 ≤ limit) : s'.n2 ≤ limit := by
  cases h with
  | event event =>
      rw [onEvent_passive hp]
      exact hs
  | reset => exact Nat.zero_le limit
  | retry h => exact absurd h hcall
  | _ => exact hs

theorem retransmitLoop_n2 (w : TxWindow) (endVs fuel slotIdx : Nat) (s : Ctx) :
    (retransmitLoop st w endVs fuel slotIdx s).n2 = s.n2 ∧
      (retransmitLoop st w endVs fuel slotIdx s).peerAddress = s.peerAddress := by
  induction fuel generalizing slotIdx s with
  | zero => exact ⟨rfl, rfl⟩
  | succ fuel ih =>
      unfold retransmitLoop
      split_ifs
      · exact ⟨rfl, rfl⟩
      · extract_lets t u v
        have hv : v.n2 = s.n2 ∧ v.peerAddress = s.peerAddress := by
          simp only [v, u, frameSend_octets]
          exact ⟨rfl, rfl⟩
        exact ⟨(ih _ v).1.trans hv.1, (ih _ v).2.trans hv.2⟩

/-- Between calls the counter has not passed the limit, where there is one that it can pass. -/
theorem Reachable.n2_le (hp : st.platform.Passive) (hpos : 0 < st.config.maxRetries) {mem : Memory} {s : Ctx}
    (h : Reachable st mem s) : s.n2 ≤ st.config.maxRetries := by
  refine h.invariant (P := fun t => t.n2 ≤ st.config.maxRetries) (Nat.zero_le _) fun t ht call hlegal => ?_
  cases call with
  | dataIn bytes =>
      have hchunk : (AtcHdlc.rxBytes st t bytes).n2 ≤ st.config.maxRetries :=
        @rxBytes_induct st (fun t => t.n2 ≤ _) (fun _ t => t.n2 ≤ _) (fun _ _ h => h) (fun _ _ _ _ h => h)
          (fun _ _ _ he h => he.n2_le hp h) (fun _ _ h => h) t ht bytes
      have hend : (retransmitIfPending st (AtcHdlc.rxBytes st t bytes)).n2 = (AtcHdlc.rxBytes st t bytes).n2 := by
        unfold retransmitIfPending
        split_ifs
        · cases st.txWindow with
          | none => rfl
          | some w => exact (retransmitLoop_n2 w _ _ _ _).1
        · rfl
      exact hend.trans_le hchunk
  | t1Expired =>
      simp only [Call.run, AtcHdlc.t1Expired, sendRr, sendRnr, sendU_eq, sendS_eq, retransmitFrmr_eq]
      by_cases hspent : st.config.maxRetries > 0 ∧ (t.n2 + 1) % 256 > st.config.maxRetries
      · rw [if_pos hspent]
        exact Nat.zero_le _
      · rw [if_neg hspent]
        have hle : (t.n2 + 1) % 256 ≤ st.config.maxRetries := by
          by_contra hgt
          exact hspent ⟨hpos, Nat.lt_of_not_le hgt⟩
        split
        · exact hle
        · exact hle
        · split_ifs <;> exact hle
        · exact hle
        · exact hle
  | _ =>
      exact (Call.deeds st t hlegal (by simp)).induct (fun _ _ hd => hd.n2_le hp (by simp)) ht

/-- The frame by which a call begins an attempt. -/
def Call.command (peer : UInt8) : Call → Frame
  | disconnect => ⟨peer, uCtrl uDisc true, []⟩
  | _ => ⟨peer, uCtrl uSabm true, []⟩

/-- The call begins an attempt to set up, reset or release the link, and succeeds. -/
def Call.Succeeds (st : Station) (s : Ctx) : Call → Prop
  | linkSetup peerAddr => (AtcHdlc.linkSetup st s peerAddr).1 = .ok
  | disconnect => (AtcHdlc.disconnect st s).1 = .ok
  | linkReset => (AtcHdlc.linkReset st s).1 = .ok
  | _ => False

instance (s : Ctx) (call : Call) : Decidable (call.Succeeds st s) :=
  match call with
  | .linkSetup _ => inferInstanceAs (Decidable (_ = _))
  | .disconnect => inferInstanceAs (Decidable (_ = _))
  | .linkReset => inferInstanceAs (Decidable (_ = _))
  | .t1Expired | .t2Expired | .abort | .setLocalBusy _ | .dataIn _ | .transmitUi _ _
  | .transmitTest _ _ | .transmitI _ | .transmitUiStart _ | .transmitUiData _ | .transmitUiEnd =>
      .isFalse id

/-- An attempt has begun and its frame has been sent; the counter is as it was. -/
structure Begun (state : State) (n2 : Nat) (s' : Ctx) : Prop where
  currentState : s'.currentState = state
  n2 : s'.n2 = n2

theorem setState_begun (hp : st.platform.Passive) {s : Ctx} {n2 : Nat} (hn2 : s.n2 = n2) (state : State)
    (event : Event) : Begun state n2 (setState st s state event) := by
  refine ⟨setState_currentState hp s state event, ?_⟩
  simp only [setState]
  split_ifs
  · rw [onEvent_passive hp]
    exact hn2
  · exact hn2

theorem linkSetup_begun (hp : st.platform.Passive) {s : Ctx} (peerAddr : UInt8)
    (hdown : s.currentState = .disconnected) : Begun .connecting s.n2 (linkSetup st s peerAddr).2 := by
  unfold linkSetup
  rw [if_neg (not_not.mpr hdown)]
  simp only [sendU_eq]
  refine setState_begun hp ?_ _ _
  rfl

theorem disconnect_begun (hp : st.platform.Passive) {s : Ctx}
    (hup : ¬(s.currentState ≠ .connected ∧ s.currentState ≠ .frmrError)) :
    Begun .disconnecting s.n2 (disconnect st s).2 := by
  unfold disconnect
  rw [if_neg hup]
  simp only [sendU_eq]
  refine setState_begun hp ?_ _ _
  rfl

theorem linkReset_begun (hp : st.platform.Passive) (s : Ctx) : Begun .connecting 0 (linkReset st s).2 := by
  simp only [linkReset, sendU_eq]
  refine setState_begun hp ?_ _ _
  rfl

/-- What a successful attempt leaves: the state in which its frame is repeated, and the old counter, which
only `atc_hdlc_link_reset` has cleared. -/
theorem Call.Succeeds.begun (hp : st.platform.Passive) {s : Ctx} {call : Call} (h : call.Succeeds st s) :
    ((call.run st s).currentState = .connecting ∨ (call.run st s).currentState = .disconnecting) ∧
      enquiry (call.run st s) = call.command (call.run st s).peerAddress ∧
      ((call.run st s).n2 = 0 ↔ call = .linkReset ∨ s.n2 = 0) := by
  cases call with
  | linkSetup peerAddr =>
      have hdown : s.currentState = .disconnected := by
        by_contra hnot
        have hrefused : (AtcHdlc.linkSetup st s peerAddr).1 = .badState := by
          unfold AtcHdlc.linkSetup
          rw [if_pos hnot]
        exact absurd (hrefused.symm.trans h) (by decide)
      have hbegun := linkSetup_begun hp peerAddr hdown
      exact ⟨Or.inl hbegun.currentState, by simp only [enquiry, run, hbegun.currentState]; rfl,
        by simp [run, hbegun.n2]⟩
  | disconnect =>
      have hup : ¬(s.currentState ≠ .connected ∧ s.currentState ≠ .frmrError) := by
        intro hnot
        have hrefused : (AtcHdlc.disconnect st s).1 = .badState := by
          unfold AtcHdlc.disconnect
          rw [if_pos hnot]
        exact absurd (hrefused.symm.trans h) (by decide)
      have hbegun := disconnect_begun hp hup
      exact ⟨Or.inr hbegun.currentState, by simp only [enquiry, run, hbegun.currentState]; rfl,
        by simp [run, hbegun.n2]⟩
  | linkReset =>
      have hbegun := linkReset_begun hp s
      exact ⟨Or.inl hbegun.currentState, by simp only [enquiry, run, hbegun.currentState]; rfl,
        by simp [run, hbegun.n2]⟩
  | _ => exact h.elim

/-! ### A dead peer is detected -/

/-- From a waiting state with room for `d` more repetitions the link is given up at the next expiry but
`d`. -/
theorem gaveUp_after (hp : st.platform.Passive) (hmax : st.config.maxRetries ≤ 254) (d : Nat) {s : Ctx}
    (hwait : Awaiting s) (hpending : s.retransmitPending = false) (hroom : s.n2 + d = st.config.maxRetries)
    (hpos : 0 < st.config.maxRetries) :
    (∀ i ≤ d, Awaiting ((t1Expired st)^[i] s)) ∧ GaveUp st s ((t1Expired st)^[d + 1] s) := by
  induction d generalizing s with
  | zero =>
      have hspent : Exhausted st (counted s) := by
        refine ⟨hpos, ?_⟩
        simp only [counted]
        omega
      refine ⟨fun i hi => ?_, t1Expired_gaveUp hp hwait hpending hspent⟩
      rw [Nat.le_zero.mp hi]
      exact hwait
  | succ d ih =>
      have hkept : ¬Exhausted st (counted s) := by
        rintro ⟨-, hgt⟩
        simp only [counted] at hgt
        omega
      have hrepeated := (t1Expired_repeats hwait hkept).repeated
      have hn2 := hrepeated.n2
      obtain ⟨hbefore, hafter⟩ := ih (hrepeated.awaiting hwait) (hrepeated.retransmitPending.trans hpending)
        (by omega)
      refine ⟨fun i hi => ?_, { hafter with told := ?_ }⟩
      · cases i with
        | zero => exact hwait
        | succ i => exact hbefore i (by omega)
      · rw [← hrepeated.told]
        exact hafter.told

/-- A limit of 255 is never passed: the counter wraps first. -/
theorem never_gaveUp (hp : st.platform.Passive) (hlimit : st.config.maxRetries = 255) {s : Ctx}
    (hdown : s.currentState = .disconnected) (peerAddr : UInt8) (k : Nat) :
    ((t1Expired st)^[k] (linkSetup st s peerAddr).2).currentState = .connecting := by
  have hnever (t : Ctx) : ¬Exhausted st (counted t) := by
    rintro ⟨-, hlt⟩
    simp only [counted] at hlt
    omega
  induction k with
  | zero => exact (linkSetup_begun hp peerAddr hdown).currentState
  | succ k ih =>
      rw [Function.iterate_succ_apply']
      exact (t1Expired_repeats (Or.inl ih) (hnever _)).repeated.currentState.trans ih

/-- A dead peer is detected within N + 1 expiries from every waiting state, exactly when the counter can
pass N: N = 255 is the limit of its eight bits. -/
theorem dead_peer_detected_iff (hp : st.platform.Passive) (hpos : 1 ≤ st.config.maxRetries)
    (hmax : st.config.maxRetries ≤ 255) (mem : Memory) :
    (∀ s, Reachable st mem s → Awaiting s →
      ∃ k ≤ st.config.maxRetries,
        (∀ i ≤ k, Awaiting ((t1Expired st)^[i] s)) ∧ GaveUp st s ((t1Expired st)^[k + 1] s)) ↔
      st.config.maxRetries ≤ 254 := by
  constructor
  · intro hdetected
    by_contra hgt
    have hforever := never_gaveUp hp (show st.config.maxRetries = 255 by omega)
      (show (initCtx st mem).currentState = .disconnected from rfl) 0x02
    obtain ⟨k, -, -, hgave⟩ := hdetected ((Call.linkSetup 0x02).run st (initCtx st mem))
      (.call _ .init trivial) (Or.inl (hforever 0))
    exact absurd ((hforever (k + 1)).symm.trans hgave.currentState) (by decide)
  · intro hle s hreach hwait
    have hn2 := hreach.n2_le hp hpos
    refine ⟨st.config.maxRetries - s.n2, Nat.sub_le _ _, ?_⟩
    exact gaveUp_after hp hle _ hwait (hreach.not_pending hp) (by omega) hpos

theorem dead_peer_detected_iff_mock :
    let st := mockStation 0x01 3 (by decide) (by decide)
    ∃ k ≤ 3, (∀ i ≤ k, Awaiting ((t1Expired st)^[i] twoOutstanding)) ∧
      GaveUp st twoOutstanding ((t1Expired st)^[k + 1] twoOutstanding) :=
  (dead_peer_detected_iff mockPlatform_passive (by decide) (by decide) zeroMemory).mpr (by decide)
    twoOutstanding twoOutstanding_reachable (by decide +kernel)

theorem mockStation_room : (1024 + 4) % 2 ^ 32 ≤ 16384 := by decide

/-- The mock set-up with the largest `max_retries`. -/
def patientStation : Station :=
  { mockStation 0x01 3 threeSlots_pos threeSlots_le with
    config := ⟨modeAbm, 0x01, 1024, 255, 1000, 10⟩
    mode_abm := rfl
    rxCapacity_min := mockStation_room
    slotCapacity_min := by simp [mockStation] }

/-- With `max_retries = 255` a station whose peer is gone waits for ever. -/
theorem dead_peer_undetected :
    let s := (Call.linkSetup 0x02).run patientStation (initCtx patientStation zeroMemory)
    patientStation.config.maxRetries = 255 ∧ Reachable patientStation zeroMemory s ∧ Awaiting s ∧
      ∀ k, ¬GaveUp patientStation s ((t1Expired patientStation)^[k] s) := by
  intro s
  have hforever := @never_gaveUp patientStation mockPlatform_passive rfl (initCtx patientStation zeroMemory) rfl 0x02
  refine ⟨rfl, .call _ .init trivial, Or.inl (hforever 0), fun k hgave => ?_⟩
  exact absurd ((hforever k).symm.trans hgave.currentState) (by decide)

/-- No frame is received, and the attempt is not abandoned by another call. -/
def Unheard (st : Station) (s : Ctx) : Call → Prop
  | .dataIn bytes => chunkFrames st s bytes = []
  | .linkReset | .abort => False
  | _ => True

def Call.isExpiry : Call → Bool
  | t1Expired => true
  | _ => false

/-- The full budget of retries: along every run in which no frame is received, each of the first N expiries
of T1 repeats the frame of the attempt and starts T1, and the next gives the link up. -/
def FullBudget (st : Station) (command : Frame) (s : Ctx) : Prop :=
  ∀ calls : List Call, (∀ call ∈ calls, call.Legal) → Along st (Unheard st) s calls →
    let t := calls.foldl (Call.run st) s
    (calls.countP Call.isExpiry < st.config.maxRetries → Repeats st command t) ∧
      (calls.countP Call.isExpiry = st.config.maxRetries → GaveUp st t (t1Expired st t))

/-- What a call leaves alone during an attempt. -/
structure Attempting (s s' : Ctx) : Prop where
  currentState : s'.currentState = s.currentState
  peerAddress : s'.peerAddress = s.peerAddress
  n2 : s'.n2 = s.n2

theorem Deed.attempting (hp : st.platform.Passive) {call : Call} (hresets : ¬call.Resets) {s s' : Ctx}
    (hmoves : ¬call.Moves st s) (h : Deed st call s s')
    (hstate : s.currentState = .connecting ∨ s.currentState = .disconnecting) : Attempting s s' := by
  have hcalm {state : State} (hne : state ≠ .connecting ∧ state ≠ .disconnecting)
      (h : s.currentState = state) : False := by
    rcases hstate with hs | hs
    · exact hne.1 (h.symm.trans hs)
    · exact hne.2 (h.symm.trans hs)
  cases h with
  | event event =>
      rw [onEvent_passive hp]
      exact ⟨rfl, rfl, rfl⟩
  | retry h => exact absurd (by rw [h]; trivial) hresets
  | link state h => exact absurd h hmoves
  | reset h => exact absurd h hresets
  | peer peerAddr h hdown => exact (hcalm (by decide) hdown).elim
  | accept w data h hup => exact (hcalm (by decide) hup).elim
  | _ => exact ⟨rfl, rfl, rfl⟩

/-- No call but the expiry of T1 touches a running attempt. -/
theorem Call.attempting (hp : st.platform.Passive) {s : Ctx} (hpending : s.retransmitPending = false)
    (hstate : s.currentState = .connecting ∨ s.currentState = .disconnecting) {call : Call}
    (hlegal : call.Legal) (hunheard : Unheard st s call) (hexpiry : call.isExpiry = false) :
    Attempting s (call.run st s) := by
  have hdeeds (hcall : ∀ bytes, call ≠ .dataIn bytes) (hresets : ¬call.Resets)
      (hmoves : ∀ t : Ctx, t.currentState = .connecting ∨ t.currentState = .disconnecting → ¬call.Moves st t) :
      Attempting s (call.run st s) := by
    refine (Call.deeds st s hlegal hcall).induct (P := Attempting s) (fun t t' hd ht => ?_) ⟨rfl, rfl, rfl⟩
    have hstate' : t.currentState = .connecting ∨ t.currentState = .disconnecting := by
      rw [ht.currentState]
      exact hstate
    have hnext := hd.attempting hp hresets (hmoves t hstate') hstate'
    exact ⟨hnext.currentState.trans ht.currentState, hnext.peerAddress.trans ht.peerAddress,
      hnext.n2.trans ht.n2⟩
  cases call with
  | dataIn bytes =>
      have hnone : chunkFrames st s bytes = [] := hunheard
      have hchunk : Attempting s (AtcHdlc.rxBytes st s bytes) ∧
          (AtcHdlc.rxBytes st s bytes).retransmitPending = false :=
        @rxBytes_frames st (fun t => Attempting s t ∧ t.retransmitPending = false) (fun _ => False)
          (fun _ _ h => ⟨⟨h.1.currentState, h.1.peerAddress, h.1.n2⟩, h.2⟩) (fun _ _ _ h => h.elim) s
          ⟨⟨rfl, rfl, rfl⟩, hpending⟩ bytes (by simp [hnone])
      have hend : AtcHdlc.dataIn st s bytes = AtcHdlc.rxBytes st s bytes := by
        rw [AtcHdlc.dataIn, retransmitIfPending, if_neg (by rw [hchunk.2]; exact Bool.false_ne_true)]
      simp only [run]
      rw [hend]
      exact hchunk.1
  | t1Expired => exact absurd hexpiry (by decide)
  | linkReset | abort => exact hunheard.elim
  | linkSetup peerAddr =>
      refine hdeeds (by simp) id fun t ht h => ?_
      have hdown : t.currentState = .disconnected := h
      simp [hdown] at ht
  | disconnect =>
      refine hdeeds (by simp) id fun t ht h => ?_
      have hup : t.currentState = .connected ∨ t.currentState = .frmrError := h
      rcases hup with hup | hup <;> simp [hup] at ht
  | _ => exact hdeeds (by simp) id fun _ _ => id

/-- Along a run without received frames the counter has grown by the expiries. -/
theorem attempt_run (hp : st.platform.Passive) (hpos : 0 < st.config.maxRetries)
    (hmax : st.config.maxRetries ≤ 254) {mem : Memory} {s : Ctx} (hreach : Reachable st mem s)
    (hstate : s.currentState = .connecting ∨ s.currentState = .disconnecting) {calls : List Call}
    (hlegal : ∀ call ∈ calls, call.Legal) (hunheard : Along st (Unheard st) s calls)
    (hroom : s.n2 + calls.countP Call.isExpiry ≤ st.config.maxRetries) :
    let t := calls.foldl (Call.run st) s
    t.currentState = s.currentState ∧ t.peerAddress = s.peerAddress ∧
      t.n2 = s.n2 + calls.countP Call.isExpiry := by
  induction calls generalizing s with
  | nil => exact ⟨rfl, rfl, rfl⟩
  | cons call calls ih =>
      have hcall := hlegal call List.mem_cons_self
      have hnext : (call.run st s).currentState = s.currentState ∧
          (call.run st s).peerAddress = s.peerAddress ∧
          (call.run st s).n2 = s.n2 + if call.isExpiry then 1 else 0 := by
        cases hexpiry : call.isExpiry with
        | false =>
            obtain ⟨hcurrent, hpeer, hn2⟩ :=
              Call.attempting hp (hreach.not_pending hp) hstate hcall hunheard.1 hexpiry
            exact ⟨hcurrent, hpeer, hn2⟩
        | true =>
            obtain rfl : call = .t1Expired := by
              cases call <;> first | rfl | cases hexpiry
            have hcount : List.countP Call.isExpiry (.t1Expired :: calls) = List.countP Call.isExpiry calls + 1 :=
              List.countP_cons_of_pos rfl
            have hkept : ¬Exhausted st (counted s) := by
              rintro ⟨-, hgt⟩
              simp only [counted] at hgt
              omega
            have hwait : Awaiting s := hstate.imp id Or.inl
            obtain ⟨hcurrent, hpeer, hn2, -, -, -, -⟩ := (t1Expired_repeats hwait hkept).repeated
            refine ⟨hcurrent, hpeer, hn2.trans ?_⟩
            rw [if_pos rfl]
            omega
      obtain ⟨hcurrent, hpeer, hn2⟩ := hnext
      have hcount := List.countP_cons (p := Call.isExpiry) (a := call) (l := calls)
      obtain ⟨hcurrent', hpeer', hn2'⟩ := ih (.call call hreach hcall) (by rw [hcurrent]; exact hstate)
        (fun c hc => hlegal c (List.mem_cons_of_mem call hc)) hunheard.2 (by omega)
      refine ⟨hcurrent'.trans hcurrent, hpeer'.trans hpeer, ?_⟩
      rw [List.foldl_cons]
      omega

/-- A successful attempt has the full budget of retries exactly when the counter is clear at its beginning,
as it always is for `atc_hdlc_link_reset`, which clears it. -/
theorem full_budget_iff (hp : st.platform.Passive) (hpos : 1 ≤ st.config.maxRetries)
    (hmax : st.config.maxRetries ≤ 254) {mem : Memory} {s : Ctx} (hreach : Reachable st mem s) {call : Call}
    (hattempt : call.Succeeds st s) :
    FullBudget st (call.command (call.run st s).peerAddress) (call.run st s) ↔
      call = .linkReset ∨ s.n2 = 0 := by
  obtain ⟨hstate, hcommand, hclear⟩ := hattempt.begun hp
  have hlegal : call.Legal := by
    cases call <;> trivial
  have hreach' : Reachable st mem (call.run st s) := .call call hreach hlegal
  have hwait {t : Ctx} (h : t.currentState = (call.run st s).currentState) : Awaiting t := by
    unfold Awaiting
    rw [h]
    exact hstate.imp id Or.inl
  rw [← hclear]
  constructor
  · intro hbudget
    by_contra hn2
    -- The old counter is used up before the N-th expiry.
    have hle := hreach'.n2_le hp hpos
    set calls := List.replicate (st.config.maxRetries - (call.run st s).n2) Call.t1Expired with hcalls
    have hcount : calls.countP Call.isExpiry = st.config.maxRetries - (call.run st s).n2 := by
      rw [hcalls, List.countP_replicate]
      rfl
    have halong (n : Nat) (u : Ctx) : Along st (Unheard st) u (List.replicate n .t1Expired) := by
      induction n generalizing u with
      | zero => trivial
      | succ n ih => exact ⟨trivial, ih _⟩
    have hlegal' : ∀ c ∈ calls, c.Legal := by
      intro c hc
      rw [List.eq_of_mem_replicate hc]
      trivial
    obtain ⟨hcurrent, hpeer, hn2'⟩ := attempt_run hp hpos hmax hreach' hstate hlegal' (halong _ _) (by omega)
    have hrepeats := (hbudget calls hlegal' (halong _ _)).1 (by omega)
    have hspent : Exhausted st (counted (calls.foldl (Call.run st) (call.run st s))) := by
      refine ⟨hpos, ?_⟩
      simp only [counted]
      omega
    have hgave := t1Expired_gaveUp hp (hwait hcurrent) ((hreach'.foldl hlegal').not_pending hp) hspent
    have hback := hrepeats.repeated.currentState.symm.trans hgave.currentState
    rw [hcurrent] at hback
    rcases hstate with h | h <;> exact absurd (h.symm.trans hback) (by decide)
  · intro hn2 calls hlegal' hunheard
    refine ⟨fun hlt => ?_, fun heq => ?_⟩
    all_goals
      obtain ⟨hcurrent, hpeer, hn2'⟩ := attempt_run hp hpos hmax hreach' hstate hlegal' hunheard (by omega)
    · have hkept : ¬Exhausted st (counted (calls.foldl (Call.run st) (call.run st s))) := by
        rintro ⟨-, hgt⟩
        simp only [counted] at hgt
        omega
      have hrepeats := t1Expired_repeats (hwait hcurrent) hkept
      have hsame : enquiry (calls.foldl (Call.run st) (call.run st s)) = enquiry (call.run st s) := by
        unfold enquiry
        rw [hcurrent, hpeer]
        rcases hstate with h | h <;> simp only [h]
      rw [hsame, hcommand] at hrepeats
      exact hrepeats
    · have hspent : Exhausted st (counted (calls.foldl (Call.run st) (call.run st s))) := by
        refine ⟨hpos, ?_⟩
        simp only [counted]
        omega
      exact t1Expired_gaveUp hp (hwait hcurrent) ((hreach'.foldl hlegal').not_pending hp) hspent

/-- A set-up of the mock set-up that the peer has refused after one expiry of T1. -/
def refusedSetup : Ctx :=
  mockRun [.linkSetup 0x02, .t1Expired, .dataIn (Frame.octets crcOpsDefault ⟨0x02, uCtrl uDm true, []⟩)]

theorem refusedSetup_reachable :
    Reachable (mockStation 0x01 3 (by decide) (by decide)) zeroMemory refusedSetup :=
  mockRun_reachable (by simp [Call.Legal])

theorem full_budget_iff_mock :
    let st := mockStation 0x01 3 (by decide) (by decide)
    let s := Call.linkReset.run st refusedSetup
    FullBudget st ⟨s.peerAddress, uCtrl uSabm true, []⟩ s :=
  (@full_budget_iff _ mockPlatform_passive (by decide) (by decide) zeroMemory refusedSetup refusedSetup_reachable
    .linkReset (by decide +kernel)).mpr (Or.inl rfl)

def twoExpiries : List Call := [.t1Expired, .t1Expired]

/-- The next set-up inherits the counter: its third expiry gives the link up, with `max_retries = 3`. -/
theorem budget_cut :
    let st := mockStation 0x01 3 (by decide) (by decide)
    let s := (Call.linkSetup 0x02).run st refusedSetup
    let t := twoExpiries.foldl (Call.run st) s
    st.config.maxRetries = 3 ∧ Reachable st zeroMemory refusedSetup ∧
      (Call.linkSetup 0x02).Succeeds st refusedSetup ∧
      t.currentState = .connecting ∧ (t1Expired st t).currentState = .disconnected ∧
      ¬FullBudget st ⟨s.peerAddress, uCtrl uSabm true, []⟩ s := by
  intro st s t
  have hfacts : (Call.linkSetup 0x02).Succeeds st refusedSetup ∧ t.currentState = .connecting ∧
      (t1Expired st t).currentState = .disconnected := by decide +kernel
  obtain ⟨hok, hbefore, hafter⟩ := hfacts
  refine ⟨rfl, refusedSetup_reachable, hok, hbefore, hafter, fun hbudget => ?_⟩
  have hrepeats := (hbudget twoExpiries (by simp [twoExpiries, Call.Legal]) ⟨trivial, trivial, trivial⟩).1
    (by decide)
  exact absurd ((hrepeats.repeated.currentState.trans hbefore).symm.trans hafter) (by decide)

end Expiry

end AtcHdlc
