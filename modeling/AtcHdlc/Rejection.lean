import AtcHdlc.Polls

/-! The rejection of frames. An I-frame with an invalid N(R) does nothing but reject; a supervisory frame is
heard before its N(R) is looked at. The FRMR that an invalid N(R) draws locks the station down until the
session is begun anew or given up. -/

namespace AtcHdlc

section Reject

variable {st : Station}

/-- One FRMR with the Z bit and the rejected control octet, one event, and the state; nothing else. -/
structure OnlyRejects (st : Station) (s s' : Ctx) (ctrl : UInt8) : Prop where
  line : onLine s'.trace = onLine s.trace ++ (frmrFrame s ctrl frmrZ).obs st.crc s.moment
  told : upper s'.trace = upper s.trace ++ eventObs st .protocolError
  currentState : s'.currentState = .frmrError
  t1Active : s'.t1Active = true
  t2Active : s'.t2Active = false
  vs : s'.vs = s.vs
  vr : s'.vr = s.vr
  va : s'.va = s.va
  txNextSlot : s'.txNextSlot = s.txNextSlot
  slots : s'.slots = s.slots
  slotLens : s'.slotLens = s.slotLens
  remoteBusy : s'.remoteBusy = s.remoteBusy
  localBusy : s'.localBusy = s.localBusy
  rejException : s'.rejException = s.rejException

/-- What the rejected frame says besides its N(R) is nothing new: it is an I-frame, or a supervisory frame
that asks for no final and leaves the peer's busy condition as it is. -/
def SaysNothing (s : Ctx) (f : Received) : Prop :=
  isIframe f.ctrl = true ∨
    ¬(isCmd s f.address = true ∧ ctrlPf f.ctrl = true) ∧
      (ctrlS f.ctrl = sRr ∨ ctrlS f.ctrl = sRej → s.remoteBusy = false) ∧
      (ctrlS f.ctrl = sRnr → s.remoteBusy = true)

instance (s : Ctx) (f : Received) : Decidable (SaysNothing s f) :=
  inferInstanceAs (Decidable (_ ∨ _ ∧ (_ → _) ∧ (_ → _)))

theorem updateRemoteBusy_quiet (hp : st.platform.Passive) (s : Ctx) (kind : Nat) :
    Quiet s (updateRemoteBusy st s kind) := by
  have hset (busy : Bool) : Quiet s { s with remoteBusy := busy } := .of_trace rfl rfl rfl rfl rfl rfl rfl
  have hsame : Quiet s s := .of_trace rfl rfl rfl rfl rfl rfl rfl
  simp only [updateRemoteBusy]
  split_ifs
  · exact (hset false).trans (.onEvent hp _ _)
  · exact hset false
  · exact hsame
  · exact (hset true).trans (.onEvent hp _ _)
  · exact hset false
  · exact hsame

theorem rejectNr_quiet (hp : st.platform.Passive) (s : Ctx) (ctrl : UInt8) : Quiet s (rejectNr st s ctrl) := by
  have hfields (flags : UInt8) : Quiet s { s with frmrCtrl := ctrl, frmrFlags := flags } :=
    .of_trace rfl rfl rfl rfl rfl rfl rfl
  unfold rejectNr sendFrmr
  simp only [retransmitFrmr_eq]
  exact ((((hfields _).trans (.t2Stop st _)).trans (.put st _ _)).trans (.t1Start st _)).trans
    (setState_quiet hp _ _ _)

theorem rejectNr_frmr (hp : st.platform.Passive) {s : Ctx} (hstate : s.currentState = .connected)
    (ctrl : UInt8) :
    (rejectNr st s ctrl).frmrCtrl = ctrl ∧ (rejectNr st s ctrl).frmrFlags = frmrZ ∧
      (rejectNr st s ctrl).retransmitPending = s.retransmitPending := by
  have hleft : (sendFrmr st s ctrl false false false true).currentState ≠ .frmrError := by
    simp only [sendFrmr, retransmitFrmr_eq]
    exact fun h => absurd (hstate.symm.trans h) (by decide)
  have hset : rejectNr st s ctrl =
      onEvent st { sendFrmr st s ctrl false false false true with currentState := .frmrError } .protocolError :=
    if_pos (Or.inl hleft)
  rw [hset, onEvent_passive hp]
  simp only [sendFrmr, retransmitFrmr_eq]
  exact ⟨rfl, rfl, rfl⟩

/-- What a connected station does about a frame with an invalid N(R) ends in `rejectNr`. -/
theorem dispatch_invalid (hp : st.platform.Passive) {s : Ctx} {f : Received}
    (hstate : s.currentState = .connected) (hu : isUframe f.ctrl = false)
    (hinvalid : nrValid s (ctrlNr f.ctrl) = false) :
    ∃ t, f.dispatch st s = rejectNr st t f.ctrl ∧ Quiet (s.log (.dispatch f.address f.ctrl f.info)) t ∧
      t.currentState = .connected ∧ ackView t = ackView s := by
  set logged := s.log (.dispatch f.address f.ctrl f.info) with hlogged
  have hdispatch : f.dispatch st s = stateConnected st logged f.address f.ctrl f.info := by
    unfold Received.dispatch dispatchFrame
    simp only [← hlogged, show logged.currentState = .connected from hstate]
  have hnot (t : Ctx) (h : ackView t = ackView s) : ¬nrValid t (ctrlNr f.ctrl) = true := by
    rw [nrValid_congr h, hinvalid]
    exact Bool.false_ne_true
  rw [hdispatch]
  unfold stateConnected
  rcases ctrl_cases f.ctrl with ⟨hi, -, -⟩ | ⟨hi, hs, -⟩ | ⟨-, -, hu'⟩
  · refine ⟨logged, ?_, .of_trace rfl rfl rfl rfl rfl rfl rfl, hstate, rfl⟩
    rw [if_pos hi]
    unfold handleIframe
    exact if_pos (hnot logged rfl)
  · have hheard := updateRemoteBusy_quiet hp logged (ctrlS f.ctrl)
    have hview : ackView (updateRemoteBusy st logged (ctrlS f.ctrl)) = ackView s :=
      ackView_updateRemoteBusy hp logged (ctrlS f.ctrl)
    have hbusy : (updateRemoteBusy st logged (ctrlS f.ctrl)).currentState = .connected := by
      have hlink := congrArg LinkView.currentState (linkView_updateRemoteBusy hp logged (ctrlS f.ctrl))
      exact (hlink.trans (LinkView.currentState_busy _ _)).trans hstate
    rw [if_neg (by simp [hi]), if_pos hs]
    unfold handleSframe
    extract_lets kind nr pf cmd busy polled
    refine ⟨polled, if_pos (hnot polled ?_), ?_, ?_, ?_⟩
    all_goals
      simp only [polled, sendRrResp, sendS_eq]
      split_ifs
    · exact hview
    · exact hview
    · exact (hheard.trans (.put st _ _)).trans (.t2Stop st _)
    · exact hheard
    · exact hbusy
    · exact hbusy
    · exact hview
    · exact hview
  · exact absurd (hu.symm.trans hu') (by decide)

namespace LinkView

/-- A frame that says nothing new about the busy condition is not heard. -/
theorem busy_eq_self (v : LinkView) {kind : Nat} (hready : kind = sRr ∨ kind = sRej → v.remoteBusy = false)
    (hbusy : kind = sRnr → v.remoteBusy = true) : v.busy st kind = v := by
  obtain ⟨state, my, peer, vr, rej, remoteBusy, localBusy, t2, line, told, got, frmr, debt, sessions⟩ := v
  unfold busy
  split_ifs with hrr hremote hrnr hremote hrej
  · exact absurd (hremote.symm.trans (hready (Or.inl hrr))) (by decide)
  · obtain rfl : remoteBusy = false := hready (Or.inl hrr)
    simp [tell]
  · obtain rfl : remoteBusy = true := hbusy hrnr
    simp [tell]
  · exact absurd (hbusy hrnr) hremote
  · obtain rfl : remoteBusy = false := hready (Or.inr hrej)
    rfl
  · rfl

theorem remoteBusy_poll (v : LinkView) (polled : Bool) : (v.poll st polled).remoteBusy = v.remoteBusy := by
  unfold poll
  split_ifs <;> rfl

end LinkView

/-- The frame with the invalid N(R) and no other effect, exactly when it says nothing else. The frame may be
an inner one of its chunk or, where no earlier frame of the chunk has armed a retransmission, the last. -/
theorem rejection_clean_iff (hp : st.platform.Passive) {s : Ctx} {f : Received} (hf : completed s flag = some f)
    (hstate : s.currentState = .connected) (hu : isUframe f.ctrl = false)
    (hinvalid : nrValid s (ctrlNr f.ctrl) = false) {s' : Ctx}
    (hs' : s' = rxByte st s flag ∨ s.retransmitPending = false ∧ s' = dataIn st s [flag]) :
    OnlyRejects st s s' f.ctrl ↔ SaysNothing s f := by
  obtain ⟨t, hdispatch, hquiet, hconnected, hack⟩ := dispatch_invalid hp hstate hu hinvalid
  have hquiet' := hquiet.trans (rejectNr_quiet hp t f.ctrl)
  rw [← hdispatch] at hquiet'
  have hview := dispatchFrame_linkView hp s f
  have hview' : ackView (f.dispatch st s) = { ackView s with t1Active := true } := by
    rw [hdispatch, ackView_rejectNr hp, hack]
  have hrx : rxByte st s flag = rxRestart (f.dispatch st s) .addr := by rw [rxByte_completed, hf]
  have hs'' : s' = rxRestart (f.dispatch st s) .addr := by
    rcases hs' with rfl | ⟨hpending, rfl⟩
    · exact hrx
    · have hcalm : (rxByte st s flag).retransmitPending = false := by
        rw [hrx]
        exact (congrArg AckView.retransmitPending hview').trans hpending
      have hchunk : dataIn st s [flag] = retransmitIfPending st (rxByte st s flag) := rfl
      rw [hchunk, retransmitIfPending, if_neg (by rw [hcalm]; exact Bool.false_ne_true), hrx]
  subst hs''
  have hnot : ¬isUframe f.ctrl = true := by simp [hu]
  have hclean (hnext : (linkView s).next st s f = (linkView s).reject st (frmrFrame s f.ctrl frmrZ)) :
      OnlyRejects st s (rxRestart (f.dispatch st s) .addr) f.ctrl := by
    rw [hnext] at hview
    exact
      { line := congrArg LinkView.line hview
        told := congrArg LinkView.told hview
        currentState := congrArg LinkView.currentState hview
        t1Active := congrArg AckView.t1Active hview'
        t2Active := congrArg LinkView.t2Active hview
        vs := hquiet'.vs
        vr := congrArg LinkView.vr hview
        va := hquiet'.va
        txNextSlot := hquiet'.cursor
        slots := hquiet'.slots
        slotLens := hquiet'.slotLens
        remoteBusy := congrArg LinkView.remoteBusy hview
        localBusy := congrArg LinkView.localBusy hview
        rejException := congrArg LinkView.rejException hview }
  rcases ctrl_cases f.ctrl with ⟨hi, -, -⟩ | ⟨hi, hs, -⟩ | ⟨-, -, hu'⟩
  · refine iff_of_true (hclean ?_) (Or.inl hi)
    simp only [LinkView.next, hstate]
    rw [if_neg hnot, if_pos hi, if_pos (by simp [hinvalid])]
  · have hnext : (linkView s).next st s f =
        (((linkView s).busy st (ctrlS f.ctrl)).poll st (isCmd s f.address && ctrlPf f.ctrl)).reject st
          (frmrFrame s f.ctrl frmrZ) := by
      simp only [LinkView.next, hstate]
      rw [if_neg hnot, if_neg (by simp [hi]), if_pos (by simp [hinvalid])]
    constructor
    · intro h
      rw [hnext] at hview
      have hremote : (if ctrlS f.ctrl = sRnr then true
          else if ctrlS f.ctrl = sRr ∨ ctrlS f.ctrl = sRej then false else s.remoteBusy) = s.remoteBusy := by
        have hheard := (congrArg LinkView.remoteBusy hview).symm.trans h.remoteBusy
        have hpoll := @LinkView.remoteBusy_poll st ((linkView s).busy st (ctrlS f.ctrl))
          (isCmd s f.address && ctrlPf f.ctrl)
        exact (hpoll.trans (LinkView.remoteBusy_busy _ _)).symm.trans hheard
      refine Or.inr ⟨fun hpoll => ?_, fun hkind => ?_, fun hkind => ?_⟩
      · have hboth : (isCmd s f.address && ctrlPf f.ctrl) = true := by rw [hpoll.1, hpoll.2, Bool.and_self]
        rw [hboth] at hview
        have hpolled := (@LinkView.heads_poll st ((linkView s).busy st (ctrlS f.ctrl)) true).1
        rw [if_pos rfl, LinkView.line_busy] at hpolled
        have hsent : heads (onLine (f.dispatch st s).trace) =
            heads (linkView s).line ++ [_] ++ [(s.myAddress, uCtrl uFrmr false)] :=
          (congrArg heads (congrArg LinkView.line hview)).trans
            ((LinkView.heads_say _ st.crc (frmrFrame s f.ctrl frmrZ)).trans (congrArg (· ++ _) hpolled))
        have hclaimed := congrArg heads h.line
        rw [heads_append, heads_obs] at hclaimed
        have hlength := congrArg List.length (hsent.symm.trans hclaimed)
        simp [linkView] at hlength
      · have hrnr : ctrlS f.ctrl ≠ sRnr := by
          rcases hkind with hkind | hkind <;> rw [hkind] <;> decide
        rw [if_neg hrnr, if_pos hkind] at hremote
        exact hremote.symm
      · rw [if_pos hkind] at hremote
        exact hremote.symm
    · intro h
      refine hclean ?_
      obtain ⟨hpoll, hready, hbusy⟩ := h.resolve_left (by simp [hi])
      have hpolled : (isCmd s f.address && ctrlPf f.ctrl) = false := by
        cases hc : isCmd s f.address <;> cases hpf : ctrlPf f.ctrl <;> simp_all
      rw [hnext, hpolled, LinkView.busy_eq_self _ hready hbusy]
      rfl
  · exact absurd (hu.symm.trans hu') (by decide)

/-- An I-frame with an N(R) that no I-frame was sent under. -/
theorem rejection_clean_iff_mock :
    let st := mockStation 0x01 3 (by decide) (by decide)
    let s := mockHearing ⟨0x01, iCtrl 0 3 false, [0x55]⟩
    OnlyRejects st s (dataIn st s [flag]) (iCtrl 0 3 false) := by
  intro st s
  obtain ⟨f, hf, hctrl, hu, hinvalid, hsays⟩ : ∃ f ∈ completed s flag, f.ctrl = iCtrl 0 3 false ∧
      isUframe f.ctrl = false ∧ nrValid s (ctrlNr f.ctrl) = false ∧ SaysNothing s f := by decide +kernel
  rw [← hctrl]
  exact (rejection_clean_iff mockPlatform_passive hf (by decide +kernel) hu hinvalid
    (Or.inr ⟨by decide +kernel, rfl⟩)).mpr hsays

/-- An RNR with such an N(R) is rejected, and its busy condition has been taken over before. -/
theorem rejected_frame_heard :
    let st := mockStation 0x01 3 (by decide) (by decide)
    let s := mockHearing ⟨0x01, sCtrl sRnr 3 false, []⟩
    let s' := dataIn st s [flag]
    Reachable st zeroMemory s ∧ s.currentState = .connected ∧
      (∃ f ∈ completed s flag, f.ctrl = sCtrl sRnr 3 false ∧ nrValid s (ctrlNr f.ctrl) = false) ∧
      s'.currentState = .frmrError ∧ s.remoteBusy = false ∧ s'.remoteBusy = true ∧
      ¬OnlyRejects st s s' (sCtrl sRnr 3 false) := by
  intro st s s'
  have hfacts : s.currentState = .connected ∧
      (∃ f ∈ completed s flag, f.ctrl = sCtrl sRnr 3 false ∧ nrValid s (ctrlNr f.ctrl) = false) ∧
      s'.currentState = .frmrError ∧ s.remoteBusy = false ∧ s'.remoteBusy = true := by decide +kernel
  obtain ⟨hstate, hframe, hafter, hbefore, hbusy⟩ := hfacts
  refine ⟨mockHearing_reachable _, hstate, hframe, hafter, hbefore, hbusy, fun h => ?_⟩
  exact absurd (hbusy.symm.trans (h.remoteBusy.trans hbefore)) (by decide)

namespace LinkView

/-- Between two views the station has sent no FRMR. -/
def Mild (v v' : LinkView) : Prop :=
  ∃ l, heads v'.line = heads v.line ++ l ∧ ∀ x ∈ l, x.2 ≠ uCtrl uFrmr false

theorem Mild.silent {v v' : LinkView} (h : v'.line = v.line) : Mild v v' :=
  ⟨[], by rw [h, List.append_nil], by simp⟩

theorem Mild.say (v : LinkView) (crc : CrcOps) {g : Frame} (hne : g.ctrl ≠ uCtrl uFrmr false) :
    Mild v (v.say crc g) := by
  refine ⟨[(g.address, g.ctrl)], heads_say v crc g, fun x hx => ?_⟩
  rw [List.mem_singleton.mp hx]
  exact hne

theorem uCtrl_ne_frmr {cmd : UInt8} (hcmd : cmd = uUa ∨ cmd = uDm ∨ cmd = uTest) (pf : Bool) :
    uCtrl cmd pf ≠ uCtrl uFrmr false := by
  rcases hcmd with rfl | rfl | rfl <;> cases pf <;> decide

theorem mild_sayUa (v : LinkView) (pf : Bool) : Mild v (v.sayUa st pf) :=
  .say v st.crc (uCtrl_ne_frmr (Or.inl rfl) pf)

theorem mild_sayDm (v : LinkView) (pf : Bool) : Mild v (v.sayDm st pf) :=
  .say v st.crc (uCtrl_ne_frmr (Or.inr (Or.inl rfl)) pf)

theorem mild_accept (v : LinkView) (pf : Bool) : Mild v (v.accept st pf) :=
  .say v.fresh st.crc (uCtrl_ne_frmr (Or.inl rfl) pf)

theorem supervisory_of_mem_answer {s : Ctx} {f : Received} {x : UInt8 × UInt8} (hx : x ∈ answer s f) :
    ∃ kind nr pf, x.2 = sCtrl kind nr pf := by
  simp only [answer] at hx
  split_ifs at hx
  all_goals first
    | exact absurd hx List.not_mem_nil
    | exact ⟨_, _, _, congrArg Prod.snd (List.mem_singleton.mp hx)⟩

theorem mild_unnumbered (v : LinkView) (s : Ctx) (f : Received)
    (hcmd : uCmd f.ctrl ≠ .ua ∧ uCmd f.ctrl ≠ .unknown) : Mild v (v.unnumbered st s f) := by
  unfold unnumbered
  cases hc : uCmd f.ctrl with
  | sabm => exact mild_accept v _
  | disc => exact mild_sayUa v.fresh _
  | test =>
      by_cases hisCmd : isCmd s f.address = true
      · simp only [hisCmd, if_true]
        exact .say v st.crc (uCtrl_ne_frmr (Or.inr (Or.inr rfl)) _)
      · simp only [hisCmd]
        cases f.info <;> exact .silent rfl
  | snrm | sabme | snrme | sarme => exact mild_sayDm v _
  | ua => exact absurd hc hcmd.1
  | unknown => exact absurd hc hcmd.2
  | _ => exact .silent rfl

/-- An FRMR goes out only for a frame that a connected station receives, and only for an invalid N(R), a UA
or an unknown unnumbered frame. -/
theorem mild_next {s : Ctx} {f : Received}
    (hcause : s.currentState = .connected →
      (isUframe f.ctrl = false → nrValid s (ctrlNr f.ctrl) = true) ∧
        (isUframe f.ctrl = true → uCmd f.ctrl ≠ .ua ∧ uCmd f.ctrl ≠ .unknown)) :
    Mild (linkView s) ((linkView s).next st s f) := by
  by_cases hup : s.currentState = .connected
  · obtain ⟨hvalid, hcmd⟩ := hcause hup
    by_cases hu : isUframe f.ctrl = true
    · simp only [next, hup, hu, if_true]
      exact mild_unnumbered _ _ _ (hcmd hu)
    · have hu' : isUframe f.ctrl = false := by simpa using hu
      refine ⟨_, (heads_next hup hu' (hvalid hu')).1, fun x hx hfrmr => ?_⟩
      obtain ⟨kind, nr, pf, hctrl⟩ := supervisory_of_mem_answer hx
      exact absurd (sCtrl_ne_frmr kind nr pf) (by rw [← hctrl, hfrmr]; decide)
  · unfold next
    cases hstate : s.currentState with
    | connected => exact absurd hstate hup
    | disconnected =>
        cases isUframe f.ctrl with
        | false => exact .silent rfl
        | true =>
            cases uCmd f.ctrl with
            | sabm => exact mild_accept (linkView s) _
            | disc => exact mild_sayUa (linkView s) _
            | snrm | sabme | snrme | sarme => exact mild_sayDm (linkView s) _
            | _ => exact .silent rfl
    | connecting =>
        cases isUframe f.ctrl with
        | false => exact .silent rfl
        | true =>
            cases uCmd f.ctrl with
            | sabm => exact mild_sayUa (linkView s) _
            | disc => exact mild_sayDm (linkView s) _
            | ua | dm => cases ctrlPf f.ctrl <;> exact .silent rfl
            | _ => exact .silent rfl
    | disconnecting =>
        cases isUframe f.ctrl with
        | false =>
            cases ctrlPf f.ctrl with
            | false => exact .silent rfl
            | true => exact mild_sayDm (linkView s) true
        | true =>
            cases uCmd f.ctrl with
            | sabm | sabme => exact mild_sayDm (linkView s) _
            | disc => exact mild_sayUa (linkView s) _
            | ua | dm => cases ctrlPf f.ctrl <;> exact .silent rfl
            | _ => exact .silent rfl
    | frmrError =>
        dsimp only
        split_ifs
        · exact mild_accept (linkView s) _
        · exact .silent rfl

end LinkView

/-! ### The lock-down -/

/-- The frame is a SABM. -/
def IsSabm (f : Received) : Prop := isUframe f.ctrl = true ∧ uCmd f.ctrl = .sabm

instance (f : Received) : Decidable (IsSabm f) := inferInstanceAs (Decidable (_ ∧ _))

/-- The call ends a lock-down: a SABM is received, the session is given up, or N2 is exceeded. -/
def Releases (st : Station) (s : Ctx) : Call → Prop
  | .dataIn bytes => ∃ x ∈ chunkFrames st s bytes, IsSabm x.2
  | .t1Expired => Exhausted st { s with n2 := (s.n2 + 1) % 256 }
  | .disconnect | .linkReset | .abort => True
  | _ => False

instance (s : Ctx) (call : Call) : Decidable (Releases st s call) :=
  match call with
  | .dataIn bytes => inferInstanceAs (Decidable (∃ x ∈ chunkFrames st s bytes, _))
  | .t1Expired => inferInstanceAs (Decidable (_ ∧ _))
  | .disconnect | .linkReset | .abort => .isTrue trivial
  | .t2Expired | .linkSetup _ | .setLocalBusy _ | .transmitUi _ _ | .transmitTest _ _ | .transmitI _
  | .transmitUiStart _ | .transmitUiData _ | .transmitUiEnd => .isFalse id

/-- The station is in FRMR_ERROR, has delivered nothing more, refuses `atc_hdlc_transmit_i`, and at the next
expiry of T1 would say the frame again, octet for octet. -/
structure LockedDown (st : Station) (delivered : List (List UInt8)) (frmr : Frame) (s : Ctx) : Prop where
  currentState : s.currentState = .frmrError
  silent : payloads s.trace = delivered
  refuses : ∀ data, transmitI st s data = (.badState, s)
  repeats : ¬Releases st s .t1Expired →
    ∃ m, onLine (t1Expired st s).trace = onLine s.trace ++ frmr.obs st.crc m

theorem payloads_append (l r : List Obs) : payloads (l ++ r) = payloads l ++ payloads r :=
  List.filterMap_append

theorem payloads_of_upper_nil {os : List Obs} (h : upper os = []) : payloads os = [] := by
  rw [← payloads_upper, h]
  rfl

/-- What a lock-down depends on. -/
structure LockView where
  currentState : State
  myAddress : UInt8
  info : List UInt8
  delivered : List (List UInt8)

def lockView (s : Ctx) : LockView := ⟨s.currentState, s.myAddress, frmrInfo s, payloads s.trace⟩

theorem lockView_logs (s : Ctx) {os : List Obs} (h : upper os = []) : lockView (s.logs os) = lockView s := by
  have hpayloads : payloads (s.trace ++ os) = payloads s.trace := by
    rw [payloads_append, payloads_of_upper_nil h, List.append_nil]
  exact congrArg (LockView.mk s.currentState s.myAddress (frmrInfo s)) hpayloads

theorem lockView_put (s : Ctx) (f : Frame) : lockView (s.put st f) = lockView s :=
  lockView_logs s (upper_obs st.crc s.moment f)

theorem lockView_of_vis {s t : Ctx} (h : vis s = vis t) : lockView s = lockView t := by
  have hview (u : Ctx) : lockView u = lockView (vis u) :=
    congrArg (LockView.mk u.currentState u.myAddress (frmrInfo u)) (payloads_upper u.trace).symm
  rw [hview s, h, ← hview t]

/-- The frame that is said again at every expiry of T1. -/
def LockView.frmr (v : LockView) : Frame := ⟨v.myAddress, uCtrl uFrmr false, v.info⟩

theorem t1Expired_locked {s : Ctx} (hstate : s.currentState = .frmrError)
    (hkept : ¬Releases st s .t1Expired) :
    t1Expired st s =
      t1Start st (Ctx.put { s with t1Active := false, n2 := (s.n2 + 1) % 256 } st (lockView s).frmr) := by
  have hnot : ¬(st.config.maxRetries > 0 ∧ (s.n2 + 1) % 256 > st.config.maxRetries) := hkept
  simp only [t1Expired, retransmitFrmr_eq]
  rw [if_neg hnot]
  simp only [hstate]
  rfl

theorem lockedDown_of_view {s : Ctx} (hstate : s.currentState = .frmrError) :
    LockedDown st (payloads s.trace) (lockView s).frmr s where
  currentState := hstate
  silent := rfl
  refuses data := by
    have hnot : s.currentState ≠ .connected := by
      rw [hstate]
      decide
    exact if_pos hnot
  repeats hkept := by
    refine ⟨(Ctx.moment { s with t1Active := false, n2 := (s.n2 + 1) % 256 }), ?_⟩
    rw [t1Expired_locked hstate hkept]
    have hview := congrArg LinkView.line (@linkView_t1Start st
      (Ctx.put { s with t1Active := false, n2 := (s.n2 + 1) % 256 } st (lockView s).frmr))
    rw [linkView_put] at hview
    exact hview

theorem lockView_t1Start (s : Ctx) : lockView (t1Start st s) = lockView s := by
  refine @lockView_logs s (if st.platform.t1Start then [.t1Start st.config.t1Ms] else []) ?_
  split_ifs <;> rfl

theorem lockView_t2Stop (s : Ctx) : lockView (t2Stop st s) = lockView s := by
  refine @lockView_logs s (if s.t2Active && st.platform.t2Stop then [.t2Stop] else []) ?_
  split_ifs <;> rfl

theorem lockView_event (hp : st.platform.Passive) (s : Ctx) (event : Event) :
    lockView (onEvent st s event) = lockView s := by
  rw [onEvent_passive hp]
  have hpayloads : payloads (s.trace ++ eventObs st event) = payloads s.trace := by
    rw [payloads_append]
    unfold eventObs
    split_ifs <;> simp [payloads]
  exact congrArg (LockView.mk s.currentState s.myAddress (frmrInfo s)) hpayloads

/-- A deed of a call that leaves FRMR_ERROR alone keeps the lock-down. -/
theorem Deed.locked (hp : st.platform.Passive) {call : Call} (hresets : ¬call.Resets) {s s' : Ctx}
    (hmoves : ¬call.Moves st s) (h : Deed st call s s') (hstate : s.currentState = .frmrError) :
    lockView s' = lockView s := by
  have hcalm {state : State} (hne : state ≠ .frmrError) (h : s.currentState = state) : False :=
    hne (h.symm.trans hstate)
  cases h with
  | put f => exact lockView_put s f
  | loose crc os hos _ =>
      refine lockView_logs s (List.filter_eq_nil_iff.mpr fun o ho => ?_)
      have hloose := hos o ho
      cases o <;> first | exact hloose.elim | exact Bool.false_ne_true
  | t1Start => exact lockView_t1Start s
  | t2Stop => exact lockView_t2Stop s
  | event event => exact lockView_event hp s event
  | link state h => exact absurd h hmoves
  | reset h => exact absurd h hresets
  | peer peerAddr h hdown => exact (hcalm (by decide) hdown).elim
  | localBusy busy h hup => exact (hcalm (by decide) hup).elim
  | accept w data h hup => exact (hcalm (by decide) hup).elim
  | cursor next h hup => exact (hcalm (by decide) hup).elim
  | advance vs h hup => exact (hcalm (by decide) hup).elim
  | _ => rfl

/-- The same from frame to frame of a chunk without SABM. -/
theorem rxBytes_locked {s : Ctx} (hstate : s.currentState = .frmrError) {bytes : List UInt8}
    (hkept : ∀ x ∈ chunkFrames st s bytes, ¬IsSabm x.2) : lockView (rxBytes st s bytes) = lockView s := by
  refine @rxBytes_frames st (fun t => lockView t = lockView s) (fun x => ¬IsSabm x.2) (fun _ _ h => h)
    (fun t f ht hf => ?_) s rfl bytes hkept
  have hlocked : t.currentState = .frmrError := (congrArg LockView.currentState ht).trans hstate
  have hignored : f.dispatch st t = t.log (.dispatch f.address f.ctrl f.info) := by
    unfold Received.dispatch dispatchFrame
    simp only [show (t.log (.dispatch f.address f.ctrl f.info)).currentState = .frmrError from hlocked]
    unfold stateFrmrError
    by_cases hu : isUframe f.ctrl = true
    · rw [if_neg (not_not.mpr hu), if_neg fun hcmd => hf ⟨hu, hcmd⟩]
    · rw [if_pos hu]
  rw [hignored]
  exact (@lockView_logs t [.dispatch f.address f.ctrl f.info] rfl).trans ht

/-- A call that does not end the lock-down keeps it. -/
theorem Call.locked (hp : st.platform.Passive) {s : Ctx} (hstate : s.currentState = .frmrError)
    (hinv : ∀ w, st.txWindow = some w → WindowInv w s) {call : Call} (hlegal : call.Legal)
    (hkept : ¬Releases st s call) : lockView (call.run st s) = lockView s := by
  have hdeeds (hcall : ∀ bytes, call ≠ .dataIn bytes) (hresets : ¬call.Resets)
      (hmoves : ∀ t : Ctx, t.currentState = .frmrError → ¬call.Moves st t) :
      lockView (call.run st s) = lockView s := by
    refine (Call.deeds st s hlegal hcall).induct (P := fun t => lockView t = lockView s) (fun t t' hd ht => ?_) rfl
    have hlocked : t.currentState = .frmrError := (congrArg LockView.currentState ht).trans hstate
    exact (hd.locked hp hresets (hmoves t hlocked) hlocked).trans ht
  cases call with
  | dataIn bytes =>
      have hchunk : lockView (AtcHdlc.rxBytes st s bytes) = lockView s :=
        rxBytes_locked hstate fun x hx hsabm => hkept ⟨x, hx, hsabm⟩
      exact (lockView_of_vis (retransmitIfPending_vis fun w hw => (hinv w hw).rxBytes hp bytes)).trans hchunk
  | t1Expired =>
      simp only [run]
      rw [t1Expired_locked hstate hkept, lockView_t1Start, lockView_put]
      rfl
  | disconnect | linkReset | abort => exact absurd trivial hkept
  | linkSetup =>
      refine hdeeds (by simp) id fun t ht h => ?_
      exact absurd (ht.symm.trans h) (by decide)
  | _ => exact hdeeds (by simp) id fun _ _ => id

/-- From a context in FRMR_ERROR the lock-down lasts along every run none of whose steps ends it. -/
theorem foldl_locked (hp : st.platform.Passive) {s : Ctx} (hstate : s.currentState = .frmrError)
    (hinv : ∀ w, st.txWindow = some w → WindowInv w s) {calls : List Call} (hlegal : ∀ call ∈ calls, call.Legal)
    (hkept : Along st (fun s call => ¬Releases st s call) s calls) :
    lockView (calls.foldl (Call.run st) s) = lockView s := by
  induction calls generalizing s with
  | nil => rfl
  | cons call calls ih =>
      have hcall := Call.locked hp hstate hinv (hlegal call List.mem_cons_self) hkept.1
      have hnext : (call.run st s).currentState = .frmrError :=
        (congrArg LockView.currentState hcall).trans hstate
      refine (ih hnext (fun w hw => ?_) (fun c hc => hlegal c (List.mem_cons_of_mem call hc)) hkept.2).trans hcall
      exact WindowInv.call hw hp (hinv w hw) call (hlegal call List.mem_cons_self)

/-- A trace that ends with the octets of one frame ends with those of no other. -/
theorem obs_of_suffix {l l' : List Obs} {crc : CrcOps} {m m' : Moment} {f g : Frame}
    (h : l ++ f.obs crc m = l' ++ g.obs crc m') : f.obs crc m = g.obs crc m' := by
  have htail {c : List Obs} {f g : Frame} {m m' : Moment} (h : f.obs crc m = c ++ g.obs crc m') : c = [] := by
    cases c with
    | nil => rfl
    | cons o c =>
        have hmem : Obs.frame g.address g.ctrl m' ∈ (f.obs crc m).tail := by
          rw [h]
          exact List.mem_append_right c List.mem_cons_self
        exact (plain_of_mem_sends hmem).elim
  rcases List.append_eq_append_iff.mp h with ⟨c, -, hc⟩ | ⟨c, -, hc⟩
  · have hnil := htail hc
    rwa [hnil, List.nil_append] at hc
  · have hnil := htail hc
    rw [hnil, List.nil_append] at hc
    exact hc.symm

theorem obs_moment {crc : CrcOps} {m m' : Moment} {f g : Frame} (h : f.obs crc m = g.obs crc m') (n : Moment) :
    f.obs crc n = g.obs crc n := by
  obtain ⟨hhead, htail⟩ := List.cons.inj h
  obtain ⟨haddress, hctrl, -⟩ := Obs.frame.inj hhead
  exact congrArg₂ List.cons (by rw [haddress, hctrl]) htail

/-- What the lock-down repeats after `rejectNr` is the frame that `rejectNr` has sent. -/
theorem rejectNr_lockView (hp : st.platform.Passive) {s : Ctx} (hstate : s.currentState = .connected)
    (ctrl : UInt8) :
    (rejectNr st s ctrl).currentState = .frmrError ∧
      (lockView (rejectNr st s ctrl)).frmr = frmrFrame s ctrl frmrZ ∧
      onLine (rejectNr st s ctrl).trace = onLine s.trace ++ (frmrFrame s ctrl frmrZ).obs st.crc s.moment := by
  have hview := linkView_rejectNr hp hstate ctrl
  obtain ⟨hctrl, hflags, -⟩ := rejectNr_frmr hp hstate ctrl
  have hvs := (rejectNr_quiet hp s ctrl).vs
  have hvr : (rejectNr st s ctrl).vr = s.vr := congrArg LinkView.vr hview
  have hmy : (rejectNr st s ctrl).myAddress = s.myAddress := congrArg LinkView.myAddress hview
  refine ⟨congrArg LinkView.currentState hview, ?_, congrArg LinkView.line hview⟩
  simp only [LockView.frmr, lockView, frmrFrame, frmrInfo, hctrl, hflags, hvs, hvr, hmy]

/-- The FRMR that a frame has drawn locks the station down, for the rest of the chunk and along every run
none of whose steps ends the lock-down, exactly when the frame is no unnumbered one. -/
theorem frmr_locks_iff (hp : st.platform.Passive) {mem : Memory} {s : Ctx} (hmid : Midway st mem s)
    {f : Received} (hf : completed s flag = some f) {pre : List Obs} {frmr : Frame} {m : Moment}
    (hsent : onLine (rxByte st s flag).trace = onLine s.trace ++ pre ++ frmr.obs st.crc m)
    (hfrmr : frmr.ctrl = uCtrl uFrmr false) :
    (∀ rest, (∀ x ∈ chunkFrames st (rxByte st s flag) rest, ¬IsSabm x.2) →
      let t := rxBytes st (rxByte st s flag) rest
      LockedDown st (payloads (rxByte st s flag).trace) frmr t ∧
        ∀ calls, (∀ call ∈ calls, call.Legal) →
          Along st (fun s call => ¬Releases st s call) (retransmitIfPending st t) calls →
          LockedDown st (payloads (rxByte st s flag).trace) frmr
            (calls.foldl (Call.run st) (retransmitIfPending st t))) ↔
      isUframe f.ctrl = false := by
  have hrx : rxByte st s flag = rxRestart (f.dispatch st s) .addr := by rw [rxByte_completed, hf]
  have hview : linkView (rxByte st s flag) = (linkView s).next st s f := by
    rw [hrx]
    exact dispatchFrame_linkView hp s f
  have hcause : s.currentState = .connected ∧
      (isUframe f.ctrl = false ∧ nrValid s (ctrlNr f.ctrl) = false ∨
        isUframe f.ctrl = true ∧ (uCmd f.ctrl = .ua ∨ uCmd f.ctrl = .unknown)) := by
    by_contra hnot
    obtain ⟨l, hl, hmild⟩ := @LinkView.mild_next st s f (by
      intro hup
      refine ⟨fun hu => ?_, fun hu => ?_⟩
      · by_contra hvalid
        exact hnot ⟨hup, Or.inl ⟨hu, by simpa using hvalid⟩⟩
      · by_contra hcmd
        exact hnot ⟨hup, Or.inr ⟨hu, by tauto⟩⟩)
    have hheads : heads (linkView (rxByte st s flag)).line =
        heads (linkView s).line ++ (heads pre ++ [(frmr.address, frmr.ctrl)]) := by
      rw [show (linkView (rxByte st s flag)).line = onLine (rxByte st s flag).trace from rfl, hsent,
        heads_append, heads_append, heads_obs, List.append_assoc]
      rfl
    rw [hview, hl] at hheads
    have hl' := List.append_cancel_left hheads
    refine hmild (frmr.address, frmr.ctrl) ?_ hfrmr
    rw [hl']
    exact List.mem_append_right _ (List.mem_singleton.mpr rfl)
  obtain ⟨hup, hcause⟩ := hcause
  constructor
  · intro hlocked
    rcases hcause with ⟨hu, -⟩ | ⟨hu, hcmd⟩
    · exact hu
    · have hstate := (hlocked [] (by simp [chunkFrames])).1.currentState
      have hafter : (rxByte st s flag).currentState = linkAfter s f.ctrl := by
        rw [hrx]
        exact dispatchFrame_currentState hp s f
      have hstays : linkAfter s f.ctrl = .connected := by
        rcases hcmd with hcmd | hcmd <;> simp [linkAfter, hup, hu, hcmd]
      exact absurd ((hafter.trans hstays).symm.trans hstate) (by decide)
  · intro hu rest hrest t
    have hinvalid := (hcause.resolve_right (fun h => by rw [hu] at h; exact Bool.false_ne_true h.1)).2
    obtain ⟨u, hdispatch, -, hconnected, -⟩ := dispatch_invalid hp hup hu hinvalid
    obtain ⟨hstate, hframe, hline⟩ := rejectNr_lockView hp hconnected f.ctrl
    rw [← hdispatch] at hstate hframe hline
    have hends : onLine (rxByte st s flag).trace =
        onLine u.trace ++ (frmrFrame u f.ctrl frmrZ).obs st.crc u.moment := by
      rw [hrx]
      exact hline
    have hsame := obs_of_suffix (hsent.symm.trans hends)
    have hlock (v : Ctx) (hv : lockView v = lockView (rxByte st s flag)) :
        LockedDown st (payloads (rxByte st s flag).trace) frmr v := by
      have hview' : lockView v = lockView (f.dispatch st s) := hv.trans (by rw [hrx]; rfl)
      have hlocked : v.currentState = .frmrError := (congrArg LockView.currentState hview').trans hstate
      have hdown := @lockedDown_of_view st v hlocked
      refine ⟨hlocked, congrArg LockView.delivered hv, hdown.refuses, fun hkept => ?_⟩
      obtain ⟨n, hn⟩ := hdown.repeats hkept
      refine ⟨n, ?_⟩
      rw [hn, hview', hframe, obs_moment hsame n]
    have hinv : ∀ w, st.txWindow = some w → WindowInv w t := by
      intro w hw
      obtain ⟨b, bytes, hb, rfl⟩ := hmid
      exact (((hb.windowInv hw hp).rxBytes hp bytes).rxBytes hp [flag]).rxBytes hp rest
    have hchunk : lockView t = lockView (rxByte st s flag) :=
      rxBytes_locked (by rw [hrx]; exact hstate) hrest
    refine ⟨hlock t hchunk, fun calls hlegal hkept => hlock _ ?_⟩
    have hend : lockView (retransmitIfPending st t) = lockView t :=
      lockView_of_vis (retransmitIfPending_vis hinv)
    have hlocked : (retransmitIfPending st t).currentState = .frmrError := by
      refine (congrArg LockView.currentState (hend.trans hchunk)).trans ?_
      rw [hrx]
      exact hstate
    refine (foldl_locked hp hlocked (fun w hw => ?_) hlegal hkept).trans (hend.trans hchunk)
    obtain ⟨b, bytes, hb, rfl⟩ := hmid
    have hcall := (hb.windowInv hw hp).dataIn hw hp (bytes ++ flag :: rest)
    have happend : rxBytes st b (bytes ++ flag :: rest) = t := List.foldl_append
    rw [dataIn, happend] at hcall
    exact hcall

/-- The FRMR that an RR with the N(R) 3 draws from a fresh session. -/
def mockFrmr : Frame := ⟨0x01, uCtrl uFrmr false, [sCtrl sRr 3 false, 0x00, frmrZ]⟩

/-- T1 expires and an I-frame arrives. -/
def lockedCalls : List Call :=
  [.t1Expired, .dataIn (Frame.octets crcOpsDefault ⟨0x01, iCtrl 0 0 false, [0x55]⟩)]

theorem frmr_locks_iff_mock :
    let st := mockStation 0x01 3 (by decide) (by decide)
    let s := mockHearing ⟨0x01, sCtrl sRr 3 false, []⟩
    LockedDown st [] mockFrmr
      (lockedCalls.foldl (Call.run st) (retransmitIfPending st (rxBytes st (rxByte st s flag) []))) := by
  intro st s
  obtain ⟨f, hf, hu⟩ : ∃ f ∈ completed s flag, isUframe f.ctrl = false := by decide +kernel
  have hsent : onLine (rxByte st s flag).trace =
      onLine s.trace ++ [] ++ mockFrmr.obs crcOpsDefault ⟨.connected, false, false⟩ := by decide +kernel
  have hlocked := (frmr_locks_iff mockPlatform_passive (mockHearing_reachable _).midway hf hsent rfl).mpr hu []
    (by simp [chunkFrames])
  have hnone : payloads (rxByte st s flag).trace = [] := by decide +kernel
  have hkept : Along st (fun s call => ¬Releases st s call)
      (retransmitIfPending st (rxBytes st (rxByte st s flag) [])) lockedCalls := by decide +kernel
  rw [hnone] at hlocked
  exact hlocked.2 lockedCalls (by simp [lockedCalls, Call.Legal]) hkept

/-- The FRMR that a second UA draws leaves the station connected: it takes payloads as before. -/
theorem frmr_without_lock :
    let st := mockStation 0x01 3 (by decide) (by decide)
    let s := mockHearing ⟨0x02, uCtrl uUa true, []⟩
    let frmr : Frame := ⟨0x01, uCtrl uFrmr false, [uCtrl uUa true, 0x00, frmrW]⟩
    Reachable st zeroMemory s ∧ (completed s flag).isSome = true ∧
      onLine (dataIn st s [flag]).trace =
        onLine s.trace ++ frmr.obs crcOpsDefault ⟨.connected, false, false⟩ ∧
      (dataIn st s [flag]).currentState = .connected ∧
      (transmitI st (dataIn st s [flag]) (.octets [0x11])).1 = .ok ∧
      ∀ delivered, ¬LockedDown st delivered frmr (dataIn st s [flag]) := by
  intro st s frmr
  have hfacts : (completed s flag).isSome = true ∧
      onLine (dataIn st s [flag]).trace =
        onLine s.trace ++ frmr.obs crcOpsDefault ⟨.connected, false, false⟩ ∧
      (dataIn st s [flag]).currentState = .connected ∧
      (transmitI st (dataIn st s [flag]) (.octets [0x11])).1 = .ok := by decide +kernel
  obtain ⟨hsome, hline, hstate, hok⟩ := hfacts
  refine ⟨mockHearing_reachable _, hsome, hline, hstate, hok, fun delivered h => ?_⟩
  exact absurd (hstate.symm.trans h.currentState) (by decide)

end Reject

end AtcHdlc
