import AtcHdlc.Timers

/-! What may be on the line, and when: three rules about the moment at which a frame is begun. A station
tells its own busy condition (`Truthful`), it sends no I-frame to a busy peer (`Considerate`), and it sends
numbered frames in CONNECTED only (`InPlace`). The calls of the application keep all three; what breaks
them is found in the received chunks and in the expiry of T2, and it is said exactly. -/

namespace AtcHdlc

/-- The control octets of the frames of a trace, each with the moment at which the frame is begun. -/
def marks (trace : List Obs) : List (UInt8 × Moment) :=
  trace.filterMap fun
    | .frame _ ctrl m => some (ctrl, m)
    | _ => none

/-- Every frame is begun at a moment at which a rule lets it. -/
def Upholds (K : UInt8 → Moment → Prop) (trace : List Obs) : Prop := ∀ x ∈ marks trace, K x.1 x.2

section Upholds

variable {K : UInt8 → Moment → Prop}

@[simp] theorem upholds_nil : Upholds K [] := by simp [Upholds, marks]

theorem upholds_append (l r : List Obs) : Upholds K (l ++ r) ↔ Upholds K l ∧ Upholds K r := by
  have hmarks : marks (l ++ r) = marks l ++ marks r := List.filterMap_append
  rw [Upholds, hmarks, List.forall_mem_append]
  rfl

theorem upholds_obs (crc : CrcOps) (m : Moment) (f : Frame) : Upholds K (f.obs crc m) ↔ K f.ctrl m := by
  have htail : marks (f.obs crc m).tail = [] := by
    refine List.filterMap_eq_nil_iff.mpr fun o ho => ?_
    have hplain := plain_of_mem_sends ho
    cases o with
    | frame => exact hplain.elim
    | _ => rfl
  have hmarks : marks (f.obs crc m) = (f.ctrl, m) :: marks (f.obs crc m).tail := rfl
  rw [Upholds, hmarks, htail, List.forall_mem_singleton]

theorem upholds_onLine (trace : List Obs) : Upholds K (onLine trace) ↔ Upholds K trace := by
  have hmarks : marks (onLine trace) = marks trace := by
    induction trace with
    | nil => rfl
    | cons o trace ih => cases o <;> simpa [marks, onLine] using ih
  rw [Upholds, hmarks]
  rfl

/-- What the rule says is told from the view. -/
theorem upholds_linkView (s : Ctx) : Upholds K s.trace ↔ Upholds K (linkView s).line :=
  (upholds_onLine s.trace).symm

end Upholds

theorem uCtrl_isUframe {cmd : UInt8} (h : isUframe cmd = true) (pf : Bool) :
    isUframe (uCtrl cmd pf) = true := by
  rw [isUframe_iff] at h ⊢
  cases pf with
  | false => simpa [uCtrl] using h
  | true =>
      have hor : (cmd.toNat ||| 16) % 2 ^ 2 = cmd.toNat % 2 ^ 2 ||| 16 % 2 ^ 2 := Nat.or_mod_two_pow
      have hmod : (cmd.toNat ||| 16) % 4 = cmd.toNat % 4 := by simpa using hor
      have hbits : (uCtrl cmd true).toNat = cmd.toNat ||| 16 := by simp [uCtrl, pfBit]
      rw [hbits, hmod, h]

/-- A station that is busy says so in every supervisory frame of its session. -/
def Truthful (ctrl : UInt8) (m : Moment) : Prop :=
  m.currentState = .connected → m.localBusy = true → isSframe ctrl = true → ctrlS ctrl = sRnr

/-- No I-frame to a busy peer. -/
def Considerate (ctrl : UInt8) (m : Moment) : Prop := isIframe ctrl = true → m.remoteBusy = false

/-- No numbered frame outside of CONNECTED. -/
def InPlace (ctrl : UInt8) (m : Moment) : Prop :=
  isIframe ctrl = true ∨ isSframe ctrl = true → m.currentState = .connected

/-- What the three rules have in common: the frames that they allow anyhow. -/
structure Rule (K : UInt8 → Moment → Prop) : Prop where
  unnumbered : ∀ ctrl m, isUframe ctrl = true → K ctrl m
  supervisory : ∀ nr pf m, m.currentState = .connected →
    K (sCtrl (if m.localBusy then sRnr else sRr) nr pf) m
  numbered : ∀ ns nr m, m.currentState = .connected → m.remoteBusy = false → K (iCtrl ns nr false) m

theorem iCtrl_kind (ns nr : Nat) (pf : Bool) :
    isIframe (iCtrl ns nr pf) = true ∧ isSframe (iCtrl ns nr pf) = false := by
  have hi := (iCtrl_fields ns nr pf).1
  rcases ctrl_cases (iCtrl ns nr pf) with ⟨-, hs, -⟩ | ⟨hi', -, -⟩ | ⟨hi', -, -⟩
  · exact ⟨hi, hs⟩
  · exact absurd (hi.symm.trans hi') (by decide)
  · exact absurd (hi.symm.trans hi') (by decide)

theorem sCtrl_kind (kind nr : Nat) (pf : Bool) :
    isSframe (sCtrl kind nr pf) = true ∧ isIframe (sCtrl kind nr pf) = false := by
  have hs := (sCtrl_fields kind nr pf).1
  rcases ctrl_cases (sCtrl kind nr pf) with ⟨-, hs', -⟩ | ⟨hi, -, -⟩ | ⟨-, hs', -⟩
  · exact absurd (hs.symm.trans hs') (by decide)
  · exact ⟨hs, hi⟩
  · exact absurd (hs.symm.trans hs') (by decide)

theorem uCtrl_kind {ctrl : UInt8} (h : isUframe ctrl = true) :
    isIframe ctrl = false ∧ isSframe ctrl = false := by
  rcases ctrl_cases ctrl with ⟨-, -, hu⟩ | ⟨-, -, hu⟩ | ⟨hi, hs, -⟩
  · exact absurd (h.symm.trans hu) (by decide)
  · exact absurd (h.symm.trans hu) (by decide)
  · exact ⟨hi, hs⟩

theorem truthful_rule : Rule Truthful where
  unnumbered ctrl m hu _ _ hs := absurd (hs.symm.trans (uCtrl_kind hu).2) (by decide)
  supervisory nr pf m _ _ hbusy _ := by rw [hbusy, if_pos rfl, (sCtrl_fields sRnr nr pf).2.1]; rfl
  numbered ns nr m _ _ _ _ hs := absurd (hs.symm.trans (iCtrl_kind ns nr false).2) (by decide)

theorem considerate_rule : Rule Considerate where
  unnumbered ctrl m hu hi := absurd (hi.symm.trans (uCtrl_kind hu).1) (by decide)
  supervisory nr pf m _ hi := absurd (hi.symm.trans (sCtrl_kind _ nr pf).2) (by decide)
  numbered ns nr m _ hready _ := hready

theorem inPlace_rule : Rule InPlace where
  unnumbered ctrl m hu h := by simp [uCtrl_kind hu] at h
  supervisory nr pf m hstate _ := hstate
  numbered ns nr m hstate _ _ := hstate

/-! ### The answers to a frame -/

/-- Whether the peer is busy after a frame. -/
def busyAfter (s : Ctx) (ctrl : UInt8) : Bool :=
  if resets s ctrl then false
  else if s.currentState = .connected ∧ isSframe ctrl = true then
    if ctrlS ctrl = sRnr then true
    else if ctrlS ctrl = sRr ∨ ctrlS ctrl = sRej then false
    else s.remoteBusy
  else s.remoteBusy

/-- The supervisory frame with which a frame in CONNECTED is answered whatever the own busy condition: the
RR for a poll, and the REJ or the RR for an I-frame out of sequence. -/
def bluntAnswer (s : Ctx) (f : Received) : Option (Nat × Bool) :=
  if s.currentState = .connected then
    if isSframe f.ctrl then
      if isCmd s f.address && ctrlPf f.ctrl then some (sRr, true) else none
    else if isIframe f.ctrl ∧ nrValid s (ctrlNr f.ctrl) ∧ ctrlNs f.ctrl ≠ s.vr then
      if s.rejException then
        if ctrlPf f.ctrl then some (sRr, true) else none
      else some (sRej, ctrlPf f.ctrl)
    else none
  else none

section Next

variable {st : Station} {K : UInt8 → Moment → Prop}

namespace LinkView

def moment (v : LinkView) : Moment := ⟨v.currentState, v.remoteBusy, v.localBusy⟩

theorem upholds_say (v : LinkView) (crc : CrcOps) (f : Frame) :
    Upholds K (v.say crc f).line ↔ Upholds K v.line ∧ K f.ctrl v.moment := by
  rw [← upholds_obs (K := K) crc v.moment f, ← upholds_append]
  rfl

/-- An unnumbered frame is always allowed. -/
theorem upholds_say_unnumbered (hK : Rule K) (v : LinkView) (crc : CrcOps) (f : Frame)
    (hu : isUframe f.ctrl = true) : Upholds K (v.say crc f).line ↔ Upholds K v.line := by
  rw [upholds_say]
  exact and_iff_left (hK.unnumbered _ _ hu)

theorem upholds_sayUa (hK : Rule K) (v : LinkView) (pf : Bool) :
    Upholds K (v.sayUa st pf).line ↔ Upholds K v.line :=
  upholds_say_unnumbered hK v st.crc _ (uCtrl_isUframe (by decide) pf)

theorem upholds_sayDm (hK : Rule K) (v : LinkView) (pf : Bool) :
    Upholds K (v.sayDm st pf).line ↔ Upholds K v.line :=
  upholds_say_unnumbered hK v st.crc _ (uCtrl_isUframe (by decide) pf)

theorem upholds_accept (hK : Rule K) (v : LinkView) (pf : Bool) :
    Upholds K (v.accept st pf).line ↔ Upholds K v.line :=
  upholds_say_unnumbered hK v.fresh st.crc _ (uCtrl_isUframe (by decide) pf)

theorem upholds_reject (hK : Rule K) (v : LinkView) (s : Ctx) (ctrl flags : UInt8) :
    Upholds K (v.reject st (frmrFrame s ctrl flags)).line ↔ Upholds K v.line :=
  upholds_say_unnumbered hK v.stopT2 st.crc _ (uCtrl_isUframe (by decide) false)

theorem upholds_acknowledge (hK : Rule K) (v : LinkView) (hstate : v.currentState = .connected)
    (pf : Bool) : Upholds K (v.acknowledge st pf).line ↔ Upholds K v.line := by
  have hsay (kind : Nat) (hkind : kind = if v.localBusy then sRnr else sRr) (pf : Bool) :
      Upholds K (v.sayS st v.myAddress kind pf).line ↔ Upholds K v.line := by
    rw [sayS, upholds_say, hkind]
    exact and_iff_left (hK.supervisory v.vr pf v.moment hstate)
  unfold acknowledge
  split_ifs with hpf hbusy ht2 hbusy
  · exact hsay sRnr (by rw [hbusy, if_pos rfl]) true
  · exact hsay sRr (by rw [if_neg hbusy]) true
  · rfl
  · exact hsay sRnr (by rw [hbusy, if_pos rfl]) false
  · rfl

theorem upholds_unnumbered (hK : Rule K) (v : LinkView) (s : Ctx) (f : Received) :
    Upholds K (v.unnumbered st s f).line ↔ Upholds K v.line := by
  unfold unnumbered
  cases uCmd f.ctrl with
  | sabm => exact upholds_accept hK v _
  | disc => exact upholds_sayUa hK v.fresh _
  | dm | frmr | ui => rfl
  | test =>
      simp only
      split_ifs
      · exact upholds_say_unnumbered hK v st.crc _ (uCtrl_isUframe (by decide) _)
      · cases f.info <;> rfl
  | snrm | sabme | snrme | sarme => exact upholds_sayDm hK v _
  | ua | unknown => exact upholds_say_unnumbered hK v.stopT2 st.crc _ (uCtrl_isUframe (by decide) false)

theorem remoteBusy_busy (v : LinkView) (kind : Nat) :
    (v.busy st kind).remoteBusy =
      if kind = sRnr then true
      else if kind = sRr ∨ kind = sRej then false
      else v.remoteBusy := by
  unfold busy
  by_cases hrr : kind = sRr
  · subst hrr
    rfl
  · by_cases hrnr : kind = sRnr
    · rw [if_neg hrr, if_pos hrnr, if_pos hrnr]
      rfl
    · by_cases hrej : kind = sRej
      · rw [if_neg hrr, if_neg hrnr, if_pos hrej, if_neg hrnr, if_pos (Or.inr hrej)]
      · rw [if_neg hrr, if_neg hrnr, if_neg hrej, if_neg hrnr, if_neg (not_or.mpr ⟨hrr, hrej⟩)]

theorem localBusy_busy (v : LinkView) (kind : Nat) : (v.busy st kind).localBusy = v.localBusy := by
  unfold busy
  split_ifs <;> rfl

theorem line_busy (v : LinkView) (kind : Nat) : (v.busy st kind).line = v.line := by
  unfold busy
  split_ifs <;> rfl

theorem vr_busy (v : LinkView) (kind : Nat) : (v.busy st kind).vr = v.vr := by
  unfold busy
  split_ifs <;> rfl

theorem upholds_poll (v : LinkView) (polled : Bool) :
    Upholds K (v.poll st polled).line ↔
      Upholds K v.line ∧ (polled = true → K (sCtrl sRr v.vr true) v.moment) := by
  cases polled with
  | false => simp [poll]
  | true =>
      have hsay : Upholds K (v.poll st true).line ↔ Upholds K (v.sayS st v.myAddress sRr true).line :=
        Iff.rfl
      rw [hsay, sayS, upholds_say]
      simp

theorem upholds_refuse (v : LinkView) (pf : Bool) :
    Upholds K (v.refuse st pf).line ↔
      Upholds K v.line ∧
        ∀ a ∈ (if v.rejException then if pf then some (sRr, true) else none else some (sRej, pf) :
          Option (Nat × Bool)), K (sCtrl a.1 v.vr a.2) v.moment := by
  unfold refuse
  by_cases hexception : v.rejException = true
  · rw [if_pos hexception, if_pos hexception]
    cases pf with
    | false => simp
    | true =>
        rw [if_pos rfl, if_pos rfl, sayS, upholds_say]
        simp
  · rw [if_neg hexception, if_neg hexception]
    have hsay : Upholds K ({ v with rejException := true }.sayS st v.peerAddress sRej pf).stopT2.line ↔
        Upholds K ({ v with rejException := true }.sayS st v.peerAddress sRej pf).line := Iff.rfl
    rw [hsay, sayS, upholds_say]
    simp [moment]

/-- A frame is answered as the rule wants it but for the blunt answers. -/
theorem upholds_next (hK : Rule K) (s : Ctx) (f : Received) :
    Upholds K ((linkView s).next st s f).line ↔
      Upholds K (linkView s).line ∧
        ∀ a ∈ bluntAnswer s f, K (sCtrl a.1 s.vr a.2) ⟨.connected, busyAfter s f.ctrl, s.localBusy⟩ := by
  by_cases hstate : s.currentState = .connected
  · rcases ctrl_cases f.ctrl with ⟨hi, hs, hu⟩ | ⟨hi, hs, hu⟩ | ⟨hi, hs, hu⟩
    · simp only [next, hstate, hi, hu, Bool.false_eq_true, if_false, if_true]
      by_cases hvalid : nrValid s (ctrlNr f.ctrl) = true
      · rw [if_neg (not_not.mpr hvalid)]
        by_cases hseq : ctrlNs f.ctrl = s.vr
        · have hblunt : bluntAnswer s f = none := by simp [bluntAnswer, hs, hseq]
          rw [if_pos hseq, receive, upholds_acknowledge hK _ hstate, hblunt]
          simp [tell]
        · have hblunt : bluntAnswer s f = if s.rejException then
              if ctrlPf f.ctrl then some (sRr, true) else none else some (sRej, ctrlPf f.ctrl) := by
            simp only [bluntAnswer, hstate, hs, hi, hvalid, Bool.false_eq_true, if_true, if_false]
            exact if_pos ⟨trivial, trivial, hseq⟩
          have hafter : busyAfter s f.ctrl = s.remoteBusy := by simp [busyAfter, resets, hu, hs]
          have hmoment : (((linkView s).tell (opened st s (ctrlNr f.ctrl)))).moment =
              ⟨.connected, s.remoteBusy, s.localBusy⟩ := by
            rw [← hstate]
            rfl
          rw [if_neg hseq, upholds_refuse, hmoment, hblunt, hafter]
          exact Iff.rfl
      · have hblunt : bluntAnswer s f = none := by simp [bluntAnswer, hs, hvalid]
        rw [if_pos hvalid, upholds_reject hK, hblunt]
        simp
    · simp only [next, hstate, hi, hu, Bool.false_eq_true, if_false]
      have hafter : busyAfter s f.ctrl = ((linkView s).busy st (ctrlS f.ctrl)).remoteBusy := by
        rw [remoteBusy_busy, busyAfter]
        simp [resets, hu, hstate, hs, linkView]
      have hpoll : Upholds K (((linkView s).busy st (ctrlS f.ctrl)).poll st
          (isCmd s f.address && ctrlPf f.ctrl)).line ↔ Upholds K (linkView s).line ∧
          ∀ a ∈ bluntAnswer s f, K (sCtrl a.1 s.vr a.2) ⟨.connected, busyAfter s f.ctrl, s.localBusy⟩ := by
        have hblunt : bluntAnswer s f =
            if isCmd s f.address && ctrlPf f.ctrl then some (sRr, true) else none := by
          simp only [bluntAnswer, hstate, hs, if_true]
        have hmoment : ((linkView s).busy st (ctrlS f.ctrl)).moment =
            ⟨.connected, busyAfter s f.ctrl, s.localBusy⟩ := by
          rw [moment, currentState_busy, ← hafter, localBusy_busy, ← hstate]
          rfl
        rw [upholds_poll, line_busy, vr_busy, hmoment, hblunt]
        cases isCmd s f.address && ctrlPf f.ctrl with
        | false => simp
        | true => simp [linkView]
      rw [← hpoll]
      by_cases hvalid : nrValid s (ctrlNr f.ctrl) = true
      · rw [if_neg (not_not.mpr hvalid)]
        exact Iff.rfl
      · rw [if_pos hvalid]
        exact upholds_reject hK _ _ _ _
    · have hblunt : bluntAnswer s f = none := by simp [bluntAnswer, hi, hs]
      simp only [next, hstate, hu, if_true, hblunt]
      rw [upholds_unnumbered hK]
      simp
  · have hblunt : bluntAnswer s f = none := by simp [bluntAnswer, hstate]
    simp only [hblunt, Option.not_mem_none, false_implies, implies_true, and_true]
    unfold next
    cases hlink : s.currentState with
    | connected => exact absurd hlink hstate
    | disconnected =>
        cases isUframe f.ctrl with
        | false => exact Iff.rfl
        | true =>
            cases uCmd f.ctrl with
            | sabm => exact upholds_accept hK _ _
            | disc => exact upholds_sayUa hK _ _
            | snrm | sabme | snrme | sarme => exact upholds_sayDm hK _ _
            | ui | ua | dm | frmr | test | unknown => exact Iff.rfl
    | connecting =>
        cases isUframe f.ctrl with
        | false => exact Iff.rfl
        | true =>
            cases uCmd f.ctrl with
            | sabm => exact upholds_sayUa hK _ _
            | disc => exact upholds_sayDm hK _ _
            | ua | dm => cases ctrlPf f.ctrl <;> exact Iff.rfl
            | ui | frmr | test | snrm | sabme | snrme | sarme | unknown => exact Iff.rfl
    | disconnecting =>
        cases isUframe f.ctrl with
        | false =>
            cases ctrlPf f.ctrl with
            | false => exact Iff.rfl
            | true => exact upholds_sayDm hK _ _
        | true =>
            cases uCmd f.ctrl with
            | sabm | sabme => exact upholds_sayDm hK _ _
            | disc => exact upholds_sayUa hK _ _
            | ua | dm => cases ctrlPf f.ctrl <;> exact Iff.rfl
            | ui | frmr | test | snrm | snrme | sarme | unknown => exact Iff.rfl
    | frmrError =>
        simp only
        split_ifs
        · exact upholds_accept hK _ _
        · rfl

theorem remoteBusy_next (s : Ctx) (f : Received) :
    ((linkView s).next st s f).remoteBusy = busyAfter s f.ctrl := by
  have hacknowledge (v : LinkView) (pf : Bool) : (v.acknowledge st pf).remoteBusy = v.remoteBusy := by
    unfold acknowledge
    split_ifs <;> rfl
  have hrefuse (v : LinkView) (pf : Bool) : (v.refuse st pf).remoteBusy = v.remoteBusy := by
    unfold refuse
    split_ifs <;> rfl
  have hpoll (v : LinkView) (polled : Bool) : (v.poll st polled).remoteBusy = v.remoteBusy := by
    unfold poll
    split_ifs <;> rfl
  have hsame : (linkView s).remoteBusy = s.remoteBusy := rfl
  unfold next busyAfter resets
  cases s.currentState with
  | disconnected | frmrError => cases isUframe f.ctrl <;> cases uCmd f.ctrl <;> rfl
  | connecting | disconnecting =>
      cases isUframe f.ctrl <;> cases uCmd f.ctrl <;> cases ctrlPf f.ctrl <;> rfl
  | connected =>
      rcases ctrl_cases f.ctrl with ⟨hi, hs, hu⟩ | ⟨hi, hs, hu⟩ | ⟨hi, hs, hu⟩
      · simp only [hi, hs, hu, Bool.false_and, Bool.false_eq_true, and_false, if_false, if_true]
        by_cases hvalid : nrValid s (ctrlNr f.ctrl) = true
        · rw [if_neg (not_not.mpr hvalid)]
          by_cases hseq : ctrlNs f.ctrl = s.vr
          · rw [if_pos hseq]
            exact hacknowledge _ _
          · rw [if_neg hseq]
            exact hrefuse _ _
        · rw [if_pos hvalid]
          rfl
      · have hbusy := @remoteBusy_busy st (linkView s) (ctrlS f.ctrl)
        simp only [hi, hs, hu, Bool.false_and, Bool.false_eq_true, and_self, if_false, if_true]
        have hpolled := (hpoll ((linkView s).busy st (ctrlS f.ctrl))
          (isCmd s f.address && ctrlPf f.ctrl)).trans hbusy
        rw [← hsame, ← hpolled]
        by_cases hvalid : nrValid s (ctrlNr f.ctrl) = true
        · rw [if_neg (not_not.mpr hvalid)]
          rfl
        · rw [if_pos hvalid]
          rfl
      · simp only [hs, hu, Bool.true_and, Bool.false_eq_true, and_false, if_false, if_true, unnumbered]
        cases uCmd f.ctrl with
        | test =>
            cases isCmd s f.address with
            | true => rfl
            | false => cases f.info <;> rfl
        | _ => rfl

end LinkView

end Next

/-- What the frames of a chunk have armed so far: the number, and whether the session that it belongs to
has been reset since. -/
def armedNext (a : Option (Nat × Bool)) (x : Ctx × Received) : Option (Nat × Bool) :=
  if armsFrame x then some (ctrlNr x.2.ctrl, false)
  else if resets x.1 x.2.ctrl then a.map fun p => (p.1, true)
  else a

/-- A chunk ends with a retransmission of at least one I-frame: what a frame has armed is not the V(S) that
a later reset has left, which is 0. -/
def resends (frames : List (Ctx × Received)) : Bool :=
  match frames.foldl armedNext none with
  | some (nr, old) => !old || nr != 0
  | none => false

/-- The view has armed what the frames have. -/
structure Armed (v : AckView) (a : Option (Nat × Bool)) : Prop where
  pending : v.retransmitPending = a.isSome
  number : ∀ p ∈ a, v.retransmitFrom = p.1
  fresh : ∀ p ∈ a, p.2 = false → v.vs ≠ p.1
  old : ∀ p ∈ a, p.2 = true → v.vs = 0

theorem Armed.next {x : Ctx × Received} {a : Option (Nat × Bool)} (h : Armed (ackView x.1) a) :
    Armed ((ackView x.1).next x) (armedNext a x) := by
  cases harms : armsFrame x with
  | true =>
      have hparts : arms x.1 x.2.address x.2.ctrl = true := harms
      have hresets : resets x.1 x.2.ctrl = false := by
        simp only [arms, Bool.and_eq_true, decide_eq_true_eq] at hparts
        rcases ctrl_cases x.2.ctrl with ⟨-, hs, -⟩ | ⟨-, -, hu⟩ | ⟨-, hs, -⟩
        · exact absurd (hs.symm.trans hparts.1.1.1.2) (by decide)
        · simp [resets, hu]
        · exact absurd (hs.symm.trans hparts.1.1.1.2) (by decide)
      have hne : ctrlNr x.2.ctrl ≠ x.1.vs := by
        simp only [arms, Bool.and_eq_true, decide_eq_true_eq] at hparts
        exact hparts.1.2
      have hnext : armedNext a x = some (ctrlNr x.2.ctrl, false) := if_pos harms
      rw [hnext]
      constructor
      · simp [AckView.next, hresets, hparts]
      · rintro p ⟨⟩
        simp [AckView.next, hresets, hparts]
      · rintro p ⟨⟩ -
        simpa [AckView.next, hresets, ackView] using hne.symm
      · rintro p ⟨⟩ hold
        simp at hold
  | false =>
      have hparts : arms x.1 x.2.address x.2.ctrl = false := harms
      cases hresets : resets x.1 x.2.ctrl with
      | true =>
          have hnext : armedNext a x = a.map fun p => (p.1, true) := by simp [armedNext, harms, hresets]
          rw [hnext]
          constructor
          · simpa [AckView.next, hresets] using h.pending
          · intro p hp
            obtain ⟨q, hq, rfl⟩ := Option.mem_map.mp hp
            simpa [AckView.next, hresets] using h.number q hq
          · intro p hp hfresh
            obtain ⟨q, hq, rfl⟩ := Option.mem_map.mp hp
            exact absurd hfresh (by simp)
          · intro p hp hold
            simp [AckView.next, hresets]
      | false =>
          have hnext : armedNext a x = a := by simp [armedNext, harms, hresets]
          rw [hnext]
          constructor
          · simpa [AckView.next, hresets, hparts] using h.pending
          · simpa [AckView.next, hresets, hparts] using h.number
          · simpa [AckView.next, hresets] using h.fresh
          · simpa [AckView.next, hresets] using h.old

theorem Armed.fold {v : AckView} {frames : List (Ctx × Received)} (hchain : Chained v frames)
    {a : Option (Nat × Bool)} (h : Armed v a) :
    Armed (frames.foldl AckView.next v) (frames.foldl armedNext a) := by
  induction hchain generalizing a with
  | nil v => exact h
  | @cons v x frames hview _ ih =>
      rw [← hview] at h ih ⊢
      exact ih h.next

/-- A chunk ends with I-frames just when its frames say so. -/
theorem resends_iff {st : Station} (hp : st.platform.Passive) {s : Ctx} (hw : Windowed st s)
    (hpending : s.retransmitPending = false) (bytes : List UInt8) :
    ((rxBytes st s bytes).retransmitPending = true ∧
        (rxBytes st s bytes).retransmitFrom ≠ (rxBytes st s bytes).vs) ↔
      resends (chunkFrames st s bytes) = true := by
  have hnone : Armed (ackView s) none :=
    ⟨hpending, fun _ h => absurd h (by simp), fun _ h => absurd h (by simp), fun _ h => absurd h (by simp)⟩
  have hend := Armed.fold (chunkFrames_chained hp hw bytes) hnone
  rw [← ackView_rxBytes hp hw bytes] at hend
  have hpend : (rxBytes st s bytes).retransmitPending = _ := hend.pending
  unfold resends
  cases harmed : (chunkFrames st s bytes).foldl armedNext none with
  | none =>
      rw [harmed] at hpend
      simp [hpend]
  | some p =>
      rw [harmed] at hend hpend
      have hfrom : (rxBytes st s bytes).retransmitFrom = p.1 := hend.number p rfl
      have hfresh : p.2 = false → (rxBytes st s bytes).vs ≠ p.1 := hend.fresh p rfl
      have hold : p.2 = true → (rxBytes st s bytes).vs = 0 := hend.old p rfl
      rw [hpend, hfrom]
      cases hp2 : p.2 with
      | true => simp [hold hp2, hp2]
      | false => simp [(hfresh hp2).symm, hp2]

section Calls

variable {st : Station} {K : UInt8 → Moment → Prop} {C : Moment → Prop}

/-- The I-frames that a rule lets a moment see are what `C` says. -/
def Judges (K : UInt8 → Moment → Prop) (C : Moment → Prop) : Prop :=
  ∀ ns nr m, K (iCtrl ns nr false) m ↔ C m

theorem retransmitLoop_upholds (hC : Judges K C) (w : TxWindow) (endVs fuel slotIdx : Nat) (s : Ctx) :
    Upholds K (retransmitLoop st w endVs fuel slotIdx s).trace ↔
      Upholds K s.trace ∧ (fuel ≠ 0 → s.vs ≠ endVs → C s.moment) := by
  induction fuel generalizing slotIdx s with
  | zero => simp [retransmitLoop]
  | succ fuel ih =>
      simp only [retransmitLoop, frameSend_octets]
      by_cases hend : s.vs = endVs
      · rw [if_pos hend]
        simp [hend]
      · rw [if_neg hend, ih]
        generalize hf : (⟨(s.log (.slotRead slotIdx)).peerAddress,
          iCtrl (s.log (.slotRead slotIdx)).vs (s.log (.slotRead slotIdx)).vr false,
          readSlot w (s.log (.slotRead slotIdx)) slotIdx⟩ : Frame) = f
        have hput : Upholds K ((s.log (.slotRead slotIdx)).put st f).trace ↔
            Upholds K s.trace ∧ C s.moment := by
          have hctrl : f.ctrl = iCtrl s.vs s.vr false := by rw [← hf]; rfl
          have htrace : ((s.log (.slotRead slotIdx)).put st f).trace =
              s.trace ++ ([.slotRead slotIdx] ++ f.obs st.crc s.moment) := by
            simp [Ctx.put, Ctx.log, Ctx.moment]
          rw [htrace, upholds_append, upholds_append, upholds_obs, hctrl, hC]
          simp [Upholds, marks]
        constructor
        · rintro ⟨hsent, -⟩
          exact ⟨(hput.mp hsent).1, fun _ _ => (hput.mp hsent).2⟩
        · rintro ⟨hs, hlet⟩
          exact ⟨hput.mpr ⟨hs, hlet (Nat.succ_ne_zero fuel) hend⟩, fun _ _ => hlet (Nat.succ_ne_zero fuel) hend⟩

theorem upholds_t1Start (s : Ctx) : Upholds K (t1Start st s).trace ↔ Upholds K s.trace := by
  rw [upholds_linkView, linkView_t1Start, ← upholds_linkView]

theorem retransmitOutstanding_upholds (hC : Judges K C) (w : TxWindow) (s : Ctx) :
    Upholds K (retransmitOutstanding st w s).trace ↔
      Upholds K s.trace ∧ (s.retransmitFrom ≠ s.vs → C s.moment) := by
  unfold retransmitOutstanding
  extract_lets t endVs outstanding slotIdx u v
  have hloop := @retransmitLoop_upholds st K C hC w endVs 8 slotIdx u
  rw [upholds_t1Start, hloop]
  simp only [ne_eq, OfNat.ofNat_ne_zero, not_false_eq_true, true_imp_iff]
  exact Iff.rfl

theorem upholds_put (s : Ctx) (f : Frame) :
    Upholds K (s.put st f).trace ↔ Upholds K s.trace ∧ K f.ctrl s.moment := by
  rw [← upholds_obs (K := K) st.crc s.moment f, ← upholds_append]
  rfl

/-- What makes no frame of its own keeps every rule. -/
theorem upholds_of_line {s t : Ctx} (h : (linkView t).line = (linkView s).line) :
    Upholds K t.trace ↔ Upholds K s.trace := by
  rw [upholds_linkView, h, ← upholds_linkView]

theorem upholds_t2Stop (s : Ctx) : Upholds K (t2Stop st s).trace ↔ Upholds K s.trace :=
  upholds_of_line (by rw [linkView_t2Stop]; rfl)

theorem upholds_resetState (s : Ctx) : Upholds K (resetState st s).trace ↔ Upholds K s.trace :=
  upholds_of_line (by rw [linkView_resetState]; rfl)

theorem upholds_setState (hp : st.platform.Passive) (s : Ctx) (state : State) (event : Event) :
    Upholds K (setState st s state event).trace ↔ Upholds K s.trace := by
  refine upholds_of_line ?_
  rw [linkView_setState hp]
  split_ifs <;> rfl

theorem upholds_sends (trace : List Obs) {os : List Obs} (h : ∀ o ∈ os, Plain o) :
    Upholds K (trace ++ os) ↔ Upholds K trace := by
  have hnone : marks os = [] := by
    refine List.filterMap_eq_nil_iff.mpr fun o ho => ?_
    have hplain := h o ho
    cases o with
    | frame => exact hplain.elim
    | _ => rfl
  rw [upholds_append]
  exact and_iff_left (by simp [Upholds, hnone])

/-- An unnumbered frame that the application has asked for. -/
theorem upholds_put_unnumbered (hK : Rule K) (s : Ctx) (f : Frame) (hu : isUframe f.ctrl = true) :
    Upholds K (s.put st f).trace ↔ Upholds K s.trace := by
  rw [upholds_put]
  exact and_iff_left (hK.unnumbered _ _ hu)

theorem transmitU_upholds (hK : Rule K) (s : Ctx) {ctrl : UInt8} (hu : isUframe ctrl = true)
    (address : UInt8) (data : Payload) :
    Upholds K (transmitU st s ctrl address data).2.trace ↔ Upholds K s.trace := by
  unfold transmitU
  split_ifs with hnull hlen
  · rfl
  · rfl
  · have hdata : data.NonNull := Payload.nonNull_iff.mpr hnull
    simp only [frameSend_of_nonNull st s address ctrl hdata]
    exact upholds_put_unnumbered hK s _ hu

/-- An accepted payload makes one frame. -/
theorem acceptI_upholds_iff {w : TxWindow} {s : Ctx} {data : Payload} (hdata : data.NonNull) :
    Upholds K (acceptI st w s data).trace ↔ Upholds K s.trace ∧ K (iCtrl s.vs s.vr false) s.moment := by
  rw [acceptI_eq s hdata]
  extract_lets next logged stored sent stopped
  have hlogged : Upholds K logged.trace ↔ Upholds K s.trace :=
    upholds_sends s.trace (show ∀ o ∈ [Obs.accept data.read], Plain o by simp [Plain])
  have hsent : Upholds K sent.trace ↔ Upholds K s.trace ∧ K (iCtrl s.vs s.vr false) s.moment :=
    (upholds_put stored _).trans (and_congr_left fun _ => hlogged)
  have hstopped : Upholds K stopped.trace ↔ Upholds K s.trace ∧ K (iCtrl s.vs s.vr false) s.moment :=
    (upholds_t2Stop _).trans hsent
  by_cases hout : outstanding s = 0
  · rw [if_pos hout]
    exact (upholds_t1Start stopped).trans hstopped
  · rw [if_neg hout]
    exact hstopped

theorem acceptI_upholds (hK : Rule K) {w : TxWindow} {s : Ctx} (hstate : s.currentState = .connected)
    (hready : s.remoteBusy = false) {data : Payload} (hdata : data.NonNull) :
    Upholds K (acceptI st w s data).trace ↔ Upholds K s.trace :=
  (acceptI_upholds_iff hdata).trans (and_iff_left (hK.numbered s.vs s.vr s.moment hstate hready))

theorem t1Expired_upholds (hK : Rule K) (hp : st.platform.Passive) (s : Ctx) :
    Upholds K (t1Expired st s).trace ↔ Upholds K s.trace := by
  have hu := @upholds_put_unnumbered st K hK
  simp only [t1Expired, sendRr, sendRnr, sendU_eq, sendS_eq, retransmitFrmr_eq]
  by_cases hlost : st.config.maxRetries > 0 ∧ (s.n2 + 1) % 256 > st.config.maxRetries
  · rw [if_pos hlost, upholds_resetState, upholds_setState hp]
  · rw [if_neg hlost]
    cases hstate : s.currentState with
    | connecting =>
        simp only [upholds_t1Start]
        exact hu _ _ (uCtrl_isUframe (by decide) true)
    | disconnecting =>
        simp only [upholds_t1Start]
        exact hu _ _ (uCtrl_isUframe (by decide) true)
    | frmrError =>
        simp only [upholds_t1Start]
        exact hu _ _ (uCtrl_isUframe (by decide) false)
    | connected =>
        simp only
        by_cases hne : s.va ≠ s.vs
        · rw [if_pos hne, upholds_t1Start]
          have hframe := hK.supervisory s.vr true s.moment hstate
          rw [Ctx.moment] at hframe
          cases hbusy : s.localBusy with
          | true =>
              simp only [hstate, hbusy, if_true] at hframe
              rw [if_pos rfl, upholds_put]
              exact and_iff_left (by simpa [Ctx.moment, hbusy] using hframe)
          | false =>
              simp only [hstate, hbusy, Bool.false_eq_true, if_false] at hframe
              rw [if_neg (by simp), upholds_put]
              exact and_iff_left (by simpa [Ctx.moment, hbusy] using hframe)
        · rw [if_neg hne]
    | disconnected => rfl

/-- The calls keep every rule by themselves, but for the expiry of T2, which speaks in any link state. -/
theorem Call.upholds (hK : Rule K) (hp : st.platform.Passive) (s : Ctx) {call : Call}
    (hlegal : call.Legal) (hcall : ∀ bytes, call ≠ .dataIn bytes) :
    Upholds K (call.run st s).trace ↔ Upholds K s.trace ∧
      (call = .t2Expired → K (sCtrl (if s.localBusy then sRnr else sRr) s.vr false) s.moment) := by
  have hu := @upholds_put_unnumbered st K hK
  cases call with
  | t2Expired =>
      simp only [run, AtcHdlc.t2Expired, sendRr, sendRnr, sendS_eq, true_imp_iff]
      cases hbusy : s.localBusy with
      | true =>
          rw [if_pos rfl, upholds_put]
          simp [Ctx.moment, hbusy]
      | false =>
          rw [if_neg (by decide), upholds_put]
          simp [Ctx.moment, hbusy]
  | dataIn bytes => exact absurd rfl (hcall bytes)
  | t1Expired =>
      simp only [run, reduceCtorEq, false_imp_iff, and_true]
      exact t1Expired_upholds hK hp s
  | linkSetup peerAddr =>
      simp only [run, reduceCtorEq, false_imp_iff, and_true, AtcHdlc.linkSetup, sendU_eq]
      split_ifs
      · exact Iff.rfl
      · simp only [upholds_setState hp, upholds_t1Start]
        exact hu _ _ (uCtrl_isUframe (by decide) true)
  | disconnect =>
      simp only [run, reduceCtorEq, false_imp_iff, and_true, AtcHdlc.disconnect, sendU_eq]
      split_ifs
      · exact Iff.rfl
      · simp only [upholds_setState hp, upholds_t1Start]
        exact hu _ _ (uCtrl_isUframe (by decide) true)
  | linkReset =>
      simp only [run, reduceCtorEq, false_imp_iff, and_true, AtcHdlc.linkReset, sendU_eq,
        upholds_setState hp, upholds_t1Start]
      exact (hu _ _ (uCtrl_isUframe (by decide) true)).trans (upholds_resetState s)
  | abort =>
      simp only [run, reduceCtorEq, false_imp_iff, and_true, AtcHdlc.abort]
      have hflags := @upholds_sends K s.trace [.send flag false, .send flag true] (by simp [Plain])
      rw [upholds_resetState, ← hflags]
      simp [Ctx.log]
  | setLocalBusy busy =>
      simp only [run, reduceCtorEq, false_imp_iff, and_true, AtcHdlc.setLocalBusy, sendRr, sendS_eq]
      split_ifs with hstate hset hclear
      · exact Iff.rfl
      · exact Iff.rfl
      · have hframe := hK.supervisory s.vr false ⟨s.currentState, s.remoteBusy, false⟩ (not_not.mp hstate)
        rw [if_neg (by simp)] at hframe
        rw [upholds_put]
        exact and_iff_left hframe
      · exact Iff.rfl
  | transmitUi address data =>
      simp only [run, reduceCtorEq, false_imp_iff, and_true]
      exact transmitU_upholds hK s (uCtrl_isUframe (by decide) false) address data
  | transmitTest address data =>
      simp only [run, reduceCtorEq, false_imp_iff, and_true]
      exact transmitU_upholds hK s (uCtrl_isUframe (by decide) true) address data
  | transmitI data =>
      simp only [run, reduceCtorEq, false_imp_iff, and_true]
      rcases @transmitI_cases st s data with hsame | ⟨w, -, hstate, hready, -, -, haccepted⟩
      · rw [hsame]
      · rw [haccepted]
        exact acceptI_upholds hK hstate hready hlegal
  | transmitUiStart address =>
      simp only [run, reduceCtorEq, false_imp_iff, and_true, AtcHdlc.transmitUiStart, frameBegin_eq]
      have hbegun (octets : List UInt8) : Upholds K (s.trace ++ .frame address (uCtrl uUi false) s.moment ::
          octets.map (.send · false)) ↔ Upholds K s.trace := by
        rw [List.append_cons, upholds_sends _ (plain_sends octets), upholds_append]
        refine and_iff_left ?_
        simpa [Upholds, marks] using hK.unnumbered _ s.moment (uCtrl_isUframe (by decide) false)
      exact hbegun _
  | transmitUiData data =>
      simp only [run, reduceCtorEq, false_imp_iff, and_true, AtcHdlc.transmitUiData, emitAll_eq]
      split_ifs
      · exact Iff.rfl
      · exact upholds_sends _ (plain_sends _)
  | transmitUiEnd =>
      simp only [run, reduceCtorEq, false_imp_iff, and_true, AtcHdlc.transmitUiEnd, frameEnd_eq]
      refine upholds_sends _ fun o ho => ?_
      rcases List.mem_append.mp ho with ho | ho
      · exact plain_sends _ o ho
      · rw [List.mem_singleton.mp ho]
        trivial

theorem rxBytes_upholds (hK : Rule K) (hp : st.platform.Passive) (s : Ctx) (bytes : List UInt8) :
    Upholds K (rxBytes st s bytes).trace ↔ Upholds K s.trace ∧
      ∀ x ∈ chunkFrames st s bytes, ∀ a ∈ bluntAnswer x.1 x.2,
        K (sCtrl a.1 x.1.vr a.2) ⟨.connected, busyAfter x.1 x.2.ctrl, x.1.localBusy⟩ := by
  refine rxBytes_iff st (P := fun s => Upholds K s.trace) (fun _ _ => Iff.rfl) (fun s f => ?_) s bytes
  rw [upholds_linkView, dispatchFrame_linkView hp, LinkView.upholds_next hK, ← upholds_linkView]

theorem dataIn_upholds (hC : Judges K C) (hp : st.platform.Passive) {mem : Memory} {s : Ctx}
    (hreach : Reachable st mem s) (bytes : List UInt8) :
    Upholds K (dataIn st s bytes).trace ↔ Upholds K (rxBytes st s bytes).trace ∧
      (resends (chunkFrames st s bytes) = true → C (rxBytes st s bytes).moment) := by
  have hresends := resends_iff hp (hreach.windowed hp) (hreach.not_pending hp) bytes
  rw [← hresends]
  unfold dataIn retransmitIfPending
  by_cases harmed : (rxBytes st s bytes).retransmitPending = true
  · rw [if_pos harmed]
    cases hw : st.txWindow with
    | none =>
        rw [rxBytes_pending hp hw, hreach.not_pending hp] at harmed
        exact absurd harmed (by decide)
    | some w =>
        simp only [harmed, true_and]
        exact retransmitOutstanding_upholds hC w _
  · rw [if_neg harmed]
    simp [harmed]

/-- The frames with which a chunk ends leave the moment. -/
theorem rxBytes_moment (hp : st.platform.Passive) (s : Ctx) {bytes : List UInt8}
    (hresends : resends (chunkFrames st s bytes) = true) :
    ∃ x, (chunkFrames st s bytes).getLast? = some x ∧
      (rxBytes st s bytes).currentState = linkAfter x.1 x.2.ctrl ∧
      (rxBytes st s bytes).remoteBusy = busyAfter x.1 x.2.ctrl := by
  have hlink := rxBytes_last st Ctx.currentState (fun _ _ => rfl) s bytes
  have hbusy := rxBytes_last st Ctx.remoteBusy (fun _ _ => rfl) s bytes
  cases hlast : (chunkFrames st s bytes).getLast? with
  | none =>
      rw [List.getLast?_eq_none_iff.mp hlast] at hresends
      exact absurd hresends (by decide)
  | some x =>
      rw [hlast] at hlink hbusy
      have hview := congrArg LinkView.remoteBusy (dispatchFrame_linkView hp x.1 x.2)
      exact ⟨x, rfl, hlink.trans (dispatchFrame_currentState hp x.1 x.2),
        hbusy.trans (hview.trans (LinkView.remoteBusy_next x.1 x.2))⟩

/-- Along a run a rule is kept just when every call keeps it. -/
theorem upholds_foldl {mem : Memory} {Sound : Ctx → Call → Prop}
    (hcall : ∀ s, Reachable st mem s → ∀ call : Call, call.Legal →
      (Upholds K (call.run st s).trace ↔ Upholds K s.trace ∧ Sound s call))
    {s : Ctx} (hs : Reachable st mem s) {calls : List Call} (hlegal : ∀ call ∈ calls, call.Legal) :
    Upholds K (calls.foldl (Call.run st) s).trace ↔ Upholds K s.trace ∧ Along st Sound s calls := by
  induction calls generalizing s with
  | nil => simp [Along]
  | cons call calls ih =>
      have hlegal' := List.forall_mem_cons.mp hlegal
      rw [List.foldl_cons, ih (.call call hs hlegal'.1) hlegal'.2, hcall s hs call hlegal'.1, and_assoc]
      rfl

end Calls

section Rules

variable {st : Station}

instance (K : UInt8 → Moment → Prop) [∀ ctrl m, Decidable (K ctrl m)] (trace : List Obs) :
    Decidable (Upholds K trace) := inferInstanceAs (Decidable (∀ x ∈ marks trace, _))

instance (ctrl : UInt8) (m : Moment) : Decidable (Truthful ctrl m) :=
  inferInstanceAs (Decidable (_ → _ → _ → _))

instance (ctrl : UInt8) (m : Moment) : Decidable (Considerate ctrl m) :=
  inferInstanceAs (Decidable (_ → _))

instance (ctrl : UInt8) (m : Moment) : Decidable (InPlace ctrl m) :=
  inferInstanceAs (Decidable (_ → _))

/-! ### A busy station and its answers -/

/-- A frame that a busy station answers by an RR or a REJ all the same: a poll, or an I-frame out of
sequence, unless it comes without the poll bit after a REJ. -/
def Contradicted (x : Ctx × Received) : Prop :=
  x.1.currentState = .connected ∧ x.1.localBusy = true ∧
    (isSframe x.2.ctrl = true ∧ isCmd x.1 x.2.address = true ∧ ctrlPf x.2.ctrl = true ∨
      isIframe x.2.ctrl = true ∧ nrValid x.1 (ctrlNr x.2.ctrl) = true ∧ ctrlNs x.2.ctrl ≠ x.1.vr ∧
        (x.1.rejException = true → ctrlPf x.2.ctrl = true))

instance (x : Ctx × Received) : Decidable (Contradicted x) :=
  inferInstanceAs (Decidable (_ ∧ _ ∧ (_ ∧ _ ∧ _ ∨ _ ∧ _ ∧ _ ∧ (_ → _))))

/-- The calls in which a busy station contradicts itself are those that deliver such a frame. -/
def Tactful (st : Station) (s : Ctx) : Call → Prop
  | .dataIn bytes => ∀ x ∈ chunkFrames st s bytes, ¬Contradicted x
  | _ => True

/-- No blunt answer is an RNR. -/
theorem bluntAnswer_kind {s : Ctx} {f : Received} {a : Nat × Bool} (h : a ∈ bluntAnswer s f) (nr : Nat) :
    isSframe (sCtrl a.1 nr a.2) = true ∧ ctrlS (sCtrl a.1 nr a.2) ≠ sRnr := by
  have hkind : a.1 = sRr ∨ a.1 = sRej := by
    unfold bluntAnswer at h
    split_ifs at h <;> simp_all
    all_goals
      obtain rfl := h
      simp
  obtain ⟨hs, hctrl, -⟩ := sCtrl_fields a.1 nr a.2
  refine ⟨hs, ?_⟩
  rw [hctrl]
  rcases hkind with hkind | hkind
  · rw [hkind]
    decide
  · rw [hkind]
    decide

theorem contradicted_iff (x : Ctx × Received) :
    ¬Contradicted x ↔ ∀ a ∈ bluntAnswer x.1 x.2,
      Truthful (sCtrl a.1 x.1.vr a.2) ⟨.connected, busyAfter x.1 x.2.ctrl, x.1.localBusy⟩ := by
  have hblunt : Contradicted x ↔ x.1.localBusy = true ∧ (bluntAnswer x.1 x.2).isSome = true := by
    unfold Contradicted bluntAnswer
    by_cases hstate : x.1.currentState = .connected
    · rcases ctrl_cases x.2.ctrl with ⟨hi, hs, -⟩ | ⟨hi, hs, -⟩ | ⟨hi, hs, -⟩
      · cases x.1.rejException <;> cases ctrlPf x.2.ctrl <;> by_cases hvalid : nrValid x.1 (ctrlNr x.2.ctrl) <;>
          by_cases hseq : ctrlNs x.2.ctrl = x.1.vr <;> simp [hstate, hi, hs, hvalid, hseq]
      · cases isCmd x.1 x.2.address <;> cases ctrlPf x.2.ctrl <;> simp [hstate, hi, hs]
      · simp [hi, hs]
    · simp [hstate]
  rw [hblunt]
  constructor
  · intro hnot a ha _ hbusy
    exact absurd ⟨hbusy, Option.isSome_of_mem ha⟩ hnot
  · rintro hall ⟨hbusy, hsome⟩
    obtain ⟨a, ha⟩ := Option.isSome_iff_exists.mp hsome
    obtain ⟨hs, hkind⟩ := bluntAnswer_kind (s := x.1) (f := x.2) ha x.1.vr
    exact hkind (hall a ha rfl hbusy hs)

theorem call_truthful (hp : st.platform.Passive) {mem : Memory} {s : Ctx} (hreach : Reachable st mem s)
    {call : Call} (hlegal : call.Legal) :
    Upholds Truthful (call.run st s).trace ↔ Upholds Truthful s.trace ∧ Tactful st s call := by
  by_cases hcall : ∃ bytes, call = .dataIn bytes
  · obtain ⟨bytes, rfl⟩ := hcall
    have hjudges : Judges Truthful fun _ => True :=
      fun ns nr m => iff_true_intro (fun _ _ hs => absurd (hs.symm.trans (iCtrl_kind ns nr false).2) (by decide))
    have hread := rxBytes_upholds truthful_rule hp s bytes
    simp only [← contradicted_iff] at hread
    have hdata := dataIn_upholds hjudges hp hreach bytes
    simp only [implies_true, and_true] at hdata
    exact hdata.trans hread
  · push Not at hcall
    rw [Call.upholds truthful_rule hp s hlegal hcall]
    refine and_congr_right fun _ => ?_
    have htruthful : Truthful (sCtrl (if s.localBusy then sRnr else sRr) s.vr false) s.moment :=
      fun hstate => truthful_rule.supervisory s.vr false s.moment hstate hstate
    cases call with
    | dataIn bytes => exact absurd rfl (hcall bytes)
    | t2Expired => exact iff_of_true (fun _ => htruthful) trivial
    | _ => exact iff_of_true (fun h => absurd h (by simp)) trivial

/-- A station that is busy says nothing but RNR in its session, in every run and just as long as no frame
arrives that contradicts it: no poll, and no I-frame out of sequence (but for one without the poll bit after
a REJ). -/
theorem truthful_iff_tactful (hp : st.platform.Passive) (mem : Memory) {calls : List Call}
    (hlegal : ∀ call ∈ calls, call.Legal) :
    Upholds Truthful (calls.foldl (Call.run st) (initCtx st mem)).trace ↔
      Along st (Tactful st) (initCtx st mem) calls := by
  have hrun := upholds_foldl (fun s (hs : Reachable st mem s) call hcall => call_truthful hp hs hcall) .init hlegal
  exact hrun.trans (and_iff_right upholds_nil)

instance (s : Ctx) (call : Call) : Decidable (Tactful st s call) :=
  match call with
  | .dataIn bytes => inferInstanceAs (Decidable (∀ x ∈ chunkFrames st s bytes, _))
  | .t1Expired | .t2Expired | .linkSetup _ | .disconnect | .linkReset | .abort | .setLocalBusy _
  | .transmitUi _ _ | .transmitTest _ _ | .transmitI _ | .transmitUiStart _ | .transmitUiData _
  | .transmitUiEnd => .isTrue trivial

/-- A busy station takes an I-frame in sequence, which it answers by an RNR. -/
theorem truthful_iff_tactful_mock :
    let st := mockStation 0x01 3 (by decide) (by decide)
    let calls : List Call := [.linkSetup 0x02,
      .dataIn (Frame.octets crcOpsDefault ⟨0x02, uCtrl uUa true, []⟩), .setLocalBusy true,
      .dataIn (Frame.octets crcOpsDefault ⟨0x01, iCtrl 0 0 false, [0x55]⟩)]
    Upholds Truthful (calls.foldl (Call.run st) (initCtx st zeroMemory)).trace := by
  intro st calls
  have hlegal : ∀ call ∈ calls, call.Legal := by simp [calls, Call.Legal]
  refine (truthful_iff_tactful mockPlatform_passive zeroMemory hlegal).mpr ?_
  decide +kernel

/-- A busy station that is polled. -/
def polledBusy : Ctx :=
  mockRun [.linkSetup 0x02, .dataIn (Frame.octets crcOpsDefault ⟨0x02, uCtrl uUa true, []⟩),
    .setLocalBusy true, .dataIn (Frame.octets crcOpsDefault ⟨0x01, sCtrl sRr 0 true, []⟩)]

/-- It answers the poll by an RR. -/
theorem poll_contradicts_busy :
    Reachable (mockStation 0x01 3 (by decide) (by decide)) zeroMemory polledBusy ∧
      polledBusy.localBusy = true ∧ ¬Upholds Truthful polledBusy.trace :=
  ⟨mockRun_reachable (by simp [Call.Legal]), by decide +kernel, by decide +kernel⟩

/-- The calls that send no I-frame to a busy peer are all but those whose chunk ends with a retransmission
after its last frame has left the peer busy. -/
def Patient (st : Station) (s : Ctx) : Call → Prop
  | .dataIn bytes => resends (chunkFrames st s bytes) = true →
      ∀ x ∈ (chunkFrames st s bytes).getLast?, busyAfter x.1 x.2.ctrl = false
  | _ => True

theorem call_considerate (hp : st.platform.Passive) {mem : Memory} {s : Ctx} (hreach : Reachable st mem s)
    {call : Call} (hlegal : call.Legal) :
    Upholds Considerate (call.run st s).trace ↔ Upholds Considerate s.trace ∧ Patient st s call := by
  have hother (kind nr : Nat) (pf : Bool) (m : Moment) : Considerate (sCtrl kind nr pf) m :=
    fun hi => absurd (hi.symm.trans (sCtrl_kind kind nr pf).2) (by decide)
  by_cases hcall : ∃ bytes, call = .dataIn bytes
  · obtain ⟨bytes, rfl⟩ := hcall
    have hjudges : Judges Considerate fun m => m.remoteBusy = false :=
      fun ns nr m => ⟨fun h => h (iCtrl_kind ns nr false).1, fun h _ => h⟩
    have hread := rxBytes_upholds considerate_rule hp s bytes
    simp only [hother, implies_true, and_true] at hread
    refine (dataIn_upholds hjudges hp hreach bytes).trans (and_congr hread ?_)
    refine forall_congr' fun hresends => ?_
    obtain ⟨x, hlast, -, hbusy⟩ := rxBytes_moment hp s hresends
    rw [hlast]
    simp [Ctx.moment, hbusy]
  · push Not at hcall
    rw [Call.upholds considerate_rule hp s hlegal hcall]
    refine and_congr_right fun _ => ?_
    cases call with
    | dataIn bytes => exact absurd rfl (hcall bytes)
    | _ => exact iff_of_true (fun _ => hother _ _ _ _) trivial

/-- No I-frame is sent to a busy peer, in every run and just as long as no chunk that ends with a
retransmission leaves the peer busy. -/
theorem considerate_iff_patient (hp : st.platform.Passive) (mem : Memory) {calls : List Call}
    (hlegal : ∀ call ∈ calls, call.Legal) :
    Upholds Considerate (calls.foldl (Call.run st) (initCtx st mem)).trace ↔
      Along st (Patient st) (initCtx st mem) calls := by
  have hrun := upholds_foldl (fun s (hs : Reachable st mem s) call hcall => call_considerate hp hs hcall) .init hlegal
  exact hrun.trans (and_iff_right upholds_nil)

instance (s : Ctx) (call : Call) : Decidable (Patient st s call) :=
  match call with
  | .dataIn bytes => inferInstanceAs (Decidable (_ → ∀ x ∈ (chunkFrames st s bytes).getLast?, _))
  | .t1Expired | .t2Expired | .linkSetup _ | .disconnect | .linkReset | .abort | .setLocalBusy _
  | .transmitUi _ _ | .transmitTest _ _ | .transmitI _ | .transmitUiStart _ | .transmitUiData _
  | .transmitUiEnd => .isTrue trivial

/-- An I-frame, an RNR, and the REJ that ends the busy condition and has the I-frame sent again. -/
theorem considerate_iff_patient_mock :
    let st := mockStation 0x01 3 (by decide) (by decide)
    let calls : List Call := [.linkSetup 0x02,
      .dataIn (Frame.octets crcOpsDefault ⟨0x02, uCtrl uUa true, []⟩), .transmitI (.octets [0x11]),
      .dataIn (Frame.octets crcOpsDefault ⟨0x01, sCtrl sRnr 0 false, []⟩),
      .dataIn (Frame.octets crcOpsDefault ⟨0x01, sCtrl sRej 0 false, []⟩)]
    Upholds Considerate (calls.foldl (Call.run st) (initCtx st zeroMemory)).trace := by
  intro st calls
  have hlegal : ∀ call ∈ calls, call.Legal := by simp [calls, Call.Legal, Payload.NonNull, Payload.isNull]
  refine (considerate_iff_patient mockPlatform_passive zeroMemory hlegal).mpr ?_
  decide +kernel

/-- An RNR with the final bit, when an I-frame is outstanding. -/
def finalRnr : Ctx :=
  mockRun [.linkSetup 0x02, .dataIn (Frame.octets crcOpsDefault ⟨0x02, uCtrl uUa true, []⟩),
    .transmitI (.octets [0x11]), .dataIn (Frame.octets crcOpsDefault ⟨0x02, sCtrl sRnr 0 true, []⟩)]

/-- The I-frame is sent again to the peer that has just said that it is busy. -/
theorem retransmission_ignores_busy :
    Reachable (mockStation 0x01 3 (by decide) (by decide)) zeroMemory finalRnr ∧
      finalRnr.remoteBusy = true ∧ ¬Upholds Considerate finalRnr.trace :=
  ⟨mockRun_reachable (by simp [Call.Legal, Payload.NonNull, Payload.isNull]), by decide +kernel,
    by decide +kernel⟩

/-- The calls that send numbered frames in CONNECTED only are all but the expiry of T2 in another link state
and the chunks that end with a retransmission after their last frame has left CONNECTED, or found it left. -/
def Confined (st : Station) (s : Ctx) : Call → Prop
  | .dataIn bytes => resends (chunkFrames st s bytes) = true →
      ∀ x ∈ (chunkFrames st s bytes).getLast?, linkAfter x.1 x.2.ctrl = .connected
  | .t2Expired => s.currentState = .connected
  | _ => True

theorem call_inPlace (hp : st.platform.Passive) {mem : Memory} {s : Ctx} (hreach : Reachable st mem s)
    {call : Call} (hlegal : call.Legal) :
    Upholds InPlace (call.run st s).trace ↔ Upholds InPlace s.trace ∧ Confined st s call := by
  by_cases hcall : ∃ bytes, call = .dataIn bytes
  · obtain ⟨bytes, rfl⟩ := hcall
    have hjudges : Judges InPlace fun m => m.currentState = .connected :=
      fun ns nr m => ⟨fun h => h (Or.inl (iCtrl_kind ns nr false).1), fun h _ => h⟩
    have hother (kind nr : Nat) (pf : Bool) (a b : Bool) :
        InPlace (sCtrl kind nr pf) ⟨.connected, a, b⟩ := fun _ => rfl
    have hread := rxBytes_upholds inPlace_rule hp s bytes
    simp only [hother, implies_true, and_true] at hread
    refine (dataIn_upholds hjudges hp hreach bytes).trans (and_congr hread ?_)
    refine forall_congr' fun hresends => ?_
    obtain ⟨x, hlast, hlink, -⟩ := rxBytes_moment hp s hresends
    rw [hlast]
    simp [Ctx.moment, hlink]
  · push Not at hcall
    rw [Call.upholds inPlace_rule hp s hlegal hcall]
    refine and_congr_right fun _ => ?_
    have hframe : InPlace (sCtrl (if s.localBusy then sRnr else sRr) s.vr false) s.moment ↔
        s.currentState = .connected :=
      ⟨fun h => h (Or.inr (sCtrl_kind _ s.vr false).1), fun h _ => h⟩
    cases call with
    | dataIn bytes => exact absurd rfl (hcall bytes)
    | t2Expired => simp only [true_imp_iff, hframe, Confined]
    | _ => exact iff_of_true (fun h => absurd h (by simp)) trivial

/-- Numbered frames are sent in CONNECTED only, in every run and just as long as T2 expires in CONNECTED and
no chunk that ends with a retransmission leaves the station outside of CONNECTED. -/
theorem inPlace_iff_confined (hp : st.platform.Passive) (mem : Memory) {calls : List Call}
    (hlegal : ∀ call ∈ calls, call.Legal) :
    Upholds InPlace (calls.foldl (Call.run st) (initCtx st mem)).trace ↔
      Along st (Confined st) (initCtx st mem) calls := by
  have hrun := upholds_foldl (fun s (hs : Reachable st mem s) call hcall => call_inPlace hp hs hcall) .init hlegal
  exact hrun.trans (and_iff_right upholds_nil)

instance (s : Ctx) (call : Call) : Decidable (Confined st s call) :=
  match call with
  | .dataIn bytes => inferInstanceAs (Decidable (_ → ∀ x ∈ (chunkFrames st s bytes).getLast?, _))
  | .t2Expired => inferInstanceAs (Decidable (s.currentState = .connected))
  | .t1Expired | .linkSetup _ | .disconnect | .linkReset | .abort | .setLocalBusy _
  | .transmitUi _ _ | .transmitTest _ _ | .transmitI _ | .transmitUiStart _ | .transmitUiData _
  | .transmitUiEnd => .isTrue trivial

/-- An I-frame that T2 acknowledges, and a release. -/
theorem inPlace_iff_confined_mock :
    let st := mockStation 0x01 3 (by decide) (by decide)
    let calls : List Call := [.linkSetup 0x02,
      .dataIn (Frame.octets crcOpsDefault ⟨0x02, uCtrl uUa true, []⟩),
      .dataIn (Frame.octets crcOpsDefault ⟨0x01, iCtrl 0 0 false, [0x55]⟩), .t2Expired, .disconnect]
    Upholds InPlace (calls.foldl (Call.run st) (initCtx st zeroMemory)).trace := by
  intro st calls
  have hlegal : ∀ call ∈ calls, call.Legal := by simp [calls, Call.Legal]
  refine (inPlace_iff_confined mockPlatform_passive zeroMemory hlegal).mpr ?_
  decide +kernel

/-- A release while the acknowledgement of an I-frame waits for T2. -/
def releasedOwing : Ctx :=
  mockRun [.linkSetup 0x02, .dataIn (Frame.octets crcOpsDefault ⟨0x02, uCtrl uUa true, []⟩),
    .dataIn (Frame.octets crcOpsDefault ⟨0x01, iCtrl 0 0 false, [0x55]⟩), .disconnect]

/-- T2 goes on, and when it expires the station sends an RR while it is DISCONNECTING. -/
theorem t2_outlives_session :
    let st := mockStation 0x01 3 (by decide) (by decide)
    Reachable st zeroMemory releasedOwing ∧ releasedOwing.t2Active = true ∧
      ¬Upholds InPlace (Call.run st releasedOwing .t2Expired).trace :=
  ⟨mockRun_reachable (by simp [Call.Legal]), by decide +kernel, by decide +kernel⟩

end Rules

end AtcHdlc
