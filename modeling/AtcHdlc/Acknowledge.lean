import Mathlib.Data.List.Induction
import AtcHdlc.Emission

/-! The acknowledgement that a station owes for the I-frames it has accepted. It is sent with every numbered
frame, and while none has been sent T2 runs, but for one defect: the FRMR that a UA or an unknown command
draws in CONNECTED stops T2 and acknowledges nothing. -/

namespace AtcHdlc

section Owing

variable {st : Station}

/-- What is owed is going to be sent when T2 expires. -/
structure Owing (v : LinkView) : Prop where
  number : v.debt.1 = v.vr
  vr_lt : v.vr < mod8
  due : v.currentState = .connected → v.debt.2 = true → v.t2Active = true

/-- A UA or an unknown command in CONNECTED while an acknowledgement is owed. -/
def Dismisses (x : Ctx × Received) : Prop :=
  x.1.currentState = .connected ∧ (debt x.1.trace).2 = true ∧ isUframe x.2.ctrl = true ∧
    (uCmd x.2.ctrl = .ua ∨ uCmd x.2.ctrl = .unknown)

instance (x : Ctx × Received) : Decidable (Dismisses x) := inferInstanceAs (Decidable (_ ∧ _ ∧ _ ∧ _))

theorem carries_sCtrl (kind nr : Nat) (pf : Bool) (h : nr < mod8) :
    carries (sCtrl kind nr pf) nr = true := by
  obtain ⟨hs, -, hnr, -⟩ := sCtrl_fields kind nr pf
  have hmod : nr % 8 = nr := Nat.mod_eq_of_lt h
  rw [carries, hs, hnr, hmod, Bool.or_true, Bool.true_and, beq_self_eq_true]

theorem carries_iCtrl (ns nr : Nat) (pf : Bool) (h : nr < mod8) :
    carries (iCtrl ns nr pf) nr = true := by
  obtain ⟨hi, -, hnr, -⟩ := iCtrl_fields ns nr pf
  have hmod : nr % 8 = nr := Nat.mod_eq_of_lt h
  rw [carries, hi, hnr, hmod, Bool.true_or, Bool.true_and, beq_self_eq_true]

namespace Owing

variable {v : LinkView}

theorem say (h : Owing v) (crc : CrcOps) (f : Frame) : Owing (v.say crc f) where
  number := h.number
  vr_lt := h.vr_lt
  due hstate hdebt := h.due hstate (by
    have hboth : (v.debt.2 && !carries f.ctrl v.debt.1) = true := hdebt
    exact (Bool.and_eq_true _ _ ▸ hboth).1)

theorem fresh (v : LinkView) : Owing v.fresh where
  number := rfl
  vr_lt := Nat.zero_lt_succ 7
  due _ hdebt := absurd hdebt (by simp [LinkView.fresh])

/-- Where nothing is owed, or no session is left to pay in, T2 may stop. -/
theorem stopT2 (h : Owing v) (hpaid : v.currentState = .connected → v.debt.2 = false) : Owing v.stopT2 where
  number := h.number
  vr_lt := h.vr_lt
  due hstate hdebt := absurd ((hpaid hstate).symm.trans hdebt) (by decide)

/-- Out of CONNECTED nothing is owed. -/
theorem leave (h : Owing v) {state : State} (hne : state ≠ .connected) (event : Event) :
    Owing (v.leave st state event) where
  number := h.number
  vr_lt := h.vr_lt
  due hstate _ := absurd hstate hne

/-- A supervisory frame pays. -/
theorem paid (hnumber : v.debt.1 = v.vr) (hlt : v.vr < mod8) (address : UInt8) (kind : Nat) (pf : Bool) :
    (v.sayS st address kind pf).debt.2 = false := by
  have hcarries : carries (sCtrl kind v.vr pf) v.debt.1 = true := by
    rw [hnumber]
    exact carries_sCtrl kind v.vr pf hlt
  have hdebt : (v.sayS st address kind pf).debt.2 = (v.debt.2 && !carries (sCtrl kind v.vr pf) v.debt.1) := rfl
  rw [hdebt, hcarries, Bool.not_true, Bool.and_false]

theorem pay (h : Owing v) (address : UInt8) (kind : Nat) (pf : Bool) :
    Owing (v.sayS st address kind pf).stopT2 :=
  (h.say st.crc _).stopT2 fun _ => paid h.number h.vr_lt address kind pf

theorem accept (v : LinkView) (pf : Bool) : Owing (v.accept st pf) where
  number := rfl
  vr_lt := Nat.zero_lt_succ 7
  due _ hdebt := absurd hdebt (by simp [LinkView.accept, LinkView.fresh, LinkView.say, LinkView.goto,
    LinkView.tell])

theorem poll (h : Owing v) (polled : Bool) : Owing (v.poll st polled) := by
  unfold LinkView.poll
  split_ifs
  · exact h.pay _ _ _
  · exact h

theorem busy (h : Owing v) (kind : Nat) : Owing (v.busy st kind) := by
  unfold LinkView.busy
  split_ifs <;> exact ⟨h.number, h.vr_lt, h.due⟩

theorem reject (h : Owing v) (frmr : Frame) : Owing (v.reject st frmr) where
  number := h.number
  vr_lt := h.vr_lt
  due hstate _ := absurd hstate (by simp)

theorem acknowledge (h : v.debt.1 = v.vr) (hlt : v.vr < mod8) (pf : Bool) :
    Owing (v.acknowledge st pf) := by
  have hpaid (address : UInt8) (kind : Nat) (pf : Bool) : (v.sayS st address kind pf).debt.2 = false :=
    paid h hlt address kind pf
  unfold LinkView.acknowledge
  by_cases hpf : pf = true
  · rw [if_pos hpf]
    exact ⟨h, hlt, fun _ hdebt => absurd ((hpaid _ _ _).symm.trans hdebt) (by decide)⟩
  · rw [if_neg hpf]
    by_cases ht2 : v.t2Active = true
    · rw [if_pos ht2]
      exact ⟨h, hlt, fun _ _ => ht2⟩
    · rw [if_neg ht2]
      by_cases hbusy : v.localBusy = true
      · rw [if_pos hbusy]
        exact ⟨h, hlt, fun _ hdebt => absurd ((hpaid _ _ _).symm.trans hdebt) (by decide)⟩
      · rw [if_neg hbusy]
        exact ⟨h, hlt, fun _ _ => rfl⟩

theorem receive (h : Owing v) (pf : Bool) (payload : List UInt8) : Owing (v.receive st pf payload) := by
  refine acknowledge ?_ (Nat.mod_lt _ (by decide)) pf
  have hnumber : (v.debt.1 + 1) % mod8 = (v.vr + 1) % mod8 := by rw [h.number]
  exact hnumber

theorem refuse (h : Owing v) (pf : Bool) : Owing (v.refuse st pf) := by
  unfold LinkView.refuse
  split_ifs
  · exact h.say st.crc _
  · exact h
  · have hexception : Owing { v with rejException := true } := ⟨h.number, h.vr_lt, h.due⟩
    exact hexception.pay _ _ _

theorem unnumbered {s : Ctx} {f : Received} (h : Owing (linkView s)) (hu : isUframe f.ctrl = true)
    (hstate : s.currentState = .connected) (hkept : ¬Dismisses (s, f)) :
    Owing ((linkView s).unnumbered st s f) := by
  have hdismissed (hcmd : uCmd f.ctrl = .ua ∨ uCmd f.ctrl = .unknown) : (debt s.trace).2 = false := by
    by_contra hdebt
    exact hkept ⟨hstate, by simpa using hdebt, hu, hcmd⟩
  have hstopped (hcmd : uCmd f.ctrl = .ua ∨ uCmd f.ctrl = .unknown) :
      Owing ((linkView s).stopT2.say st.crc (frmrFrame s f.ctrl frmrW)) :=
    (h.stopT2 fun _ => hdismissed hcmd).say st.crc _
  unfold LinkView.unnumbered
  cases hcmd : uCmd f.ctrl with
  | sabm => exact accept _ _
  | disc => exact ((fresh (linkView s)).say st.crc _).leave (by decide) _
  | dm | frmr => exact (fresh (linkView s)).leave (by decide) _
  | ui => exact ⟨h.number, h.vr_lt, h.due⟩
  | test =>
      simp only
      split_ifs
      · exact h.say st.crc _
      · cases f.info with
        | some payload => exact ⟨h.number, h.vr_lt, h.due⟩
        | none => exact h
  | snrm | sabme | snrme | sarme => exact h.say st.crc _
  | ua => exact hstopped (Or.inl hcmd)
  | unknown => exact hstopped (Or.inr hcmd)

/-- A frame leaves no acknowledgement to nobody. -/
theorem next {s : Ctx} {f : Received} (h : Owing (linkView s)) (hkept : ¬Dismisses (s, f)) :
    Owing ((linkView s).next st s f) := by
  have htell (v : LinkView) (hv : Owing v) (os : List Obs) : Owing (v.tell os) :=
    ⟨hv.number, hv.vr_lt, hv.due⟩
  unfold LinkView.next
  cases hstate : s.currentState with
  | disconnected =>
      cases isUframe f.ctrl with
      | false => exact h
      | true =>
          cases uCmd f.ctrl with
          | sabm => exact accept _ _
          | disc | snrm | sabme | snrme | sarme => exact h.say st.crc _
          | ui => exact htell _ h _
          | ua | dm | frmr | test | unknown => exact h
  | connecting =>
      cases isUframe f.ctrl with
      | false => exact h
      | true =>
          cases uCmd f.ctrl with
          | sabm | disc => exact h.say st.crc _
          | ua =>
              cases ctrlPf f.ctrl with
              | false => exact h
              | true => exact ⟨rfl, Nat.zero_lt_succ 7, fun _ hdebt => absurd hdebt Bool.false_ne_true⟩
          | dm =>
              cases ctrlPf f.ctrl with
              | false => exact h
              | true => exact h.leave (by decide) _
          | frmr | ui | test | snrm | sabme | snrme | sarme | unknown => exact h
  | disconnecting =>
      cases isUframe f.ctrl with
      | false =>
          cases ctrlPf f.ctrl with
          | false => exact h
          | true => exact h.say st.crc _
      | true =>
          cases uCmd f.ctrl with
          | sabm | sabme | disc => exact h.say st.crc _
          | ua | dm =>
              cases ctrlPf f.ctrl with
              | false => exact h
              | true => exact h.leave (by decide) _
          | frmr | ui | test | snrm | snrme | sarme | unknown => exact h
  | frmrError =>
      simp only
      split_ifs
      · exact accept _ _
      · exact h
  | connected =>
      rcases ctrl_cases f.ctrl with ⟨hi, -, hu⟩ | ⟨hi, -, hu⟩ | ⟨-, -, hu⟩
      · simp only [hi, hu, Bool.false_eq_true, if_false, if_true]
        split_ifs
        · exact (htell _ h _).receive _ _
        · exact (htell _ h _).refuse _
        · exact h.reject _
      · simp only [hi, hu, Bool.false_eq_true, if_false]
        have hpolled : Owing (((linkView s).busy st (ctrlS f.ctrl)).poll st (isCmd s f.address && ctrlPf f.ctrl)) :=
          (h.busy (ctrlS f.ctrl)).poll _
        split_ifs
        · exact htell _ hpolled _
        · exact hpolled.reject _
      · simp only [hu, if_true]
        exact h.unnumbered hu hstate hkept

end Owing

theorem dispatch_owing (hp : st.platform.Passive) {s : Ctx} {f : Received} (h : Owing (linkView s))
    (hkept : ¬Dismisses (s, f)) : Owing (linkView (f.dispatch st s)) := by
  rw [dispatchFrame_linkView hp]
  exact h.next hkept

theorem put_owing {s : Ctx} (h : Owing (linkView s)) (f : Frame) : Owing (linkView (s.put st f)) := by
  rw [linkView_put]
  exact h.say st.crc f

theorem setState_owing (hp : st.platform.Passive) {s : Ctx} (h : Owing (linkView s)) {state : State}
    (hne : state ≠ .connected) (event : Event) : Owing (linkView (setState st s state event)) := by
  rw [linkView_setState hp]
  split_ifs
  · exact h.leave hne event
  · exact h

theorem resetState_owing (s : Ctx) : Owing (linkView (resetState st s)) := by
  rw [linkView_resetState]
  exact Owing.fresh _

theorem t1Start_owing {s : Ctx} (h : Owing (linkView s)) : Owing (linkView (t1Start st s)) := by
  rw [linkView_t1Start]
  exact h

theorem sends_owing {s : Ctx} (h : Owing (linkView s)) {os : List Obs} (hplain : ∀ o ∈ os, Plain o) :
    Owing (linkView (s.logs os)) := by
  have hdebt : debt (s.trace ++ os) = debt s.trace := debt_append s.trace hplain
  refine ⟨?_, h.vr_lt, fun hstate hdue => h.due hstate ?_⟩
  · exact (congrArg Prod.fst hdebt).trans h.number
  · exact (congrArg Prod.snd hdebt).symm.trans hdue

theorem retransmitLoop_owing (w : TxWindow) (endVs fuel slotIdx : Nat) {s : Ctx} (h : Owing (linkView s)) :
    Owing (linkView (retransmitLoop st w endVs fuel slotIdx s)) := by
  induction fuel generalizing slotIdx s with
  | zero => exact h
  | succ fuel ih =>
      simp only [retransmitLoop, frameSend_octets]
      split_ifs
      · exact h
      · have hlogged : Owing (linkView (s.log (.slotRead slotIdx))) :=
          sends_owing h (show ∀ o ∈ [Obs.slotRead slotIdx], Plain o by simp [Plain])
        exact ih _ (s := { (s.log (.slotRead slotIdx)).put st _ with vs := _ }) (put_owing hlogged _)

theorem transmitU_owing {s : Ctx} (h : Owing (linkView s)) (ctrl address : UInt8) (data : Payload) :
    Owing (linkView (transmitU st s ctrl address data).2) := by
  rcases transmitU_cases st s ctrl address data with hsame | hput
  · rw [hsame]
    exact h
  · rw [hput]
    exact put_owing h _

/-- The I-frame of an accepted payload pays before T2 stops. -/
theorem acceptI_owing {w : TxWindow} {s : Ctx} (h : Owing (linkView s)) {data : Payload}
    (hdata : data.NonNull) : Owing (linkView (acceptI st w s data)) := by
  rw [acceptI_eq s hdata]
  extract_lets next logged stored sent stopped
  have hlogged : Owing (linkView logged) := sends_owing h (show ∀ o ∈ [Obs.accept data.read], Plain o by simp [Plain])
  have hsent : Owing (linkView sent) := put_owing hlogged _
  have hpaid : (linkView sent).debt.2 = false := by
    have hput : linkView sent = (linkView stored).say st.crc ⟨s.peerAddress, iCtrl s.vs s.vr false, data.read⟩ :=
      linkView_put stored _
    have hnumber : (linkView stored).debt.1 = s.vr := hlogged.number
    have hcarries : carries (iCtrl s.vs s.vr false) (linkView stored).debt.1 = true := by
      rw [hnumber]
      exact carries_iCtrl s.vs s.vr false h.vr_lt
    have hdebt : (linkView sent).debt.2 =
        ((linkView stored).debt.2 && !carries (iCtrl s.vs s.vr false) (linkView stored).debt.1) := by
      rw [hput]
      rfl
    rw [hdebt, hcarries, Bool.not_true, Bool.and_false]
  have hstopped : Owing (linkView stopped) := by
    have hview : linkView stopped = (linkView sent).stopT2 := linkView_t2Stop _
    rw [hview]
    exact hsent.stopT2 fun _ => hpaid
  split_ifs
  · exact t1Start_owing hstopped
  · exact hstopped

theorem t1Expired_owing {s : Ctx} (h : Owing (linkView s)) :
    Owing (linkView (t1Expired st s)) := by
  simp only [t1Expired, sendRr, sendRnr, sendU_eq, sendS_eq, retransmitFrmr_eq]
  have hcounted {state : State} (hstate : s.currentState = state) : Owing (linkView
      { s with currentState := state, t1Active := false, n2 := (s.n2 + 1) % 256 }) := by
    rw [← hstate]
    exact h
  by_cases hlost : st.config.maxRetries > 0 ∧ (s.n2 + 1) % 256 > st.config.maxRetries
  · rw [if_pos hlost]
    exact resetState_owing _
  · rw [if_neg hlost]
    cases hstate : s.currentState with
    | connecting | disconnecting | frmrError => exact t1Start_owing (put_owing (hcounted hstate) _)
    | connected =>
        simp only
        split_ifs
        · exact t1Start_owing (put_owing (hcounted hstate) _)
        · exact t1Start_owing (put_owing (hcounted hstate) _)
        · exact hcounted hstate
    | disconnected => exact hcounted hstate

/-- T2 pays what it was started for. -/
theorem t2Expired_owing {s : Ctx} (h : Owing (linkView s)) : Owing (linkView (t2Expired st s)) := by
  have hview (kind : Nat) (address : UInt8) :
      linkView ({ s with t2Active := false }.put st ⟨address, sCtrl kind s.vr false, []⟩) =
        ((linkView s).sayS st address kind false).stopT2 := linkView_put _ _
  simp only [t2Expired, sendRr, sendRnr, sendS_eq]
  split_ifs
  · exact (hview sRnr s.myAddress) ▸ h.pay s.myAddress sRnr false
  · exact (hview sRr s.peerAddress) ▸ h.pay s.peerAddress sRr false

/-- The calls that leave no acknowledgement to nobody are all but those whose chunk has a frame that
dismisses one. -/
def Settling (st : Station) (s : Ctx) : Call → Prop
  | .dataIn bytes => ∀ x ∈ chunkFrames st s bytes, ¬Dismisses x
  | _ => True

instance (s : Ctx) (call : Call) : Decidable (Settling st s call) :=
  match call with
  | .dataIn bytes => inferInstanceAs (Decidable (∀ x ∈ chunkFrames st s bytes, _))
  | .t1Expired | .t2Expired | .linkSetup _ | .disconnect | .linkReset | .abort | .setLocalBusy _
  | .transmitUi _ _ | .transmitTest _ _ | .transmitI _ | .transmitUiStart _ | .transmitUiData _
  | .transmitUiEnd => .isTrue trivial

theorem Call.owing (hp : st.platform.Passive) {s : Ctx} (h : Owing (linkView s)) {call : Call}
    (hlegal : call.Legal) (hsettling : Settling st s call) : Owing (linkView (call.run st s)) := by
  cases call with
  | t1Expired => exact t1Expired_owing h
  | t2Expired => exact t2Expired_owing h
  | linkSetup peerAddr =>
      simp only [run, AtcHdlc.linkSetup, sendU_eq]
      split_ifs
      · exact h
      · have haddressed : Owing (linkView { s with peerAddress := peerAddr }) := ⟨h.number, h.vr_lt, h.due⟩
        exact setState_owing hp (t1Start_owing (put_owing haddressed _)) (by decide) _
  | disconnect =>
      simp only [run, AtcHdlc.disconnect, sendU_eq]
      split_ifs
      · exact h
      · exact setState_owing hp (t1Start_owing (put_owing h _)) (by decide) _
  | linkReset =>
      simp only [run, AtcHdlc.linkReset, sendU_eq]
      exact setState_owing hp (t1Start_owing (put_owing (resetState_owing s) _)) (by decide) _
  | abort =>
      have hreset := @resetState_owing st ((s.log (.send flag false)).log (.send flag true))
      exact ⟨hreset.number, hreset.vr_lt, fun hstate _ => absurd hstate (by simp [run, AtcHdlc.abort, linkView])⟩
  | setLocalBusy busy =>
      simp only [run, AtcHdlc.setLocalBusy, sendRr, sendS_eq]
      split_ifs
      · exact h
      · exact ⟨h.number, h.vr_lt, h.due⟩
      · have hready : Owing (linkView { s with localBusy := false }) := ⟨h.number, h.vr_lt, h.due⟩
        exact put_owing hready _
      · exact h
  | dataIn bytes =>
      have hread : Owing (linkView (rxBytes st s bytes)) :=
        rxBytes_frames st (P := fun s => Owing (linkView s)) (K := fun x => ¬Dismisses x)
          (fun _ _ hs => hs) (fun _ _ hs hkept => dispatch_owing hp hs hkept) h hsettling
      simp only [run, AtcHdlc.dataIn, retransmitIfPending]
      split_ifs
      · cases st.txWindow with
        | none => exact sends_owing hread (show ∀ o ∈ [Obs.nullWindow], Plain o by simp [Plain])
        | some w => exact t1Start_owing (retransmitLoop_owing w _ 8 _ (s := { rxBytes st s bytes with
            retransmitPending := false, vs := (rxBytes st s bytes).retransmitFrom }) hread)
      · exact hread
  | transmitUi address data => exact transmitU_owing h _ address data
  | transmitTest address data => exact transmitU_owing h _ address data
  | transmitI data =>
      rcases @transmitI_cases st s data with hsame | ⟨w, -, -, -, -, -, haccepted⟩
      · simp only [run, hsame]
        exact h
      · simp only [run, haccepted]
        exact acceptI_owing h hlegal
  | transmitUiStart address =>
      simp only [run, AtcHdlc.transmitUiStart, frameBegin_eq]
      have hbegun (octets : List UInt8) : debt (s.trace ++ .frame address (uCtrl uUi false) s.moment ::
          octets.map (.send · false)) =
          ((debt s.trace).1, (debt s.trace).2 && !carries (uCtrl uUi false) (debt s.trace).1) := by
        rw [List.append_cons, debt_append _ (plain_sends octets), debt, List.foldl_append]
        rfl
      refine ⟨(congrArg Prod.fst (hbegun _)).trans h.number, h.vr_lt, fun hstate hdue => ?_⟩
      have hboth := (congrArg Prod.snd (hbegun _)).symm.trans hdue
      exact h.due hstate (Bool.and_eq_true _ _ ▸ hboth).1
  | transmitUiData data =>
      simp only [run, AtcHdlc.transmitUiData, emitAll_eq]
      split_ifs
      · exact h
      · exact sends_owing h (plain_sends _)
  | transmitUiEnd =>
      simp only [run, AtcHdlc.transmitUiEnd, frameEnd_eq]
      refine sends_owing h fun o ho => ?_
      rcases List.mem_append.mp ho with ho | ho
      · exact plain_sends _ o ho
      · rw [List.mem_singleton.mp ho]
        trivial

theorem ReachableBy.owing (hp : st.platform.Passive) {mem : Memory} {s : Ctx}
    (h : ReachableBy st mem (Settling st) s) : Owing (linkView s) := by
  induction h with
  | init => exact ⟨rfl, Nat.zero_lt_succ 7, fun _ hdebt => absurd hdebt Bool.false_ne_true⟩
  | call call _ hlegal hsettling ih => exact Call.owing hp ih hlegal hsettling

/-- An I-frame that no frame with the N(R) of the end has answered is owed at the end. -/
theorem debt_of_unanswered (d : Nat) {post : List Obs} (hsession : .reset ∉ post)
    (hunsent : ∀ x ∈ marks post, carries x.1 (post.foldl debtStep (d, true)).1 = false) :
    (post.foldl debtStep (d, true)).2 = true := by
  induction post using List.reverseRecOn with
  | nil => rfl
  | append_singleton post o ih =>
      have hmarks : marks (post ++ [o]) = marks post ++ marks [o] := List.filterMap_append
      rw [List.foldl_append, hmarks, List.forall_mem_append] at hunsent
      rw [List.foldl_append]
      have hsession' : .reset ∉ post := fun hmem => hsession (List.mem_append_left _ hmem)
      have hkept (hsame : (debtStep (post.foldl debtStep (d, true)) o).1 = (post.foldl debtStep (d, true)).1) :
          (post.foldl debtStep (d, true)).2 = true := by
        refine ih hsession' ?_
        rw [← hsame]
        exact hunsent.1
      cases o with
      | reset => exact absurd (List.mem_append_right _ List.mem_cons_self) hsession
      | received payload => rfl
      | frame address ctrl m =>
          have hsilent : carries ctrl (post.foldl debtStep (d, true)).1 = false :=
            hunsent.2 (ctrl, m) List.mem_cons_self
          have hstep : (debtStep (post.foldl debtStep (d, true)) (.frame address ctrl m)).2 =
              ((post.foldl debtStep (d, true)).2 && !carries ctrl (post.foldl debtStep (d, true)).1) := rfl
          rw [List.foldl_cons, List.foldl_nil, hstep, hkept rfl, hsilent]
          rfl
      | _ => exact hkept rfl

/-- In every run whose frames dismiss no acknowledgement, T2 runs in CONNECTED while an I-frame is accepted
that no numbered frame with the current V(R) has answered since. -/
theorem unanswered_scheduled (hp : st.platform.Passive) {mem : Memory} {s : Ctx}
    (h : ReachableBy st mem (Settling st) s) (hstate : s.currentState = .connected) {pre post : List Obs}
    {payload : List UInt8} (htrace : s.trace = pre ++ .received payload :: post)
    (hsession : .reset ∉ post) (hunsent : ∀ x ∈ marks post, carries x.1 s.vr = false) :
    s.t2Active = true := by
  have howing := h.owing hp
  have hdebt : debt s.trace = post.foldl debtStep (((debt pre).1 + 1) % mod8, true) := by
    rw [htrace, debt, List.foldl_append]
    rfl
  have hnumber : (post.foldl debtStep (((debt pre).1 + 1) % mod8, true)).1 = s.vr := by
    rw [← hdebt]
    exact howing.number
  refine howing.due hstate ?_
  have hdue : (debt s.trace).2 = true := by
    rw [hdebt]
    refine debt_of_unanswered _ hsession ?_
    rw [hnumber]
    exact hunsent
  exact hdue

/-- An I-frame in a session of the mock set-up. -/
def oneAccepted : Ctx :=
  mockRun [.linkSetup 0x02, .dataIn (Frame.octets crcOpsDefault ⟨0x02, uCtrl uUa true, []⟩),
    .dataIn (Frame.octets crcOpsDefault ⟨0x01, iCtrl 0 0 false, [0x55]⟩)]

/-- T2 runs for it. -/
theorem unanswered_scheduled_mock : oneAccepted.t2Active = true := by
  have hsettling : Along (mockStation 0x01 3 (by decide) (by decide))
      (Settling (mockStation 0x01 3 (by decide) (by decide)))
      (initCtx (mockStation 0x01 3 (by decide) (by decide)) zeroMemory)
      [.linkSetup 0x02, .dataIn (Frame.octets crcOpsDefault ⟨0x02, uCtrl uUa true, []⟩),
        .dataIn (Frame.octets crcOpsDefault ⟨0x01, iCtrl 0 0 false, [0x55]⟩)] := by
    decide +kernel
  have htrace : oneAccepted.trace = oneAccepted.trace.takeWhile (· != .received [0x55]) ++
      .received [0x55] :: [.data [0x55], .t2Start 10] := by
    decide +kernel
  refine unanswered_scheduled mockPlatform_passive (ReachableBy.init.foldl (by simp [Call.Legal]) hsettling)
    (by decide +kernel) htrace (by simp) (by simp [marks])

/-- A second UA after the I-frame. -/
def dismissed : Ctx :=
  mockRun [.linkSetup 0x02, .dataIn (Frame.octets crcOpsDefault ⟨0x02, uCtrl uUa true, []⟩),
    .dataIn (Frame.octets crcOpsDefault ⟨0x01, iCtrl 0 0 false, [0x55]⟩),
    .dataIn (Frame.octets crcOpsDefault ⟨0x02, uCtrl uUa true, []⟩)]

/-- The FRMR stops T2, and the station stays CONNECTED with an I-frame that no numbered frame answers. -/
theorem ua_dismisses_acknowledgement :
    let pre := dismissed.trace.takeWhile (· != .received [0x55])
    let post := (dismissed.trace.dropWhile (· != .received [0x55])).tail
    Reachable (mockStation 0x01 3 (by decide) (by decide)) zeroMemory dismissed ∧
      dismissed.currentState = .connected ∧ dismissed.trace = pre ++ .received [0x55] :: post ∧
      .reset ∉ post ∧ (∀ x ∈ marks post, carries x.1 dismissed.vr = false) ∧
      dismissed.t2Active = false :=
  ⟨mockRun_reachable (by simp [Call.Legal]), by decide +kernel⟩

end Owing

end AtcHdlc
