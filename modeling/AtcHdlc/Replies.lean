import AtcHdlc.Polls
import AtcHdlc.World

/-! The frames that a station puts on the line when it reads one. `Replies` says of two views that some frames
have gone out between them, and that all of them have a property; what a property must grant for the answers
to a frame to have it is found here once, by the cases of the dispatch. -/

namespace AtcHdlc

/-- The frame is no SABM. -/
def NoSabm (ctrl : UInt8) : Prop := isUframe ctrl = true → uCmd ctrl ≠ .sabm

theorem noSabm_numbered {ctrl : UInt8} (h : isUframe ctrl = false) : NoSabm ctrl :=
  fun hu => absurd (hu.symm.trans h) (by decide)

theorem noSabm_sCtrl (kind nr : Nat) (pf : Bool) : NoSabm (sCtrl kind nr pf) := by
  refine noSabm_numbered (Bool.eq_false_iff.mpr fun hu => ?_)
  exact absurd ((uCtrl_kind hu).2.symm.trans (sCtrl_kind kind nr pf).1) (by decide)

theorem noSabm_iCtrl (ns nr : Nat) (pf : Bool) : NoSabm (iCtrl ns nr pf) := by
  refine noSabm_numbered (Bool.eq_false_iff.mpr fun hu => ?_)
  exact absurd ((uCtrl_kind hu).1.symm.trans (iCtrl_kind ns nr pf).1) (by decide)

theorem noSabm_uCtrl {cmd : UInt8} (hcmd : cmd = uUa ∨ cmd = uDm ∨ cmd = uTest ∨ cmd = uFrmr) (pf : Bool) :
    NoSabm (uCtrl cmd pf) := by
  unfold NoSabm
  rcases hcmd with rfl | rfl | rfl | rfl <;> cases pf <;> decide

/-- A received frame that is answered with a FRMR: no such command, or an N(R) outside of the window. -/
def DrawsFrmr (s : Ctx) (f : Received) : Prop :=
  s.currentState = .connected ∧
    if isUframe f.ctrl then uCmd f.ctrl = .ua ∨ uCmd f.ctrl = .unknown else nrValid s (ctrlNr f.ctrl) = false

/-- A received frame that is answered with a REJ: an I-frame out of sequence, the first one since V(R). -/
def DrawsRej (s : Ctx) (f : Received) : Prop :=
  s.currentState = .connected ∧ isIframe f.ctrl = true ∧ nrValid s (ctrlNr f.ctrl) = true ∧
    ctrlNs f.ctrl ≠ s.vr ∧ s.rejException = false

/-- A received frame that is sent back: a TEST command. -/
def DrawsEcho (s : Ctx) (f : Received) : Prop :=
  s.currentState = .connected ∧ isUframe f.ctrl = true ∧ uCmd f.ctrl = .test ∧ isCmd s f.address = true

instance (s : Ctx) (f : Received) : Decidable (DrawsFrmr s f) := inferInstanceAs (Decidable (_ ∧ ite _ _ _))

instance (s : Ctx) (f : Received) : Decidable (DrawsRej s f) := inferInstanceAs (Decidable (_ ∧ _ ∧ _ ∧ _ ∧ _))

instance (s : Ctx) (f : Received) : Decidable (DrawsEcho s f) := inferInstanceAs (Decidable (_ ∧ _ ∧ _ ∧ _))

/-- What a property of frames must grant for the answers to a frame to have it. The answers of four octets
carry the own address, all but the REJ. -/
structure Grants (P : Frame → Prop) (s : Ctx) (f : Received) : Prop where
  short : ∀ ctrl, NoSabm ctrl → P ⟨s.myAddress, ctrl, []⟩
  rej : DrawsRej s f → P ⟨s.peerAddress, sCtrl sRej s.vr (ctrlPf f.ctrl), []⟩
  frmr : DrawsFrmr s f → ∀ flags, P (frmrFrame s f.ctrl flags)
  echo : DrawsEcho s f → P ⟨s.myAddress, uCtrl uTest (ctrlPf f.ctrl), f.info.getD []⟩

namespace LinkView

variable {st : Station} {P : Frame → Prop} {v v' v'' : LinkView}

/-- Between two views some frames have gone out, and all of them have a property. -/
def Replies (st : Station) (P : Frame → Prop) (v v' : LinkView) : Prop :=
  ∃ l : List (Frame × Moment), v'.line = v.line ++ l.flatMap (fun x => x.1.obs st.crc x.2) ∧ ∀ x ∈ l, P x.1

theorem Replies.silent (h : v'.line = v.line) : Replies st P v v' :=
  ⟨[], by rw [h, List.flatMap_nil, List.append_nil], by simp⟩

theorem Replies.say (v : LinkView) {f : Frame} (hf : P f) : Replies st P v (v.say st.crc f) := by
  refine ⟨[(f, v.moment)], ?_, fun x hx => ?_⟩
  · rw [List.flatMap_singleton]
    rfl
  · rw [List.mem_singleton.mp hx]
    exact hf

theorem Replies.of_line (h : Replies st P v v') (hline : v''.line = v.line) : Replies st P v'' v' := by
  obtain ⟨l, hl, hall⟩ := h
  exact ⟨l, hline ▸ hl, hall⟩

theorem Replies.trans (h : Replies st P v v') (h' : Replies st P v' v'') : Replies st P v v'' := by
  obtain ⟨l, hl, hall⟩ := h
  obtain ⟨r, hr, hall'⟩ := h'
  refine ⟨l ++ r, ?_, fun x hx => ?_⟩
  · rw [hr, hl, List.flatMap_append, List.append_assoc]
  · rcases List.mem_append.mp hx with hx | hx
    · exact hall x hx
    · exact hall' x hx

theorem Replies.wires (h : Replies st P v v') :
    ∃ fs : List Frame, AtcHdlc.wires v'.line = AtcHdlc.wires v.line ++ fs.map (Frame.wire st.crc) ∧ ∀ f ∈ fs, P f := by
  obtain ⟨l, hl, hall⟩ := h
  refine ⟨l.map Prod.fst, ?_, List.forall_mem_map.mpr hall⟩
  rw [hl]
  generalize v.line = line
  clear hl hall
  induction l generalizing line with
  | nil => simp
  | cons x l ih =>
      rw [List.flatMap_cons, ← List.append_assoc, ih, wires_obs, List.map_cons, List.map_cons, List.append_assoc]
      rfl

theorem Replies.octets (h : Replies st P v v') :
    ∃ fs : List Frame, sentOctets v'.line = sentOctets v.line ++ fs.flatMap (Frame.octets st.crc) ∧ ∀ f ∈ fs, P f := by
  obtain ⟨l, hl, hall⟩ := h
  refine ⟨l.map Prod.fst, ?_, List.forall_mem_map.mpr hall⟩
  have hsent : sentOctets (l.flatMap fun x => x.1.obs st.crc x.2) = l.flatMap fun x => x.1.octets st.crc := by
    rw [sentOctets, List.filterMap_flatMap]
    exact List.flatMap_congr fun x _ => sentOctets_obs st.crc x.2 x.1
  rw [hl, List.flatMap_map, ← hsent]
  exact List.filterMap_append

section Short

variable (v : LinkView) (hshort : ∀ ctrl, NoSabm ctrl → P ⟨v.myAddress, ctrl, []⟩)
include hshort

theorem replies_sayUa (pf : Bool) : Replies st P v (v.sayUa st pf) :=
  .say v (hshort _ (noSabm_uCtrl (Or.inl rfl) pf))

theorem replies_sayDm (pf : Bool) : Replies st P v (v.sayDm st pf) :=
  .say v (hshort _ (noSabm_uCtrl (Or.inr (Or.inl rfl)) pf))

theorem replies_accept (pf : Bool) : Replies st P v (v.accept st pf) :=
  .say v.fresh (hshort _ (noSabm_uCtrl (Or.inl rfl) pf))

theorem replies_sayS (kind : Nat) (pf : Bool) : Replies st P v (v.sayS st v.myAddress kind pf) :=
  .say v (hshort _ (noSabm_sCtrl kind v.vr pf))

theorem replies_acknowledge (pf : Bool) : Replies st P v (v.acknowledge st pf) := by
  unfold acknowledge
  by_cases hpf : pf = true
  · rw [if_pos hpf]
    exact replies_sayS _ hshort _ _
  · rw [if_neg hpf]
    split_ifs
    · exact .silent rfl
    · exact replies_sayS _ hshort _ _
    · exact .silent rfl

theorem replies_refuse (pf : Bool) (hrej : v.rejException = false → P ⟨v.peerAddress, sCtrl sRej v.vr pf, []⟩) :
    Replies st P v (v.refuse st pf) := by
  unfold refuse
  split_ifs with hexception
  · exact replies_sayS _ hshort _ _
  · exact .silent rfl
  · exact .say { v with rejException := true } (hrej (Bool.eq_false_iff.mpr hexception))

theorem replies_poll (kind : Nat) (polled : Bool) : Replies st P v ((v.busy st kind).poll st polled) := by
  have hbusy : Replies st P v (v.busy st kind) := .silent (line_busy v kind)
  unfold poll
  split_ifs
  · refine hbusy.trans (replies_sayS _ (fun ctrl hctrl => ?_) _ _)
    rw [myAddress_busy]
    exact hshort ctrl hctrl
  · exact hbusy

end Short

theorem replies_reject (v : LinkView) {frmr : Frame} (hfrmr : P frmr) : Replies st P v (v.reject st frmr) :=
  .say v.stopT2 hfrmr

variable {s : Ctx} {f : Received}

theorem replies_unnumbered (h : Grants P s f) (hstate : s.currentState = .connected) (hu : isUframe f.ctrl = true) :
    Replies st P (linkView s) ((linkView s).unnumbered st s f) := by
  have hfrmr (hcmd : uCmd f.ctrl = .ua ∨ uCmd f.ctrl = .unknown) : P (frmrFrame s f.ctrl frmrW) := by
    refine h.frmr ⟨hstate, ?_⟩ frmrW
    rw [hu, if_pos rfl]
    exact hcmd
  unfold unnumbered
  cases hcmd : uCmd f.ctrl with
  | sabm => exact replies_accept (linkView s) h.short _
  | disc => exact replies_sayUa (linkView s).fresh h.short _
  | test =>
      by_cases hisCmd : isCmd s f.address = true
      · simp only [hisCmd, if_true]
        exact .say _ (h.echo ⟨hstate, hu, hcmd, hisCmd⟩)
      · simp only [hisCmd]
        cases f.info <;> exact .silent rfl
  | snrm | sabme | snrme | sarme => exact replies_sayDm (linkView s) h.short _
  | ua => exact .say (linkView s).stopT2 (hfrmr (Or.inl hcmd))
  | unknown => exact .say (linkView s).stopT2 (hfrmr (Or.inr hcmd))
  | _ => exact .silent rfl

theorem replies_connected (h : Grants P s f) (hstate : s.currentState = .connected) :
    Replies st P (linkView s) ((linkView s).next st s f) := by
  have hreject (hu : isUframe f.ctrl ≠ true) (hvalid : nrValid s (ctrlNr f.ctrl) ≠ true) :
      P (frmrFrame s f.ctrl frmrZ) := by
    refine h.frmr ⟨hstate, ?_⟩ frmrZ
    rw [if_neg hu]
    exact Bool.eq_false_iff.mpr hvalid
  unfold next
  simp only [hstate]
  split_ifs with hu hi hvalid hseq hvalid
  · exact replies_unnumbered h hstate hu
  · exact (replies_acknowledge _ h.short _).of_line rfl
  · refine (replies_refuse _ h.short _ fun hexception => h.rej ?_).of_line rfl
    exact ⟨hstate, hi, hvalid, hseq, hexception⟩
  · exact replies_reject _ (hreject hu hvalid)
  · exact replies_poll (linkView s) h.short _ _
  · exact (replies_poll (linkView s) h.short _ _).trans (replies_reject _ (hreject hu hvalid))

/-- The answers to a frame have the property that grants them. -/
theorem replies_next (h : Grants P s f) : Replies st P (linkView s) ((linkView s).next st s f) := by
  cases hstate : s.currentState with
  | connected => exact replies_connected h hstate
  | disconnected =>
      unfold next
      simp only [hstate]
      cases isUframe f.ctrl with
      | false => exact .silent rfl
      | true =>
          cases uCmd f.ctrl with
          | sabm => exact replies_accept (linkView s) h.short _
          | disc => exact replies_sayUa (linkView s) h.short _
          | snrm | sabme | snrme | sarme => exact replies_sayDm (linkView s) h.short _
          | _ => exact .silent rfl
  | connecting =>
      unfold next
      simp only [hstate]
      cases isUframe f.ctrl with
      | false => exact .silent rfl
      | true =>
          cases uCmd f.ctrl with
          | sabm => exact replies_sayUa (linkView s) h.short _
          | disc => exact replies_sayDm (linkView s) h.short _
          | ua | dm => cases ctrlPf f.ctrl <;> exact .silent rfl
          | _ => exact .silent rfl
  | disconnecting =>
      unfold next
      simp only [hstate]
      cases isUframe f.ctrl with
      | false =>
          cases ctrlPf f.ctrl with
          | false => exact .silent rfl
          | true => exact replies_sayDm (linkView s) h.short true
      | true =>
          cases uCmd f.ctrl with
          | sabm | sabme => exact replies_sayDm (linkView s) h.short _
          | disc => exact replies_sayUa (linkView s) h.short _
          | ua | dm => cases ctrlPf f.ctrl <;> exact .silent rfl
          | _ => exact .silent rfl
  | frmrError =>
      unfold next
      simp only [hstate]
      split_ifs
      · exact replies_accept (linkView s) h.short _
      · exact .silent rfl

end LinkView

/-- What goes out while some octets are read: the answers to their frames. -/
theorem rxBytes_replies {st : Station} {P : Frame → Prop} (hp : st.platform.Passive) (s : Ctx) {bytes : List UInt8}
    (hgrants : ∀ x ∈ chunkFrames st s bytes, x.1.myAddress = s.myAddress → Grants P x.1 x.2) :
    LinkView.Replies st P (linkView s) (linkView (rxBytes st s bytes)) := by
  refine (rxBytes_frames st
    (P := fun t => LinkView.Replies st P (linkView s) (linkView t) ∧ t.myAddress = s.myAddress)
    (K := fun x => x.1.myAddress = s.myAddress → Grants P x.1 x.2)
    (fun _ _ ht => ht) (fun t f ht hf => ⟨?_, ?_⟩) ⟨.silent rfl, rfl⟩ hgrants).1
  · rw [dispatchFrame_linkView hp]
    exact ht.1.trans (LinkView.replies_next (hf ht.2))
  · have hview := filterView_dispatchFrame (hp.preserves filterView) t f.address f.ctrl f.info
    exact (congrArg FilterView.myAddress hview).trans ht.2

end AtcHdlc
