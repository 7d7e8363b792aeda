import AtcHdlc.Passive
import AtcHdlc.Transfer

/-! Lines of octets under channels of frames. Two stations read what the other one has given to `on_send`, in
order and in chunks of any size, cut anywhere. What they do is what two stations do that hand each other whole
frames: a frame arrives with the chunk in which its closing flag is, and nothing but the parser's own fields
tells the one from the other. What is known about channels of frames holds on lines of octets by this. -/

namespace AtcHdlc

/-- A context without the parser's own fields. -/
def unparsed (s : Ctx) : Ctx := { s with rxState := .hunt, rxIndex := 0, rxCrc := 0, rxBuffer := fun _ => 0 }

/-- The parser's own fields. -/
def parsing (s : Ctx) : RxState × Nat × UInt16 × (Nat → UInt8) := (s.rxState, s.rxIndex, s.rxCrc, s.rxBuffer)

section Unparsed

variable {st : Station}

theorem keeping_unparsed {f : Ctx → Ctx} (h : ∀ s, unparsed (f s) = f (unparsed s)) :
    Keeping (fun s t => unparsed s = unparsed t) f := by
  intro s t hst
  calc unparsed (f s) = f (unparsed s) := h s
    _ = f (unparsed t) := congrArg f hst
    _ = unparsed (f t) := (h t).symm

theorem unparsed_resetState (s : Ctx) : unparsed (resetState st s) = resetState st (unparsed s) := by
  have hlens : (clearSlotLens st (unparsed s)).slotLens = (clearSlotLens st s).slotLens := by
    unfold clearSlotLens
    cases st.txWindow <;> rfl
  rw [resetState_eq, resetState_eq, hlens]
  rfl

theorem unparsed_onEvent (hp : st.platform.Passive) (s : Ctx) (event : Event) :
    unparsed (onEvent st s event) = onEvent st (unparsed s) event := by
  rw [onEvent_passive hp, onEvent_passive hp]
  rfl

/-- No handler looks at the parser's fields. -/
theorem unparsed_congruence (hp : st.platform.Passive) : Congruence st fun s t => unparsed s = unparsed t where
  control {s t} h := (congrArg controlView h : controlView (unparsed s) = controlView (unparsed t))
  put f _ := keeping_unparsed fun _ => rfl
  t1Start := keeping_unparsed fun _ => rfl
  t1Stop := keeping_unparsed fun _ => rfl
  t2Start := keeping_unparsed fun _ => rfl
  t2Stop := keeping_unparsed fun _ => rfl
  data payload := keeping_unparsed fun s => by
    rw [onData_passive hp, onData_passive hp]
    rfl
  event event := keeping_unparsed fun s => unparsed_onEvent hp s event
  dispatch r := keeping_unparsed fun _ => rfl
  link state := keeping_unparsed fun _ => rfl
  reset := keeping_unparsed unparsed_resetState
  ack nr := keeping_unparsed fun _ => rfl
  nullWindow := keeping_unparsed fun _ => rfl
  receive payload := keeping_unparsed fun _ => rfl
  rejException := keeping_unparsed fun _ => rfl
  remoteBusy busy := keeping_unparsed fun _ => rfl
  arm fromSeq := keeping_unparsed fun _ => rfl
  frmr ctrl flags := by
    simp only [retransmitFrmr_eq]
    exact keeping_unparsed fun _ => rfl

theorem unparsed_setState (hp : st.platform.Passive) (s : Ctx) (newState : State) (event : Event) :
    unparsed (setState st s newState event) = setState st (unparsed s) newState event := by
  simp only [setState]
  by_cases h : s.currentState ≠ newState ∨ event = .connReq
  · have h' : (unparsed s).currentState ≠ newState ∨ event = .connReq := h
    rw [if_pos h, if_pos h', unparsed_onEvent hp]
    rfl
  · have h' : ¬((unparsed s).currentState ≠ newState ∨ event = .connReq) := h
    rw [if_neg h, if_neg h']

theorem unparsed_ite {c : Prop} [Decidable c] {s t s' t' : Ctx} (hs : unparsed s = s') (ht : unparsed t = t') :
    unparsed (if c then s else t) = if c then s' else t' := by
  split_ifs
  · exact hs
  · exact ht

theorem unparsed_t1Expired (hp : st.platform.Passive) (s : Ctx) :
    unparsed (t1Expired st s) = t1Expired st (unparsed s) := by
  simp only [t1Expired, sendRr, sendRnr, sendU_eq, sendS_eq, retransmitFrmr_eq]
  refine unparsed_ite ?_ ?_
  · rw [unparsed_resetState, unparsed_setState hp]
    rfl
  · cases hstate : s.currentState with
    | connected =>
        have hstate' : (unparsed s).currentState = .connected := hstate
        simp only [hstate']
        refine unparsed_ite (c := s.va ≠ s.vs) ?_ rfl
        by_cases hbusy : s.localBusy = true
        · have hbusy' : (unparsed s).localBusy = true := hbusy
          rw [if_pos hbusy, if_pos hbusy']
          rfl
        · have hbusy' : ¬(unparsed s).localBusy = true := hbusy
          rw [if_neg hbusy, if_neg hbusy']
          rfl
    | _ =>
        have hstate' : (unparsed s).currentState = _ := hstate
        simp only [hstate']
        rfl

theorem unparsed_retransmitLoop (w : TxWindow) (endVs fuel slotIdx : Nat) (s : Ctx) :
    unparsed (retransmitLoop st w endVs fuel slotIdx s) = retransmitLoop st w endVs fuel slotIdx (unparsed s) := by
  induction fuel generalizing slotIdx s with
  | zero => rfl
  | succ fuel ih =>
      simp only [retransmitLoop, frameSend_octets]
      refine unparsed_ite (c := s.vs = endVs) rfl ?_
      rw [ih]
      rfl

theorem unparsed_retransmitIfPending (s : Ctx) :
    unparsed (retransmitIfPending st s) = retransmitIfPending st (unparsed s) := by
  unfold retransmitIfPending
  refine unparsed_ite (c := s.retransmitPending = true) ?_ rfl
  cases st.txWindow with
  | none => rfl
  | some w =>
      simp only [retransmitOutstanding]
      show t1Start st (unparsed (retransmitLoop st w _ 8 _ _)) = _
      rw [unparsed_retransmitLoop]
      rfl

theorem unparsed_ite_snd {c : Prop} [Decidable c] {x y x' y' : Error × Ctx} (hx : unparsed x.2 = x'.2)
    (hy : unparsed y.2 = y'.2) : unparsed (if c then x else y).2 = (if c then x' else y').2 := by
  split_ifs
  · exact hx
  · exact hy

theorem unparsed_transmitI (s : Ctx) {data : Payload} (hdata : data.NonNull) :
    unparsed (transmitI st s data).2 = (transmitI st (unparsed s) data).2 := by
  unfold transmitI
  refine unparsed_ite_snd (c := s.currentState ≠ .connected) rfl ?_
  refine unparsed_ite_snd (c := s.remoteBusy = true) rfl ?_
  cases st.txWindow with
  | none => rfl
  | some w =>
      refine unparsed_ite_snd rfl (unparsed_ite_snd rfl (unparsed_ite_snd (c := outstanding s ≥ w.slotCount) rfl ?_))
      simp only [acceptI_eq _ hdata]
      exact unparsed_ite (c := outstanding s = 0) rfl rfl

theorem unparsed_transmitU (s : Ctx) (ctrl address : UInt8) (data : Payload) :
    unparsed (transmitU st s ctrl address data).2 = (transmitU st (unparsed s) ctrl address data).2 := by
  unfold transmitU
  by_cases hnull : data.isNull = true ∧ 0 < data.len
  · rw [if_pos hnull, if_pos hnull]
  · simp only [if_neg hnull, frameSend_of_nonNull st _ address ctrl (Payload.nonNull_iff.mpr hnull)]
    exact unparsed_ite_snd rfl rfl

/-- No call looks at the parser's fields, but the one that runs the parser. -/
theorem Call.run_unparsed (hp : st.platform.Passive) (s : Ctx) {c : Call} (hlegal : c.Legal)
    (hin : ∀ bytes, c ≠ .dataIn bytes) :
    unparsed (c.run st s) = c.run st (unparsed s) := by
  cases c with
  | dataIn bytes => exact absurd rfl (hin bytes)
  | t1Expired => exact unparsed_t1Expired hp s
  | t2Expired =>
      simp only [run, AtcHdlc.t2Expired, sendRr, sendRnr, sendS_eq]
      exact unparsed_ite (c := s.localBusy = true) rfl rfl
  | linkSetup peerAddr =>
      simp only [run, AtcHdlc.linkSetup, sendU_eq]
      exact unparsed_ite_snd (c := s.currentState ≠ .disconnected) rfl (unparsed_setState hp _ _ _)
  | disconnect =>
      simp only [run, AtcHdlc.disconnect, sendU_eq]
      exact unparsed_ite_snd (c := s.currentState ≠ .connected ∧ s.currentState ≠ .frmrError) rfl
        (unparsed_setState hp _ _ _)
  | linkReset =>
      simp only [run, AtcHdlc.linkReset, sendU_eq]
      rw [unparsed_setState hp, ← unparsed_resetState]
      rfl
  | abort =>
      have hreset := @unparsed_resetState st ((s.log (.send flag false)).log (.send flag true))
      show _ = { resetState st (unparsed ((s.log (.send flag false)).log (.send flag true))) with
        rxState := .hunt, currentState := .disconnected }
      rw [← hreset]
      rfl
  | setLocalBusy busy =>
      simp only [run, AtcHdlc.setLocalBusy, sendRr, sendS_eq]
      refine unparsed_ite_snd (c := s.currentState ≠ .connected) rfl ?_
      refine unparsed_ite_snd (c := busy = true ∧ ¬s.localBusy = true) rfl ?_
      exact unparsed_ite_snd (c := ¬busy = true ∧ s.localBusy = true) rfl rfl
  | transmitUi address data | transmitTest address data => exact unparsed_transmitU s _ address data
  | transmitI data => exact unparsed_transmitI s hlegal
  | transmitUiStart address =>
      simp only [run, AtcHdlc.transmitUiStart, frameBegin_eq]
      rfl
  | transmitUiData data =>
      simp only [run, AtcHdlc.transmitUiData, emitAll_eq]
      exact unparsed_ite rfl rfl
  | transmitUiEnd =>
      simp only [run, AtcHdlc.transmitUiEnd, frameEnd_eq]
      rfl

theorem trace_of_same {s t : Ctx} (h : unparsed s = unparsed t) : s.trace = t.trace :=
  (congrArg Ctx.trace h : (unparsed s).trace = (unparsed t).trace)

/-- Equal but for the parser's fields, two contexts stay so with every call but those that run the parser. -/
theorem Call.same (hp : st.platform.Passive) {s t : Ctx} (h : unparsed s = unparsed t) {c : Call} (hlegal : c.Legal)
    (hin : ∀ bytes, c ≠ .dataIn bytes) : unparsed (c.run st s) = unparsed (c.run st t) := by
  rw [Call.run_unparsed hp s hlegal hin, Call.run_unparsed hp t hlegal hin, h]

theorem retransmitIfPending_same {s t : Ctx} (h : unparsed s = unparsed t) :
    unparsed (retransmitIfPending st s) = unparsed (retransmitIfPending st t) := by
  rw [unparsed_retransmitIfPending, unparsed_retransmitIfPending, h]

theorem parsing_onEvent (hp : st.platform.Passive) (s : Ctx) (event : Event) :
    parsing (onEvent st s event) = parsing s := by
  rw [onEvent_passive hp]
  rfl

theorem parsing_resetState (s : Ctx) : parsing (resetState st s) = parsing s := by
  rw [resetState_eq]
  rfl

theorem parsing_retransmitLoop (w : TxWindow) (endVs fuel slotIdx : Nat) (s : Ctx) :
    parsing (retransmitLoop st w endVs fuel slotIdx s) = parsing s := by
  induction fuel generalizing slotIdx s with
  | zero => rfl
  | succ fuel ih =>
      simp only [retransmitLoop, frameSend_octets]
      split_ifs
      · rfl
      · exact ih _ _

theorem parsing_retransmitIfPending (s : Ctx) : parsing (retransmitIfPending st s) = parsing s := by
  unfold retransmitIfPending
  split_ifs
  · cases st.txWindow with
    | none => rfl
    | some w => exact parsing_retransmitLoop w _ 8 _ _
  · rfl

/-- No call but the abort changes the parser's fields, either. -/
theorem Call.parsing (hp : st.platform.Passive) (s : Ctx) {c : Call} (hlegal : c.Legal)
    (hin : ∀ bytes, c ≠ .dataIn bytes) (habort : c ≠ .abort) :
    AtcHdlc.parsing (c.run st s) = AtcHdlc.parsing s := by
  refine (Call.deeds st s hlegal hin).induct (P := fun t => AtcHdlc.parsing t = AtcHdlc.parsing s)
    (fun t t' hd ht => ?_) rfl
  rw [← ht]
  cases hd with
  | event event => exact parsing_onEvent hp t event
  | reset _ => exact parsing_resetState t
  | hunt h => exact absurd h habort
  | _ => rfl

end Unparsed

/-- From `s` to `s'` whole frames go out. -/
abbrev Utters (st : Station) (s s' : Ctx) : Prop := LinkView.Replies st (fun _ => True) (linkView s) (linkView s')

section Utters

variable {st : Station} {s s' : Ctx}

/-- They are on the line, and they are what is on its way in a channel. -/
theorem Utters.frames (h : Utters st s s') : ∃ fs : List Frame,
    wires s'.trace = wires s.trace ++ fs.map (Frame.wire st.crc) ∧
      sentOctets s'.trace = sentOctets s.trace ++ fs.flatMap (Frame.octets st.crc) := by
  obtain ⟨l, hl, -⟩ := h
  change onLine s'.trace = onLine s.trace ++ l.flatMap fun x => x.1.obs st.crc x.2 at hl
  rw [← wires_onLine s'.trace, ← sentOctets_onLine s'.trace, hl, ← wires_onLine s.trace, ← sentOctets_onLine s.trace]
  refine ⟨l.map Prod.fst, ?_⟩
  generalize onLine s.trace = line
  clear hl
  induction l generalizing line with
  | nil => simp
  | cons x l ih =>
      obtain ⟨hwires, hoctets⟩ := ih (line ++ x.1.obs st.crc x.2)
      rw [List.flatMap_cons, ← List.append_assoc, hwires, hoctets, wires_obs, sentOctets_append, sentOctets_obs,
        List.map_cons, List.map_cons, List.flatMap_cons, List.append_assoc, List.append_assoc]
      exact ⟨rfl, rfl⟩

theorem Utters.put (s : Ctx) (f : Frame) : Utters st s (s.put st f) := by
  rw [Utters, linkView_put]
  exact .say _ trivial

theorem Utters.of_view (h : linkView s' = linkView s) : Utters st s s' := by
  rw [Utters, h]
  exact .silent rfl

theorem Deed.utters (hp : st.platform.Passive) {c : Call} (hstreams : ¬c.Streams) (h : Deed st c s s') :
    Utters st s s' := by
  cases h with
  | put f => exact .put s f
  | loose crc os hos h => exact absurd h hstreams
  | t1Start => exact .of_view (linkView_t1Start s)
  | t2Stop => exact .silent (by rw [linkView_t2Stop]; rfl)
  | event event =>
      rw [Utters, linkView_onEvent hp]
      exact .silent rfl
  | reset _ =>
      rw [Utters, linkView_resetState]
      exact .silent rfl
  | accept w data _ _ => exact .silent (onLine_append _ _ |>.trans (List.append_nil _))
  | _ => exact .silent rfl

theorem retransmitLoop_utters (w : TxWindow) (endVs fuel slotIdx : Nat) (s : Ctx) :
    Utters st s (retransmitLoop st w endVs fuel slotIdx s) := by
  induction fuel generalizing slotIdx s with
  | zero => exact .silent rfl
  | succ fuel ih =>
      simp only [retransmitLoop, frameSend_octets]
      split_ifs
      · exact .silent rfl
      · have hread : Utters st s (s.log (.slotRead slotIdx)) :=
          .silent (onLine_append _ _ |>.trans (List.append_nil _))
        have hvs (t : Ctx) (vs : Nat) : Utters st t { t with vs := vs } := .silent rfl
        exact ((hread.trans (Utters.put _ _)).trans (hvs _ _)).trans (ih _ _)

theorem retransmitIfPending_utters (s : Ctx) : Utters st s (retransmitIfPending st s) := by
  unfold retransmitIfPending
  split_ifs
  · cases st.txWindow with
    | none => exact .silent (onLine_append _ _ |>.trans (List.append_nil _))
    | some w =>
        have hloop : ∃ endVs slotIdx, retransmitOutstanding st w s = t1Start st
            (retransmitLoop st w endVs 8 slotIdx { s with retransmitPending := false, vs := s.retransmitFrom }) :=
          ⟨_, _, rfl⟩
        obtain ⟨endVs, slotIdx, hloop⟩ := hloop
        have hback : Utters st s { s with retransmitPending := false, vs := s.retransmitFrom } := .silent rfl
        have hwalk := hback.trans (retransmitLoop_utters w endVs 8 slotIdx _)
        show Utters st s (retransmitOutstanding st w s)
        rw [hloop]
        exact hwalk.trans (Utters.of_view (linkView_t1Start _))
  · exact .silent rfl

theorem dataIn_utters (hp : st.platform.Passive) (s : Ctx) (bytes : List UInt8) : Utters st s (dataIn st s bytes) :=
  (rxBytes_replies hp s fun _ _ _ => ⟨fun _ _ => trivial, fun _ => trivial, fun _ _ => trivial, fun _ => trivial⟩).trans
    (retransmitIfPending_utters _)

theorem Call.utters (hp : st.platform.Passive) (s : Ctx) {c : Call} (hlegal : c.Legal) (hstreams : ¬c.Streams) :
    Utters st s (c.run st s) := by
  by_cases hin : ∃ bytes, c = .dataIn bytes
  · obtain ⟨bytes, rfl⟩ := hin
    exact dataIn_utters hp s bytes
  · exact (Call.deeds st s hlegal fun bytes h => hin ⟨bytes, h⟩).induct (P := Utters st s)
      (fun _ _ hd ht => ht.trans (hd.utters hp hstreams)) (.silent rfl)

end Utters

/-! ### Where a reader stands -/

/-- The octets ahead of a reader that has read `read` octets of a line of whole frames: it stands between two
frames, or in one of which the parser holds what it has read. -/
inductive Ahead (st : Station) (crc : CrcOps) (s : Ctx) (read : Nat) : List UInt8 → List Frame → Prop
  | between (fs : List Frame) (h : s.rxState = .hunt ∨ s.rxIndex < minFrameLen) :
      Ahead st crc s read (fs.flatMap (Frame.octets crc)) fs
  | within (f : Frame) (fs : List Frame) (seen unseen : List UInt8) (hf : f.stuffed crc = seen ++ unseen)
      (hread : 0 < read) (h : Reading st s seen) :
      Ahead st crc s read (unseen ++ flag :: fs.flatMap (Frame.octets crc)) (f :: fs)

section Ahead

variable {st : Station} {crc : CrcOps} {s t : Ctx} {read : Nat} {rest : List UInt8} {fs : List Frame}

theorem Ahead.append (h : Ahead st crc s read rest fs) (gs : List Frame) :
    Ahead st crc s read (rest ++ gs.flatMap (Frame.octets crc)) (fs ++ gs) := by
  cases h with
  | between _ h =>
      rw [← List.flatMap_append]
      exact .between (fs ++ gs) h
  | within f fs seen unseen hf hread h =>
      rw [List.append_assoc, List.cons_append, ← List.flatMap_append]
      exact .within f (fs ++ gs) seen unseen hf hread h

/-- One octet on: the reader stays in its frame, or the frame arrives. -/
theorem Ahead.rxByte (hp : st.platform.Passive) {byte : UInt8} (h : Ahead st crc s read (byte :: rest) fs)
    (hsame : unparsed s = unparsed t) (hidle : t.rxIndex = 0) :
    (Ahead st crc (rxByte st s byte) (read + 1) rest fs ∧ unparsed (rxByte st s byte) = unparsed t) ∨
      ∃ f gs, fs = f :: gs ∧ Ahead st crc (rxByte st s byte) (read + 1) rest gs ∧
        unparsed (rxByte st s byte) = unparsed (rxBytes st t (f.octets crc)) ∧
        (rxBytes st t (f.octets crc)).rxIndex = 0 := by
  generalize hahead : byte :: rest = ahead at h
  cases h with
  | between _ h =>
      cases fs with
      | nil => exact absurd hahead (List.cons_ne_nil _ _)
      | cons f fs =>
          have hoctets : (f :: fs).flatMap (Frame.octets crc) =
              flag :: (f.stuffed crc ++ flag :: fs.flatMap (Frame.octets crc)) := by
            simp [Frame.octets, Frame.stuffed]
          rw [hoctets] at hahead
          obtain ⟨rfl, rfl⟩ := List.cons.inj hahead
          have hopen : AtcHdlc.rxByte st s flag = rxRestart s .addr := by
            rw [AtcHdlc.rxByte, if_pos rfl, handleFlag, if_pos h]
          rw [hopen]
          exact Or.inl ⟨.within f fs [] (f.stuffed crc) rfl (Nat.succ_pos _) (Reading.restart s), hsame⟩
  | within f fs seen unseen hf hread h =>
      cases unseen with
      | cons octet unseen =>
          obtain ⟨rfl, rfl⟩ := List.cons.inj hahead
          have hflag : byte ≠ flag := by
            intro heq
            have hmem : byte ∈ f.stuffed crc := by
              rw [hf]
              exact List.mem_append_right _ List.mem_cons_self
            rw [heq] at hmem
            exact octetCode.flag_not_mem_stuff _ hmem
          refine Or.inl ⟨.within f fs (seen ++ [byte]) unseen ?_ (Nat.succ_pos _) (rxByte_reading h hflag), ?_⟩
          · rw [hf, List.append_cons]
          · rw [rxByte_withParser s hflag]
            exact hsame
      | nil =>
          obtain ⟨rfl, rfl⟩ := List.cons.inj hahead
          rw [List.append_nil] at hf
          subst hf
          obtain ⟨u, hu⟩ := rxBytes_octets_of_crc hidle crc f
          have hmy : (unparsed s).myAddress = (unparsed t).myAddress := congrArg Ctx.myAddress hsame
          have hpeer : (unparsed s).peerAddress = (unparsed t).peerAddress := congrArg Ctx.peerAddress hsame
          change s.myAddress = t.myAddress at hmy
          change s.peerAddress = t.peerAddress at hpeer
          have hunstuff : octetCode.unstuff (f.stuffed crc) = f.content crc := octetCode.unstuff_stuff _
          have hflag := rxByte_flag_heard h
          rw [hunstuff, hmy, hpeer, segmentFrame_content] at hflag
          refine Or.inr ⟨f, fs, rfl, ?_⟩
          rw [hflag, hu]
          refine ⟨.between fs ?_, ?_, ?_⟩
          · right
            split_ifs <;> exact Nat.succ_pos _
          · by_cases hkeep : Keeps st t.myAddress t.peerAddress (f.content crc)
            · rw [if_pos hkeep, if_pos hkeep]
              exact (unparsed_congruence hp).dispatchFrame f.arriving (hsame : unparsed s = unparsed (t.withParser u))
            · rw [if_neg hkeep, if_neg hkeep]
              exact hsame
          · split_ifs <;> rfl

/-- Some octets on: the frames arrive whose closing flags are among them. -/
theorem Ahead.rxBytes (hp : st.platform.Passive) {bytes : List UInt8} (h : Ahead st crc s read (bytes ++ rest) fs)
    (hsame : unparsed s = unparsed t) (hidle : t.rxIndex = 0) :
    ∃ k, Ahead st crc (rxBytes st s bytes) (read + bytes.length) rest (fs.drop k) ∧
      unparsed (AtcHdlc.rxBytes st s bytes) =
        unparsed (AtcHdlc.rxBytes st t ((fs.take k).flatMap (Frame.octets crc))) ∧
      (AtcHdlc.rxBytes st t ((fs.take k).flatMap (Frame.octets crc))).rxIndex = 0 := by
  induction bytes generalizing s t read fs with
  | nil => exact ⟨0, h, hsame, hidle⟩
  | cons byte bytes ih =>
      have hlength : read + (byte :: bytes).length = read + 1 + bytes.length := by
        rw [List.length_cons]
        omega
      rw [hlength]
      rcases h.rxByte hp hsame hidle with ⟨hnext, hsame⟩ | ⟨f, gs, rfl, hnext, hsame, hidle⟩
      · exact ih hnext hsame hidle
      · obtain ⟨k, hahead, hsame, hidle⟩ := ih hnext hsame hidle
        have htaken : AtcHdlc.rxBytes st t (((f :: gs).take (k + 1)).flatMap (Frame.octets crc)) =
            AtcHdlc.rxBytes st (AtcHdlc.rxBytes st t (f.octets crc)) ((gs.take k).flatMap (Frame.octets crc)) := by
          rw [List.take_succ_cons, List.flatMap_cons]
          exact List.foldl_append
        refine ⟨k + 1, hahead, ?_, ?_⟩
        · rw [htaken]
          exact hsame
        · rw [htaken]
          exact hidle

/-- A set-up does not turn the filter for the frame that is being read: it names the peer that is known already,
or the parser is not in a frame, or it is past an address that passes either way. -/
def Steady (s : Ctx) (read : Nat) (peerAddr : UInt8) : Prop :=
  peerAddr = s.peerAddress ∨
    if s.rxState = .hunt then read = 0 else s.rxIndex = 0 ∨ Accepted s.myAddress peerAddr (s.rxBuffer 0)

instance (s : Ctx) (read : Nat) (peerAddr : UInt8) : Decidable (Steady s read peerAddr) :=
  inferInstanceAs (Decidable (_ ∨ ite _ _ _))

theorem Reading.steady {s' : Ctx} {seg : List UInt8} (h : Reading st s seg) (hparsing : parsing s' = parsing s)
    (hmy : s'.myAddress = s.myAddress) (hread : 0 < read) (hpeer : Steady s read s'.peerAddress) :
    Reading st s' seg := by
  have hstate : s'.rxState = s.rxState := congrArg Prod.fst hparsing
  have hindex : s'.rxIndex = s.rxIndex := congrArg (·.2.1) hparsing
  have hcrc : s'.rxCrc = s.rxCrc := congrArg (·.2.2.1) hparsing
  have hbuffer : s'.rxBuffer = s.rxBuffer := congrArg (·.2.2.2) hparsing
  cases h with
  | hunting hhunt hdrop =>
      rcases hpeer with hsame | hfirst
      · exact .hunting (hstate.trans hhunt) ((Dropped.congr hmy hsame).mpr hdrop)
      · rw [if_pos hhunt] at hfirst
        omega
  | storing hstores hesc hstored =>
      refine .storing (hstate ▸ hstores) (hstate ▸ hesc) ⟨hindex.trans hstored.index, ?_, hcrc.trans hstored.crc, ?_⟩
      · rw [hbuffer]
        exact hstored.buffer
      · rcases hpeer with hsame | hpasses
        · exact fun hdrop => hstored.kept ((Dropped.congr hmy hsame).mp hdrop)
        · rw [if_neg hstores] at hpasses
          rintro (hlong | ⟨hne, haddr⟩)
          · exact hstored.kept (Or.inl hlong)
          · have hpos : 0 < (octetCode.unstuff seg).length := List.length_pos_of_ne_nil hne
            rw [hmy, ← hstored.buffer 0 hpos] at haddr
            rcases hpasses with hempty | hpasses
            · have hlength := hstored.index
              omega
            · exact haddr hpasses

theorem Ahead.steady {s' : Ctx} (h : Ahead st crc s read rest fs) (hparsing : parsing s' = parsing s)
    (hmy : s'.myAddress = s.myAddress) (hpeer : Steady s read s'.peerAddress) : Ahead st crc s' read rest fs := by
  have hstate : s'.rxState = s.rxState := congrArg Prod.fst hparsing
  have hindex : s'.rxIndex = s.rxIndex := congrArg (·.2.1) hparsing
  cases h with
  | between _ h =>
      rw [← hstate, ← hindex] at h
      exact .between fs h
  | within f fs seen unseen hf hread h => exact .within f fs seen unseen hf hread (h.steady hparsing hmy hread hpeer)

end Ahead

/-- A channel of frames over the line of `o`, which `e` reads: `x` stands for `e`, and the frames that are on
their way are those of which `e` has not read all. -/
structure Channel (e o : Reader) (x : Endpoint) (out : List Flight) : Prop where
  station : x.station = e.station
  same : unparsed e.ctx = unparsed x.ctx
  idle : x.ctx.rxIndex = 0
  read : e.read ≤ o.line.length
  ahead : ∃ fs : List Frame, out.map Flight.wire = fs.map (Frame.wire o.station.crc) ∧
    Ahead e.station o.station.crc e.ctx e.read (o.line.drop e.read) fs

/-- Two stations with channels between them, over two stations with lines between them. -/
structure Refines (d : Duplex) (w : World) : Prop where
  near : Channel d.active d.passive w.near w.far.out
  far : Channel d.passive d.active w.far w.near.out

def Duplex.swap (d : Duplex) : Duplex := ⟨d.passive, d.active⟩

theorem Refines.swap {d : Duplex} {w : World} (h : Refines d w) : Refines d.swap w.swap := ⟨h.far, h.near⟩

section Channel

variable {e o : Reader} {x y : Endpoint} {out out' : List Flight}

/-- Frames are added at the end. -/
theorem Channel.grow (h : Channel e o x out) {o' : Reader} {fs : List Frame} (hstation : o'.station = o.station)
    (hline : o'.line = o.line ++ fs.flatMap (Frame.octets o.station.crc))
    (hout : out'.map Flight.wire = out.map Flight.wire ++ fs.map (Frame.wire o.station.crc)) :
    Channel e o' x out' := by
  obtain ⟨gs, hgs, hahead⟩ := h.ahead
  refine ⟨h.station, h.same, h.idle, ?_, gs ++ fs, ?_, ?_⟩
  · rw [hline, List.length_append]
    exact Nat.le_add_right_of_le h.read
  · rw [hout, hgs, hstation, List.map_append]
  · rw [hline, hstation, List.drop_append_of_le_length h.read]
    exact hahead.append fs

/-- A call leaves the reader where it is. -/
theorem Channel.call (hp : e.station.platform.Passive) (h : Channel e o x out) {c : Call} (hlegal : c.Legal)
    (hstreams : ¬c.Streams) (hin : ∀ bytes, c ≠ .dataIn bytes)
    (hsteady : ∀ peerAddr, c = .linkSetup peerAddr → Steady e.ctx e.read peerAddr) (line : List UInt8) :
    Channel (e.turn line (.call c)) o (x.call c) out := by
  obtain ⟨hctx, hstation⟩ := become_eq x (c.run x.station x.ctx)
  have habort : c ≠ .abort := by
    rintro rfl
    exact hstreams trivial
  have hindex : (c.run x.station x.ctx).rxIndex = x.ctx.rxIndex := by
    have hpx : x.station.platform.Passive := by
      rw [h.station]
      exact hp
    exact congrArg (·.2.1) (Call.parsing hpx x.ctx hlegal hin habort)
  obtain ⟨fs, hfs, hahead⟩ := h.ahead
  refine ⟨hstation.trans h.station, ?_, ?_, h.read, fs, hfs, ?_⟩
  · rw [Endpoint.call, hctx, h.station]
    exact Call.same hp h.same hlegal hin
  · rw [Endpoint.call, hctx]
    exact hindex.trans h.idle
  · obtain ⟨hmy, hpeer⟩ := Call.addresses hp e.ctx hlegal
    refine hahead.steady (Call.parsing hp e.ctx hlegal hin habort) hmy ?_
    rcases hpeer with hpeer | hpeer
    · exact Or.inl hpeer
    · exact hsteady _ hpeer

/-- A chunk of octets brings the frames that it completes. -/
theorem Channel.chunk (hp : e.station.platform.Passive) (h : Channel e o x out) (n : Nat) :
    ∃ k, Channel (e.turn o.line (.read n)) o (x.receive (out.take k)) (out.drop k) := by
  obtain ⟨fs, hfs, hahead⟩ := h.ahead
  rw [← List.take_append_drop n (o.line.drop e.read)] at hahead
  obtain ⟨k, hahead, hsame, hidle⟩ := hahead.rxBytes hp h.same h.idle
  obtain ⟨hctx, hstation⟩ := receive_eq x (out.take k)
  rw [h.station, take_octets hfs] at hctx
  have hparsing := @parsing_retransmitIfPending e.station
    (rxBytes e.station e.ctx ((o.line.drop e.read).take n))
  have hfilter := (@retransmitIfPending_agree e.station
    (rxBytes e.station e.ctx ((o.line.drop e.read).take n))).filter
  have hlength : ((o.line.drop e.read).take n).length ≤ o.line.length - e.read := by
    rw [List.length_take, List.length_drop]
    exact Nat.min_le_right _ _
  have hread := h.read
  refine ⟨k, hstation.trans h.station, ?_, ?_, ?_, fs.drop k, drop_wires hfs k, ?_⟩
  · rw [hctx]
    exact retransmitIfPending_same hsame
  · rw [hctx]
    exact (congrArg (·.2.1) (parsing_retransmitIfPending _)).trans hidle
  · show e.read + ((o.line.drop e.read).take n).length ≤ o.line.length
    omega
  · have hrest : o.line.drop (e.read + ((o.line.drop e.read).take n).length) = (o.line.drop e.read).drop n := by
      rw [← List.drop_drop, List.length_take]
      rcases Nat.le_total n (o.line.drop e.read).length with hle | hle
      · rw [Nat.min_eq_left hle]
      · rw [Nat.min_eq_right hle, List.drop_length, List.drop_eq_nil_of_le hle]
    show Ahead _ _ _ (e.read + ((o.line.drop e.read).take n).length) _ _
    rw [show (e.turn o.line (.read n)).read = e.read + ((o.line.drop e.read).take n).length from rfl, hrest]
    exact hahead.steady hparsing (congrArg FilterView.myAddress hfilter)
      (Or.inl (congrArg FilterView.peerAddress hfilter))

/-- What a station puts on its line is on its way in its channel. -/
theorem Channel.written (hp : e.station.platform.Passive) (h : Channel o e y x.out)
    (hsame : unparsed e.ctx = unparsed x.ctx) {c : Call} (hlegal : c.Legal) (hstreams : ¬c.Streams) {s : Ctx}
    (hs : unparsed (c.run e.station e.ctx) = unparsed s) {read : Nat}
    (hout : ∀ l, wires s.trace = wires x.ctx.trace ++ l → out'.map Flight.wire = x.out.map Flight.wire ++ l) :
    Channel o ⟨e.station, c.run e.station e.ctx, read⟩ y out' := by
  obtain ⟨fs, hwires, hoctets⟩ := (Call.utters hp e.ctx hlegal hstreams).frames
  rw [trace_of_same hs, trace_of_same hsame] at hwires
  exact h.grow rfl hoctets (hout _ hwires)

end Channel

section Beginnings

variable {d : Duplex}

/-- The same two stations with nothing on its way. -/
def Duplex.world (d : Duplex) : World :=
  ⟨⟨d.active.station, d.active.ctx, 0, 0, []⟩, ⟨d.passive.station, d.passive.ctx, 0, 0, []⟩⟩

/-- A reader at the end of the line, between two frames. -/
def AtEnd (e o : Reader) : Prop := e.read = o.line.length ∧ e.ctx.rxIndex = 0

theorem AtEnd.channel {e o : Reader} (h : AtEnd e o) : Channel e o ⟨e.station, e.ctx, 0, 0, []⟩ [] := by
  refine ⟨rfl, rfl, h.2, Nat.le_of_eq h.1, [], rfl, ?_⟩
  rw [h.1, List.drop_length]
  refine .between [] (Or.inr ?_)
  rw [h.2]
  exact Nat.succ_pos _

theorem refines_atEnd (hactive : AtEnd d.active d.passive) (hpassive : AtEnd d.passive d.active) :
    Refines d d.world :=
  ⟨hactive.channel, hpassive.channel⟩

/-- Two stations after `atc_hdlc_init`. -/
theorem refines_initial (st st' : Station) (mem mem' : Memory) :
    Refines ⟨.initial st mem, .initial st' mem'⟩ ⟨⟨st, initCtx st mem, 0, 0, []⟩, ⟨st', initCtx st' mem', 0, 0, []⟩⟩ :=
  refines_atEnd ⟨rfl, rfl⟩ ⟨rfl, rfl⟩

end Beginnings

/-- The turns of a station that puts out whole frames only and sets up no link that turns its filter. -/
def Orderly (e : Reader) : Turn → Prop
  | .call c => c.Legal ∧ ¬c.Streams ∧ (∀ bytes, c ≠ .dataIn bytes) ∧
      ∀ peerAddr, c = .linkSetup peerAddr → Steady e.ctx e.read peerAddr
  | .read _ => True

section Refines

variable {d : Duplex} {w : World}

/-- What a call does to the lines it does to the channels. -/
theorem Refines.call (h : Refines d w) (hp : d.active.station.platform.Passive) {c : Call}
    (hm : Orderly d.active (.call c)) : Refines (d.turnActive (.call c)) (w.step (.call c)) := by
  obtain ⟨hlegal, hstreams, hin, hsteady⟩ := hm
  refine ⟨h.near.call hp hlegal hstreams hin hsteady d.passive.line, ?_⟩
  have hsame : unparsed (c.run d.active.station d.active.ctx) = unparsed (c.run w.near.station w.near.ctx) := by
    rw [h.near.station]
    exact Call.same hp h.near.same hlegal hin
  exact h.far.written hp h.near.same hlegal hstreams hsame fun l hl => become_wires hl

/-- A chunk of octets is a number of frames that arrive together. -/
theorem Refines.chunk (h : Refines d w) (hp : d.active.station.platform.Passive) (n : Nat) :
    ∃ k, Refines (d.turnActive (.read n)) (w.step (.deliver k)) := by
  obtain ⟨k, hnear⟩ := h.near.chunk hp n
  refine ⟨k, hnear, ?_⟩
  obtain ⟨hctx, -⟩ := receive_eq w.near (w.far.out.take k)
  have hsame := hnear.same
  rw [hctx] at hsame
  have hfar : Channel d.passive d.active { w.far with out := w.far.out.drop k } w.near.out :=
    ⟨h.far.station, h.far.same, h.far.idle, h.far.read, h.far.ahead⟩
  exact hfar.written (c := .dataIn _) hp h.near.same trivial id hsame fun l hl => receive_wires hl

/-- Two stations whose callbacks do not call back. -/
def Duplex.Passive (d : Duplex) : Prop := d.active.station.platform.Passive ∧ d.passive.station.platform.Passive

variable {T : Duplex → Turn → Prop} {K : World → Move → Prop}

/-- A turn is a move: a call the same call, a chunk the arrival of the frames that it completes. -/
theorem Refines.turn (horderly : ∀ d m, T d m → Orderly d.active m)
    (hcall : ∀ d w c, Refines d w → T d (.call c) → K w (.call c)) (hdeliver : ∀ w k, K w (.deliver k))
    (h : Refines d w) (hp : d.Passive) {m : Turn} (hm : T d m) :
    ∃ m', K w m' ∧ Refines (d.turnActive m) (w.step m') := by
  cases m with
  | call c => exact ⟨.call c, hcall d w c h hm, h.call hp.1 (horderly d _ hm)⟩
  | read n =>
      obtain ⟨k, hk⟩ := h.chunk hp.1 n
      exact ⟨.deliver k, hdeliver w k, hk⟩

/-- A run over lines is a run over channels in which frames arrive and none is lost. -/
theorem Course.refines (horderly : ∀ d m, T d m → Orderly d.active m)
    (hcall : ∀ d w c, Refines d w → T d (.call c) → K w (.call c)) (hdeliver : ∀ w k, K w (.deliver k))
    {d₀ : Duplex} {w₀ : World} (hp : d₀.Passive) (hstart : Refines d₀ w₀)
    (hrun : Course T (fun d => T d.swap) d₀ d) : ∃ w, Run K w₀ w ∧ Refines d w := by
  refine (hrun.invariant (P := fun d => d.Passive ∧ ∃ w, Run K w₀ w ∧ Refines d w)
    ⟨hp, w₀, .start, hstart⟩ ?_ ?_).2
  · rintro d m ⟨hp, w, hw, h⟩ hm
    obtain ⟨m', hK, hnext⟩ := h.turn horderly hcall hdeliver hp hm
    exact ⟨hp, w.step m', .near m' hw hK, hnext⟩
  · rintro d m ⟨hp, w, hw, h⟩ hm
    obtain ⟨m', hK, hnext⟩ := h.swap.turn horderly hcall hdeliver hp.symm hm
    exact ⟨hp, (w.swap.step m').swap, .far m' hw hK, hnext.swap⟩

/-- What a station may do at a channel that loses nothing. -/
def Lossless (_ : World) : Move → Prop
  | .call c => c.Legal ∧ ¬c.Streams ∧ ∀ bytes, c ≠ .dataIn bytes
  | .lose _ => False
  | .deliver _ => True

/-- Whatever the applications do and however the octets are cut into chunks, two stations with a line each way
are two stations that hand each other whole frames, and none is lost. -/
theorem octets_refine_frames {d₀ : Duplex} {w₀ : World} (hp : d₀.Passive) (hstart : Refines d₀ w₀)
    (hrun : Course (fun d => Orderly d.active) (fun d => Orderly d.passive) d₀ d) :
    ∃ w, Run Lossless w₀ w ∧ Refines d w :=
  Course.refines (T := fun d => Orderly d.active) (fun _ _ hm => hm) (fun _ _ _ _ hm => ⟨hm.1, hm.2.1, hm.2.2.1⟩)
    (fun _ _ => trivial) hp hstart hrun

/-- A SABM arrives in two pieces. -/
theorem octets_refine_frames_mock :
    (callingPair.turnPassive (.read 4)).passive.ctx.currentState = .disconnected ∧
      ((callingPair.turnPassive (.read 4)).turnPassive (.read 20)).passive.ctx.currentState = .connected ∧
      ∃ w, Run Lossless waitingPair.world w ∧
        Refines ((callingPair.turnPassive (.read 4)).turnPassive (.read 20)) w := by
  have hrun : Course (fun d => Orderly d.active) (fun d => Orderly d.passive) waitingPair
      ((callingPair.turnPassive (.read 4)).turnPassive (.read 20)) := by
    refine .passive _ (.passive _ (.active _ .start ⟨trivial, id, fun _ h => Call.noConfusion h, fun peerAddr h => ?_⟩)
      trivial) trivial
    cases h
    decide +kernel
  refine ⟨by decide +kernel, by decide +kernel, ?_⟩
  exact octets_refine_frames ⟨mockPlatform_passive, mockPlatform_passive⟩ (refines_initial _ _ _ _) hrun

end Refines

/-! ### Sessions over lines of octets -/

section Sessions

variable {d d₀ : Duplex} {w w₀ : World}

/-- What a station does in a session, over a line. -/
def TransfersOctets (d : Duplex) : Turn → Prop
  | .call c => Transfers 65535 d.world (.call c) ∧ Protects d.world (.call c)
  | .read _ => True

theorem TransfersOctets.orderly {m : Turn} (h : TransfersOctets d m) : Orderly d.active m := by
  cases m with
  | read n => trivial
  | call c =>
      cases c with
      | transmitI data => exact ⟨h.1.1, id, fun _ h => Call.noConfusion h, fun _ h => Call.noConfusion h⟩
      | setLocalBusy | t1Expired | t2Expired =>
          exact ⟨trivial, id, fun _ h => Call.noConfusion h, fun _ h => Call.noConfusion h⟩
      | _ => exact h.1.elim

theorem transmitI_unparsed_fst (st : Station) (s : Ctx) (data : Payload) :
    (transmitI st (unparsed s) data).1 = (transmitI st s data).1 := by
  unfold transmitI
  cases st.txWindow with
  | none =>
      simp only [apply_ite Prod.fst]
      rfl
  | some w =>
      simp only [apply_ite Prod.fst]
      rfl

/-- What a session may do does not depend on the parser's fields. -/
theorem TransfersOctets.move (hrefines : Refines d w) {c : Call} (h : TransfersOctets d (.call c)) :
    Transfers 65535 w (.call c) ∧ Protects w (.call c) := by
  have hstation := hrefines.near.station
  have hsame := hrefines.near.same
  cases c with
  | transmitI data =>
      refine ⟨h.1, fun hok tw htw => ?_⟩
      rw [hstation] at hok htw
      have hok' : (transmitI d.active.station d.active.ctx data).1 = .ok := by
        rw [← hok, ← transmitI_unparsed_fst, hsame, transmitI_unparsed_fst]
      exact (congrArg (Clear tw · data) hsame).mp (h.2 hok' tw htw)
  | t1Expired =>
      refine ⟨?_, trivial⟩
      show ¬Exhausted w.near.station (counted w.near.ctx)
      rw [hstation]
      exact (congrArg (fun u => ¬Exhausted d.active.station (counted u)) hsame).mp h.1
  | setLocalBusy | t2Expired => exact ⟨trivial, trivial⟩
  | _ => exact h.1.elim

theorem Delivers.octets (h : Delivers w₀ w) (hrefines : Refines d w) : Delivers w₀ d.world := by
  have hnear := hrefines.near.same
  have hfar := trace_of_same hrefines.far.same
  have hgiven : givenSince w₀.far.ctx d.passive.ctx = givenSince w₀.far.ctx w.far.ctx := by
    rw [givenSince, givenSince, hfar]
  have hstate := (congrArg (fun u => u.currentState = .connected) hnear).mpr h.connected
  refine ⟨hstate, ?_, ?_⟩
  · show givenSince w₀.far.ctx d.passive.ctx <+: (session d.active.ctx.trace).sent
    rw [hgiven, trace_of_same hnear]
    exact h.inOrder
  · have hopen : outstanding (unparsed d.active.ctx) = outstanding (unparsed w.near.ctx) := congrArg outstanding hnear
    show (session d.active.ctx.trace).sent.length - outstanding (unparsed d.active.ctx) ≤
      (givenSince w₀.far.ctx d.passive.ctx).length
    rw [hgiven, trace_of_same hnear, hopen]
    exact h.acknowledged

/-- In every session over two lines of octets, whichever way the octets are cut into chunks, each station gives
its application the payloads that the other one accepted, in their order and each once, if no payload is written
over a frame that is still open. -/
theorem session_reliable_octets (hstart : Paired d₀.world) (hactive : AtEnd d₀.active d₀.passive)
    (hpassive : AtEnd d₀.passive d₀.active) (hrun : Course TransfersOctets (fun d => TransfersOctets d.swap) d₀ d) :
    Delivers d₀.world d.world ∧ Delivers d₀.swap.world d.swap.world := by
  have hp : d₀.Passive := ⟨hstart.matched.nearPassive, hstart.matched.farPassive⟩
  obtain ⟨w, hw, hrefines⟩ := Course.refines (K := fun w m => Transfers 65535 w m ∧ Protects w m)
    (fun _ _ hm => hm.orderly) (fun _ _ _ hrefines hm => hm.move hrefines) (fun _ _ => ⟨trivial, trivial⟩) hp
    (refines_atEnd hactive hpassive) hrun
  obtain ⟨-, n, hn⟩ := hw.inSession hstart
  exact ⟨hn.delivers.octets hrefines, hn.swap.delivers.octets hrefines.swap⟩

/-- Two stations that have just connected, each at the end of the other one's line. -/
def linkedPair : Duplex :=
  ⟨⟨mockWorld.near.station, mockWorld.near.ctx, (sentOctets mockWorld.far.ctx.trace).length⟩,
    ⟨mockWorld.far.station, mockWorld.far.ctx, (sentOctets mockWorld.near.ctx.trace).length⟩⟩

/-- An I-frame is cut in the middle, and its acknowledgement too. -/
def cutPair : Duplex :=
  (((((linkedPair.turnActive (.call (.transmitI (.octets [0x11, 0x7E])))).turnPassive (.read 5)).turnPassive
    (.read 20)).turnPassive (.call .t2Expired)).turnActive (.read 3)).turnActive (.read 20)

theorem session_reliable_octets_mock :
    payloads cutPair.passive.ctx.trace = [[0x11, 0x7E]] ∧
      Delivers linkedPair.world cutPair.world ∧ Delivers linkedPair.swap.world cutPair.swap.world := by
  refine ⟨by decide +kernel, session_reliable_octets mockWorld_paired ⟨rfl, ?_⟩ ⟨rfl, ?_⟩ ?_⟩
  · decide +kernel
  · decide +kernel
  · refine .active _ (.active _ (.passive _ (.passive _ (.passive _ (.active _ .start ?_) ?_) ?_) ?_) ?_) ?_
    · exact ⟨⟨Or.inl rfl, by decide⟩, by decide +kernel⟩
    · trivial
    · trivial
    · exact ⟨trivial, trivial⟩
    · trivial
    · trivial

end Sessions

end AtcHdlc
