import AtcHdlc.Parser

/-! Decoding undoes encoding: whatever the receiver read before, the frames that a sender puts on the
line come out of the parser one by one, in order and unchanged. -/

namespace AtcHdlc

/-- The octets of the calls of `on_send` in a trace. -/
def sentOctets (trace : List Obs) : List UInt8 :=
  trace.filterMap fun
    | .send byte _ => some byte
    | _ => none

theorem sentOctets_obs (crc : CrcOps) (m : Moment) (f : Frame) :
    sentOctets (f.obs crc m) = f.octets crc := by
  have hsend (bytes : List UInt8) : sentOctets (bytes.map (.send · false)) = bytes := by
    rw [sentOctets, List.filterMap_map]
    exact List.filterMap_some
  have happend : sentOctets (f.obs crc m) =
      sentOctets ((flag :: octetCode.stuff (f.content crc)).map (.send · false)) ++ [flag] :=
    List.filterMap_append
  rw [happend, hsend]
  rfl

/-- The output of one call of `frame_send`. -/
def frameSendOctets (sender : Station) (s : Ctx) (f : Frame) : List UInt8 :=
  sentOctets (frameSend sender { s with trace := [] } f.address f.ctrl (.octets f.info)).trace

theorem frameSendOctets_eq (sender : Station) (s : Ctx) (f : Frame) :
    frameSendOctets sender s f = f.octets sender.crc := by
  rw [frameSendOctets, frameSend_octets]
  exact sentOctets_obs sender.crc _ f

/-- The outputs of `frame_send` one after the other, before each of them some more flags. -/
def encodeLine (sender : Station) (s : Ctx) (frames : List (Nat × Frame)) : List UInt8 :=
  frames.flatMap fun f => List.replicate f.1 flag ++ frameSendOctets sender s f.2

theorem rxFcs_fcsOctets (fcs : UInt16) :
    rxFcs (fcs &&& 0xFF).toUInt8 (fcs >>> 8).toUInt8 = fcs := by
  apply UInt16.toNat.inj
  have hfcs : fcs.toNat < 65536 := fcs.toNat_lt
  have hlow : fcs.toNat &&& 255 = fcs.toNat % 256 := Nat.and_two_pow_sub_one_eq_mod _ 8
  have hhigh : (fcs.toNat >>> 8 % 256) <<< 8 % 65536 = (fcs.toNat / 256) <<< 8 := by
    rw [Nat.shiftRight_eq_div_pow, Nat.shiftLeft_eq, Nat.shiftLeft_eq]
    omega
  simp only [rxFcs, UInt16.toNat_or, UInt16.toNat_shiftLeft, UInt8.toNat_toUInt16,
    UInt16.toNat_toUInt8, UInt16.toNat_and, UInt16.toNat_shiftRight]
  calc (fcs.toNat &&& 255) % 256 ||| (fcs.toNat >>> 8 % 256) <<< 8 % 65536
      = (fcs.toNat / 256) <<< 8 ||| fcs.toNat % 256 := by
        rw [hlow, hhigh, Nat.mod_mod, Nat.or_comm]
    _ = (fcs.toNat / 256) <<< 8 + fcs.toNat % 256 :=
        (Nat.shiftLeft_add_eq_or_of_lt (Nat.mod_lt _ (by decide)) _).symm
    _ = fcs.toNat := by
        rw [Nat.shiftLeft_eq]
        omega

theorem segmentFrame_content (crc : CrcOps) (f : Frame) : segmentFrame (f.content crc) = f := by
  obtain ⟨address, ctrl, info⟩ := f
  simp [segmentFrame, Frame.content, Frame.body, fcsOctets]

/-- A frame that a receiver has room for and whose address its filter lets pass. -/
structure Fits (st : Station) (myAddress peerAddress : UInt8) (f : Frame) : Prop where
  address : Accepted myAddress peerAddress f.address
  capacity : f.info.length + 4 ≤ st.rxCapacity
  length : f.info.length ≤ 65535

section Decode

variable {st : Station} {myAddress peerAddress : UInt8}

/-- The reference keeps the content of a frame that passes the filter and the buffer can hold. -/
theorem keeps_content_iff (f : Frame) :
    Keeps st myAddress peerAddress (f.content st.crc) ↔
      Accepted myAddress peerAddress f.address ∧ f.info.length + 4 ≤ st.rxCapacity := by
  have hlen := f.content_length st.crc
  have hbody : f.body.length = f.info.length + 2 := by simp [Frame.body]
  have hhead : (f.content st.crc).getD 0 0 = f.address := by
    simp [Frame.content, Frame.body]
  constructor
  · intro h
    have haddr := h.address
    have hcap := h.maxLength
    rw [hhead] at haddr
    rw [hlen] at hcap
    exact ⟨haddr, hcap⟩
  rintro ⟨haddr, hcap⟩
  refine ⟨?_, by rw [hlen]; exact hcap, ?_, ?_⟩
  · rw [hlen]
    simp only [minFrameLen, addrLen, ctrlLen, fcsLen]
    omega
  · rw [hhead]
    exact haddr
  · have hlow : (f.content st.crc).getD (f.info.length + 2) 0 = (f.fcs st.crc &&& 0xFF).toUInt8 := by
      rw [Frame.content, List.getD_append_right _ _ _ _ (by omega), hbody, Nat.sub_self]
      rfl
    have hhigh : (f.content st.crc).getD (f.info.length + 3) 0 = (f.fcs st.crc >>> 8).toUInt8 := by
      have hone : f.info.length + 3 - (f.info.length + 2) = 1 := by omega
      rw [Frame.content, List.getD_append_right _ _ _ _ (by omega), hbody, hone]
      rfl
    have htake : (f.content st.crc).take (f.info.length + 2) = f.body := by
      rw [Frame.content, ← hbody]
      exact List.take_left
    have htwo : (f.content st.crc).length - 2 = f.info.length + 2 := by omega
    have hone : (f.content st.crc).length - 1 = f.info.length + 3 := by omega
    rw [htwo, hone, hlow, hhigh, htake, rxFcs_fcsOctets]
    rfl

theorem Fits.keeps {f : Frame} (h : Fits st myAddress peerAddress f) :
    Keeps st myAddress peerAddress (f.content st.crc) :=
  (keeps_content_iff f).mpr ⟨h.address, h.capacity⟩

/-- An empty segment, as between two flags, is not kept. -/
theorem deframeSegments_empty (segments : List (List UInt8)) :
    deframeSegments st myAddress peerAddress ([] :: segments) =
      deframeSegments st myAddress peerAddress segments := by
  have hnot : ¬Keeps st myAddress peerAddress (octetCode.unstuff []) := by
    intro h
    exact absurd h.minLength (by decide)
  rw [deframeSegments_cons, if_neg hnot, List.nil_append]

/-- One encoded frame on the line, after any number of flags. -/
theorem cutFrom_octets (crc : CrcOps) (n : Nat) (f : Frame) (rest : List UInt8) :
    octetCode.cutFrom [] (List.replicate n flag ++ f.octets crc ++ rest) =
      List.replicate (n + 1) [] ++
        octetCode.stuff (f.content crc) :: octetCode.cutFrom [] rest := by
  have hflag (bytes : List UInt8) :
      octetCode.cutFrom [] (flag :: bytes) = [] :: octetCode.cutFrom [] bytes :=
    octetCode.cutFrom_flag [] bytes
  induction n with
  | zero =>
      have hclose := octetCode.cutFrom_append [] (octetCode.flag_not_mem_stuff (f.content crc)) rest
      rw [octetCode_flag, List.nil_append] at hclose
      simp only [Frame.octets, List.replicate_zero, List.nil_append, List.cons_append,
        List.append_assoc, hflag, hclose]
      rfl
  | succ n ih =>
      rw [List.replicate_succ, List.cons_append, List.cons_append, hflag, ih,
        List.replicate_succ (n := n + 1)]
      rfl

theorem encodeLine_cons (sender : Station) (c : Ctx) (f : Nat × Frame) (frames : List (Nat × Frame)) :
    encodeLine sender c (f :: frames) =
      List.replicate f.1 flag ++ f.2.octets sender.crc ++ encodeLine sender c frames := by
  rw [encodeLine, List.flatMap_cons, frameSendOctets_eq]
  rfl

/-- A line with a frame on it begins with a flag. -/
theorem encodeLine_flag (sender : Station) (c : Ctx) {frames : List (Nat × Frame)} (h : frames ≠ []) :
    ∃ rest, encodeLine sender c frames = flag :: rest := by
  obtain ⟨⟨n, f⟩, frames, rfl⟩ := List.exists_cons_of_ne_nil h
  rw [encodeLine_cons]
  cases n with
  | zero => exact ⟨_, rfl⟩
  | succ n => exact ⟨_, rfl⟩

/-- The reference takes the frames off the line again. -/
theorem deframeSegments_encodeLine {sender : Station} (hcrc : sender.crc = st.crc) (c : Ctx)
    {frames : List (Nat × Frame)} (hfits : ∀ f ∈ frames, Fits st myAddress peerAddress f.2) :
    deframeSegments st myAddress peerAddress (octetCode.cutFrom [] (encodeLine sender c frames)) =
      frames.map (·.2) := by
  induction frames with
  | nil => rfl
  | cons f frames ih =>
      have hflags (n : Nat) (segments : List (List UInt8)) :
          deframeSegments st myAddress peerAddress (List.replicate n [] ++ segments) =
            deframeSegments st myAddress peerAddress segments := by
        induction n with
        | zero => rfl
        | succ n ihn => rw [List.replicate_succ, List.cons_append, deframeSegments_empty, ihn]
      rw [encodeLine_cons, cutFrom_octets, hflags, deframeSegments_cons, octetCode.unstuff_stuff, hcrc,
        if_pos (hfits f List.mem_cons_self).keeps, segmentFrame_content,
        ih fun g hg => hfits g (List.mem_cons_of_mem _ hg)]
      rfl

/-- No segment of such a line is longer than an information field of 65535 octets makes it. -/
theorem encodeLine_segment_length (sender : Station) (c : Ctx)
    {frames : List (Nat × Frame)} (hfits : ∀ f ∈ frames, Fits st myAddress peerAddress f.2)
    {seg : List UInt8} (hseg : seg ∈ octetCode.cutFrom [] (encodeLine sender c frames)) :
    (octetCode.unstuff seg).length ≤ 65539 := by
  induction frames with
  | nil => exact absurd hseg List.not_mem_nil
  | cons f frames ih =>
      rw [encodeLine_cons, cutFrom_octets, List.mem_append, List.mem_cons] at hseg
      rcases hseg with hflag | rfl | hrest
      · rw [List.eq_of_mem_replicate hflag]
        exact Nat.zero_le _
      · have hlen := (hfits f List.mem_cons_self).length
        rw [octetCode.unstuff_stuff, Frame.content_length]
        omega
      · exact ih (fun g hg => hfits g (List.mem_cons_of_mem _ hg)) hrest

/-- Whatever state the parser is in and whatever it reads first, from the first opening flag of a line
of encoded frames on it dispatches each of them once, in order and unchanged, however the octets are
cut into calls. -/
theorem dispatches_encodeLine (hp : st.platform.Preserves filterView) (s : Ctx)
    (noise : List UInt8) {sender : Station} (hcrc : sender.crc = st.crc) (c : Ctx)
    {frames : List (Nat × Frame)} (hne : frames ≠ [])
    (hfits : ∀ f ∈ frames, Fits st s.myAddress s.peerAddress f.2) {chunks : List (List UInt8)}
    (hchunks : chunks.flatten = noise ++ encodeLine sender c frames) :
    dispatches (chunks.foldl (dataIn st) s).trace =
      dispatches (rxBytes st s (noise ++ [flag])).trace ++ frames.map (·.2) := by
  obtain ⟨rest, hrest⟩ := encodeLine_flag sender c hne
  have hcut : octetCode.cutFrom [] (encodeLine sender c frames) = [] :: octetCode.cutFrom [] rest := by
    rw [hrest]
    exact octetCode.cutFrom_flag [] rest
  have hread : Reading st (rxBytes st s (noise ++ [flag])) [] := by
    rw [rxBytes_snoc]
    exact rxByte_flag_reading _
  obtain ⟨hmy, hpeer⟩ := rxBytes_addresses hp s (noise ++ [flag])
  have hsplit : rxBytes st s (noise ++ encodeLine sender c frames) =
      rxBytes st (rxBytes st s (noise ++ [flag])) rest := by
    rw [hrest, List.append_cons, rxBytes, List.foldl_append]
    rfl
  have hline := deframeSegments_encodeLine hcrc c hfits
  rw [hcut, deframeSegments_empty] at hline
  have hsize : ∀ x ∈ octetCode.cutFrom [] rest, (octetCode.unstuff x).length ≤ 65539 := by
    intro x hx
    refine encodeLine_segment_length sender c hfits ?_
    rw [hcut]
    exact List.mem_cons_of_mem _ hx
  calc dispatches (chunks.foldl (dataIn st) s).trace
      = dispatches (rxBytes st s chunks.flatten).trace :=
        congrArg FilterView.dispatched (dataIn_chunks_agree hp s chunks).filter
    _ = dispatches (rxBytes st (rxBytes st s (noise ++ [flag])) rest).trace := by rw [hchunks, hsplit]
    _ = dispatches (rxBytes st s (noise ++ [flag])).trace ++ frames.map (·.2) := by
        rw [rxBytes_dispatches hp hread rest fun x hx _ => hsize x hx, hmy, hpeer, hline]

/-- Half a frame and a pending escape before, three flags between the two frames. -/
theorem dispatches_encodeLine_mock :
    let st := mockStation 0x01 1 (by decide) (by decide)
    let s := initCtx st zeroMemory
    let frames : List (Nat × Frame) := [(0, ⟨0x01, 0x03, [0x7E, 0x7D]⟩), (2, ⟨0xFF, 0x03, []⟩)]
    dispatches (dataIn st s ([0x7E, 0x01, 0x7D] ++ encodeLine st s frames)).trace =
      frames.map (·.2) := by
  intro st s frames
  have hnoise : dispatches (rxBytes st s ([0x7E, 0x01, 0x7D] ++ [flag])).trace = [] := by
    decide +kernel
  have hfits : ∀ f ∈ frames, Fits st s.myAddress s.peerAddress f.2 := by
    intro f hf
    simp only [frames, List.mem_cons, List.not_mem_nil, or_false] at hf
    rcases hf with rfl | rfl
    · exact ⟨by decide, by decide, by decide⟩
    · exact ⟨by decide, by decide, by decide⟩
  have hline : dispatches ([[0x7E, 0x01, 0x7D] ++ encodeLine st s frames].foldl (dataIn st) s).trace =
      dispatches (rxBytes st s ([0x7E, 0x01, 0x7D] ++ [flag])).trace ++ frames.map (·.2) :=
    dispatches_encodeLine mockPlatform_filterView s _ rfl s (by simp [frames]) hfits
      (List.append_nil _)
  rw [hnoise] at hline
  exact hline

end Decode

/-! ### An escape before the closing flag -/

/-- With a segment that ends in an escape, whatever follows and however the octets are cut into calls, the
parser dispatches what it dispatches without that segment. -/
def EscapeAborts (st : Station) (s : Ctx) (body : List UInt8) : Prop :=
  ∀ (after : List UInt8) (chunks chunks' : List (List UInt8)),
    chunks.flatten = flag :: (body ++ esc :: flag :: after) → chunks'.flatten = flag :: after →
      dispatches (chunks.foldl (dataIn st) s).trace = dispatches (chunks'.foldl (dataIn st) s).trace

section Escape

variable {st : Station}

theorem rxByte_flag_rxState (s : Ctx) : (rxByte st s flag).rxState = .addr ∧ (rxByte st s flag).rxIndex = 0 ∧
    (rxByte st s flag).rxCrc = fcsInitValue := by
  rcases @rxByte_flag_cases st s with h | ⟨address, ctrl, info, h⟩
  · rw [h]
    exact ⟨rfl, rfl, rfl⟩
  · rw [h]
    exact ⟨rfl, rfl, rfl⟩

theorem filterView_rxBytes (s : Ctx) {bytes : List UInt8} (h : flag ∉ bytes) :
    filterView (rxBytes st s bytes) = filterView s := by
  rw [rxBytes_withParser s h]
  rfl

/-- A segment that the reference keeps is dispatched. -/
theorem segment_dispatched (hp : st.platform.Preserves filterView) {s : Ctx} {seg : List UInt8}
    (h : Reading st s seg) (hkeep : Keeps st s.myAddress s.peerAddress (octetCode.unstuff seg)) :
    ∃ f, dispatches (rxByte st s flag).trace = dispatches s.trace ++ [f] := by
  rw [rxByte_flag_heard h, if_pos hkeep]
  extract_lets f
  exact ⟨_, congrArg FilterView.dispatched
    (filterView_dispatchFrame hp s f.address f.ctrl (if f.info = [] then none else some (heardInfo f.info)))⟩

/-- A segment that the reference does not keep leaves the parser as it was after the opening flag. -/
theorem segment_agree {s : Ctx} {seg : List UInt8} (hseg : flag ∉ seg)
    (hkeep : ¬Keeps st (rxByte st s flag).myAddress (rxByte st s flag).peerAddress (octetCode.unstuff seg)) :
    Agree (rxByte st (rxBytes st (rxByte st s flag) seg) flag) (rxByte st s flag) := by
  obtain ⟨hstate, hindex, hcrc⟩ := @rxByte_flag_rxState st s
  have hread : Reading st (rxBytes st (rxByte st s flag) seg) seg :=
    rxBytes_reading (rxByte_flag_reading s) hseg
  generalize rxByte st s flag = t at *
  have hfilter : filterView (rxBytes st t seg) = filterView t := filterView_rxBytes t hseg
  have hmy : (rxBytes st t seg).myAddress = t.myAddress := congrArg FilterView.myAddress hfilter
  have hpeer : (rxBytes st t seg).peerAddress = t.peerAddress := congrArg FilterView.peerAddress hfilter
  rw [rxByte_flag_heard hread, hmy, hpeer, if_neg hkeep]
  refine ⟨hstate.symm, hindex.symm, hcrc.symm, fun i hi => ?_, hfilter⟩
  rw [hindex] at hi
  exact absurd hi (Nat.not_lt_zero i)

/-- The closing flag does not look whether an escape is pending: the segment is aborted just when the octets
before the escape make up no frame by themselves. -/
theorem escapeAborts_iff (hp : st.platform.Preserves filterView) (s : Ctx) {body : List UInt8}
    (hbody : flag ∉ body) :
    EscapeAborts st s body ↔ ¬Keeps st s.myAddress s.peerAddress (octetCode.unstuff body) := by
  have hseg : flag ∉ body ++ [esc] := by
    rw [List.mem_append, List.mem_singleton, not_or]
    exact ⟨hbody, by decide⟩
  have hunstuff : octetCode.unstuff (body ++ [esc]) = octetCode.unstuff body :=
    octetCode.unstuff_snoc_esc body
  obtain ⟨hmy, hpeer⟩ := rxBytes_addresses hp s [flag]
  have hmy : (rxByte st s flag).myAddress = s.myAddress := hmy
  have hpeer : (rxByte st s flag).peerAddress = s.peerAddress := hpeer
  have hsplit (after : List UInt8) : rxBytes st s (flag :: (body ++ esc :: flag :: after)) =
      rxBytes st (rxByte st (rxBytes st (rxByte st s flag) (body ++ [esc])) flag) after := by
    rw [List.append_cons, rxBytes, List.foldl_cons, List.foldl_append]
    rfl
  have hchunks (chunks : List (List UInt8)) : dispatches (chunks.foldl (dataIn st) s).trace =
      dispatches (rxBytes st s chunks.flatten).trace :=
    congrArg FilterView.dispatched (dataIn_chunks_agree hp s chunks).filter
  constructor
  · intro haborts hkeep
    have hnone := haborts [] [flag :: (body ++ [esc, flag])] [[flag]] (by simp) (by simp)
    rw [hchunks, hchunks, List.flatten_singleton, List.flatten_singleton, hsplit] at hnone
    have hread : Reading st (rxBytes st (rxByte st s flag) (body ++ [esc])) (body ++ [esc]) :=
      rxBytes_reading (rxByte_flag_reading s) hseg
    have hfilter : filterView (rxBytes st (rxByte st s flag) (body ++ [esc])) =
        filterView (rxByte st s flag) := filterView_rxBytes _ hseg
    have hmy' : (rxBytes st (rxByte st s flag) (body ++ [esc])).myAddress = s.myAddress :=
      (congrArg FilterView.myAddress hfilter).trans hmy
    have hpeer' : (rxBytes st (rxByte st s flag) (body ++ [esc])).peerAddress = s.peerAddress :=
      (congrArg FilterView.peerAddress hfilter).trans hpeer
    have hold : dispatches (rxBytes st (rxByte st s flag) (body ++ [esc])).trace =
        dispatches (rxByte st s flag).trace := congrArg FilterView.dispatched hfilter
    rw [← hmy', ← hpeer', ← hunstuff] at hkeep
    obtain ⟨f, hf⟩ := segment_dispatched hp hread hkeep
    have hone : dispatches (rxByte st s flag).trace ++ [f] = dispatches (rxByte st s flag).trace := by
      rw [← hold, ← hf]
      exact hnone.trans hold.symm
    exact absurd (List.append_right_eq_self.mp hone) (List.cons_ne_nil f [])
  · intro hkeep after chunks chunks' hleft hright
    have hagree := @segment_agree st s _ hseg (by rw [hunstuff, hmy, hpeer]; exact hkeep)
    rw [hchunks, hchunks, hleft, hright, hsplit]
    exact congrArg FilterView.dispatched (rxBytes_agree hp hagree after).filter

/-- Two octets and an escape between two flags. -/
theorem escapeAborts_iff_mock :
    let st := mockStation 0x01 1 (by decide) (by decide)
    EscapeAborts st (initCtx st zeroMemory) [0x01, 0x03] ↔
      ¬Keeps st 0x01 0x00 (octetCode.unstuff [0x01, 0x03]) :=
  escapeAborts_iff mockPlatform_filterView _ (by decide)

/-- A UI frame whose sender put an escape before the closing flag is dispatched like any other. -/
theorem aborted_frame_dispatched :
    let st := mockStation 0x01 1 (by decide) (by decide)
    let s := initCtx st zeroMemory
    let f : Frame := ⟨0xFF, 0x03, [0x41]⟩
    let body := octetCode.stuff (f.content crcOpsDefault)
    flag ∉ body ∧ dispatches (dataIn st s (flag :: (body ++ [esc, flag]))).trace = [f] ∧
      ¬EscapeAborts st s body := by
  intro st s f body
  have hheard : dispatches (dataIn st s (flag :: (body ++ [esc, flag]))).trace = [f] := by decide +kernel
  have hnone : dispatches (dataIn st s [flag]).trace = [] := by decide +kernel
  refine ⟨octetCode.flag_not_mem_stuff _, hheard, fun haborts => ?_⟩
  have hsame : dispatches (dataIn st s (flag :: (body ++ [esc, flag]))).trace =
      dispatches (dataIn st s [flag]).trace :=
    haborts [] [flag :: (body ++ [esc, flag])] [[flag]] List.flatten_singleton List.flatten_singleton
  rw [hheard, hnone] at hsame
  exact absurd hsame (List.cons_ne_nil f [])

end Escape

end AtcHdlc
