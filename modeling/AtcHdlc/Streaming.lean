import AtcHdlc.Atomic
import AtcHdlc.Emission
import AtcHdlc.Fcs

/-! The streamed UI frame. A frame that is put out in pieces is the frame that one call puts out, as long
as nothing else is sent while it is open. Nothing in a context says that a frame is open, and every sender
uses the same line and the same running checksum; so a frame that is sent meanwhile cuts the open one in
two. -/

namespace AtcHdlc

/-- The calls of `on_send` in a trace, each octet with its flush mark. -/
def sends (trace : List Obs) : List (UInt8 × Bool) :=
  trace.filterMap fun
    | .send byte flush => some (byte, flush)
    | _ => none

/-- `atc_hdlc_transmit_ui_start`, one `atc_hdlc_transmit_ui_data` for each piece, and
`atc_hdlc_transmit_ui_end`. -/
def streamUi (st : Station) (s : Ctx) (address : UInt8) (pieces : List Payload) : Ctx :=
  transmitUiEnd (pieces.foldl (transmitUiData st) (transmitUiStart st s address))

theorem sends_append (l r : List Obs) : sends (l ++ r) = sends l ++ sends r := List.filterMap_append

theorem sends_obs (crc : CrcOps) (m : Moment) (f : Frame) :
    sends (f.obs crc m) =
      (flag :: octetCode.stuff (f.content crc)).map (·, false) ++ [(flag, true)] := by
  have hsend (bytes : List UInt8) : sends (bytes.map (.send · false)) = bytes.map (·, false) := by
    rw [sends, List.filterMap_map, ← List.filterMap_eq_map]
    rfl
  have hmark : sends (f.obs crc m) =
      sends ((flag :: octetCode.stuff (f.content crc)).map (.send · false) ++ [.send flag true]) := rfl
  rw [hmark, sends_append, hsend]
  rfl

section StreamUi

variable (st : Station)

theorem emitAll_append (s : Ctx) (left right : List UInt8) :
    emitAll st s (left ++ right) = emitAll st (emitAll st s left) right := List.foldl_append

theorem transmitUiData_eq (s : Ctx) {data : Payload} (hdata : data.NonNull) :
    transmitUiData st s data = emitAll st s data.read := by
  rw [transmitUiData, if_neg (Payload.nonNull_iff.mp hdata)]

/-- The pieces leave what one run of `emit` over all of their octets leaves. -/
theorem foldl_transmitUiData (s : Ctx) {pieces : List Payload} (hpieces : ∀ p ∈ pieces, p.NonNull) :
    pieces.foldl (transmitUiData st) s = emitAll st s (pieces.flatMap Payload.read) := by
  induction pieces generalizing s with
  | nil => rfl
  | cons p pieces ih =>
      rw [List.foldl_cons, transmitUiData_eq st s (hpieces p List.mem_cons_self),
        ih _ fun q hq => hpieces q (List.mem_cons_of_mem p hq), List.flatMap_cons, emitAll_append]

theorem streamUi_eq (s : Ctx) (address : UInt8) {pieces : List Payload}
    (hpieces : ∀ p ∈ pieces, p.NonNull) :
    streamUi st s address pieces = s.put st ⟨address, uCtrl uUi false, pieces.flatMap Payload.read⟩ := by
  rw [streamUi, foldl_transmitUiData st _ hpieces]
  exact frameEnd_emitAll_frameBegin st s ⟨address, uCtrl uUi false, pieces.flatMap Payload.read⟩

theorem transmitU_eq (s : Ctx) (ctrl address : UInt8) {data : Payload} (hdata : data.NonNull)
    (hlen : data.len ≤ st.config.maxInfoSize) :
    transmitU st s ctrl address data = (.ok, s.put st ⟨address, ctrl, data.read⟩) := by
  rw [transmitU, if_neg (Payload.nonNull_iff.mp hdata), if_neg (Nat.not_lt.mpr hlen),
    frameSend_of_nonNull st s address ctrl hdata]

/-- However a payload is cut into pieces, the streamed frame is the one that one call puts out: octet for
octet with the same flush marks, the last flag alone asking for a flush, no flag before it but the first,
and no field of the context touched but the running checksum. -/
theorem streamUi_transmitUi (s : Ctx) (address : UInt8) {data : Payload} (hdata : data.NonNull)
    (hlen : data.len ≤ st.config.maxInfoSize) {pieces : List Payload}
    (hpieces : ∀ p ∈ pieces, p.NonNull) (hcut : pieces.flatMap Payload.read = data.read) :
    (transmitUi st s address data).1 = .ok ∧
      streamUi st s address pieces = (transmitUi st s address data).2 ∧
      (∃ crc trace, streamUi st s address pieces = { s with txCrc := crc, trace := trace }) ∧
      ∃ inner : List UInt8, flag ∉ inner ∧ sends (streamUi st s address pieces).trace =
        sends s.trace ++ ((flag, false) :: inner.map (·, false) ++ [(flag, true)]) := by
  have hcall := transmitU_eq st s (uCtrl uUi false) address hdata hlen
  have hstream := streamUi_eq st s address hpieces
  rw [hcut] at hstream
  refine ⟨congrArg Prod.fst hcall, hstream.trans (congrArg Prod.snd hcall).symm, ⟨_, _, hstream⟩,
    octetCode.stuff (Frame.content st.crc ⟨address, uCtrl uUi false, data.read⟩), ?_, ?_⟩
  · exact octetCode.flag_not_mem_stuff _
  · rw [hstream, Ctx.put, sends_append, sends_obs]
    rfl

/-- A payload that is escaped throughout, cut between the octets and with an empty piece. -/
theorem streamUi_transmitUi_mock :
    let st := mockStation 0x01 1 (by decide) (by decide)
    let s := initCtx st zeroMemory
    streamUi st s 0x7E [.octets [0x7D], .null 0, .octets [0x7E, 0x7D]] =
      (transmitUi st s 0x7E (.octets [0x7D, 0x7E, 0x7D])).2 :=
  (@streamUi_transmitUi (mockStation 0x01 1 (by decide) (by decide)) _ 0x7E (.octets [0x7D, 0x7E, 0x7D])
    (.inl rfl) (by decide) [.octets [0x7D], .null 0, .octets [0x7E, 0x7D]] (by
      intro p hp
      simp only [List.mem_cons, List.not_mem_nil, or_false] at hp
      rcases hp with rfl | rfl | rfl
      · exact .inl rfl
      · exact .inr rfl
      · exact .inl rfl) rfl).2.1

end StreamUi

/-- What the octets between two flags are taken for by a receiver that has room for them and filters
nothing. -/
def segmentFrames (crc : CrcOps) (seg : List UInt8) : List Frame :=
  if minFrameLen ≤ (octetCode.unstuff seg).length ∧ FcsAccepts crc (octetCode.unstuff seg) then
    [segmentFrame (octetCode.unstuff seg)]
  else []

/-- The frames on a line. -/
def lineFrames (crc : CrcOps) (octets : List UInt8) : List Frame :=
  (octetCode.cutFrom [] octets).flatMap (segmentFrames crc)

/-- Whatever lies between two flags of a line, or before the first, is a frame or nothing. -/
def LineValid (crc : CrcOps) (octets : List UInt8) : Prop :=
  ∀ seg ∈ octetCode.cutFrom [] octets, seg ≠ [] → segmentFrames crc seg ≠ []

instance (crc : CrcOps) (octets : List UInt8) : Decidable (LineValid crc octets) :=
  inferInstanceAs (Decidable (∀ seg ∈ octetCode.cutFrom [] octets, _))

/-- Whole frames one after the other, and now and then the two flags of an abort. -/
def lineOf (crc : CrcOps) (l : List (Option Frame)) : List UInt8 :=
  l.flatMap fun
    | some f => f.octets crc
    | none => [flag, flag]

/-- What is on the line of a frame that is still open. -/
def openOctets : Option Frame → List UInt8
  | some f => flag :: octetCode.stuff f.body
  | none => []

section Line

variable (crc : CrcOps)

theorem segmentFrames_content (f : Frame) : segmentFrames crc (octetCode.stuff (f.content crc)) = [f] := by
  have hbody : f.body.length = f.info.length + 2 := by simp [Frame.body]
  have hlen := f.content_length crc
  have haccepts : FcsAccepts crc (f.content crc) := by
    have htwo : (f.content crc).length - 2 = f.body.length := by omega
    have hone : (f.content crc).length - 1 = f.body.length + 1 := by omega
    rw [FcsAccepts, htwo, hone, Frame.content, List.take_left,
      List.getD_append_right _ _ _ _ (Nat.le_refl _), List.getD_append_right _ _ _ _ (Nat.le_add_right _ 1),
      Nat.sub_self, Nat.add_sub_cancel_left]
    exact (rxFcs_fcsOctets (f.fcs crc)).symm
  have hmin : minFrameLen ≤ (f.content crc).length := by
    rw [hlen]
    simp only [minFrameLen, addrLen, ctrlLen, fcsLen]
    omega
  rw [segmentFrames, octetCode.unstuff_stuff, if_pos ⟨hmin, haccepts⟩, segmentFrame_content]

theorem segmentFrames_nil : segmentFrames crc [] = [] := if_neg fun h => absurd h.1 (by decide)

theorem cutFrom_of_not_mem {seg q : List UInt8} (h : flag ∉ q) : octetCode.cutFrom seg q = [] := by
  induction q generalizing seg with
  | nil => rfl
  | cons b q ih =>
      have hb : b ≠ octetCode.flag := fun heq => h (List.mem_cons.mpr (.inl heq.symm))
      rw [octetCode.cutFrom_cons seg hb]
      exact ih fun hmem => h (List.mem_cons_of_mem _ hmem)

/-- The segments of whole frames come one after the other. -/
theorem cutFrom_lineOf (l : List (Option Frame)) (rest : List UInt8) :
    octetCode.cutFrom [] (lineOf crc l ++ rest) =
      l.flatMap (fun
        | some f => [[], octetCode.stuff (f.content crc)]
        | none => [[], []]) ++ octetCode.cutFrom [] rest := by
  induction l with
  | nil => rfl
  | cons o l ih =>
      have hflag (bytes : List UInt8) :
          octetCode.cutFrom [] (flag :: bytes) = [] :: octetCode.cutFrom [] bytes :=
        octetCode.cutFrom_flag [] bytes
      rw [lineOf, List.flatMap_cons, List.append_assoc, List.flatMap_cons, List.append_assoc]
      cases o with
      | none =>
          simp only [List.cons_append, List.nil_append, hflag]
          rw [← ih]
          rfl
      | some f =>
          have hcut := cutFrom_octets crc 0 f (lineOf crc l ++ rest)
          simp only [List.replicate_zero, List.nil_append] at hcut
          rw [← ih]
          exact hcut

theorem cutFrom_openOctets (opened : Option Frame) : octetCode.cutFrom [] (openOctets opened) = [[]] ∨
    octetCode.cutFrom [] (openOctets opened) = [] := by
  cases opened with
  | none => exact .inr rfl
  | some f =>
      refine .inl ?_
      have hflag : octetCode.cutFrom [] (flag :: octetCode.stuff f.body) =
          [] :: octetCode.cutFrom [] (octetCode.stuff f.body) := octetCode.cutFrom_flag [] _
      rw [openOctets, hflag, cutFrom_of_not_mem (octetCode.flag_not_mem_stuff f.body)]

/-- A line of whole frames, after which one may be open, is valid and shows these frames. -/
theorem lineFrames_lineOf (l : List (Option Frame)) (opened : Option Frame) :
    LineValid crc (lineOf crc l ++ openOctets opened) ∧
      lineFrames crc (lineOf crc l ++ openOctets opened) = l.filterMap id := by
  rw [LineValid, lineFrames, cutFrom_lineOf]
  have hopen : ∀ seg ∈ octetCode.cutFrom [] (openOctets opened), seg = [] := by
    intro seg hseg
    rcases cutFrom_openOctets opened with h | h
    · rw [h] at hseg
      exact List.mem_singleton.mp hseg
    · rw [h] at hseg
      exact absurd hseg List.not_mem_nil
  constructor
  · intro seg hseg hne
    rcases List.mem_append.mp hseg with hseg | hseg
    · obtain ⟨o, -, ho⟩ := List.mem_flatMap.mp hseg
      cases o with
      | none =>
          simp only [List.mem_cons, List.not_mem_nil, or_false, or_self] at ho
          exact absurd ho hne
      | some f =>
          simp only [List.mem_cons, List.not_mem_nil, or_false] at ho
          rw [ho.resolve_left hne, segmentFrames_content]
          exact List.cons_ne_nil f []
    · exact absurd (hopen seg hseg) hne
  · have hrest : (octetCode.cutFrom [] (openOctets opened)).flatMap (segmentFrames crc) = [] := by
      refine List.flatMap_eq_nil_iff.mpr fun seg hseg => ?_
      rw [hopen seg hseg, segmentFrames_nil]
    rw [List.flatMap_append, hrest, List.append_nil]
    induction l with
    | nil => rfl
    | cons o l ih =>
        cases o with
        | none =>
            rw [List.flatMap_cons, List.flatMap_append, ih]
            simp [segmentFrames_nil]
        | some f =>
            rw [List.flatMap_cons, List.flatMap_append, ih]
            simp [segmentFrames_nil, segmentFrames_content]

end Line

/-- What a context shows of its sender: the octets on the line and the running checksum. -/
def senderView (s : Ctx) : List UInt8 × UInt16 := (sentOctets s.trace, s.txCrc)

/-- From `s` to `s'` whole frames go out. Where nothing goes out, the checksum is as it was. -/
def Whole (st : Station) (s s' : Ctx) : Prop :=
  ∃ l : List (Option Frame), sentOctets s'.trace = sentOctets s.trace ++ lineOf st.crc l ∧
    (l = [] → s'.txCrc = s.txCrc)

section Whole

variable {st : Station}

theorem senderView_logs (s : Ctx) {os : List Obs} (h : sentOctets os = []) :
    senderView (s.logs os) = senderView s := by
  have htrace : sentOctets (s.logs os).trace = sentOctets s.trace := by
    rw [Ctx.logs, sentOctets_append, h, List.append_nil]
  exact congrArg (·, s.txCrc) htrace

theorem senderView_t1Start (s : Ctx) : senderView (t1Start st s) = senderView s :=
  senderView_logs s (by split_ifs <;> rfl)

theorem senderView_t1Stop (s : Ctx) : senderView (t1Stop st s) = senderView s :=
  senderView_logs s (by split_ifs <;> rfl)

theorem senderView_t2Start (s : Ctx) : senderView (t2Start st s) = senderView s :=
  senderView_logs s (by split_ifs <;> rfl)

theorem senderView_t2Stop (s : Ctx) : senderView (t2Stop st s) = senderView s :=
  senderView_logs s (by split_ifs <;> rfl)

theorem senderView_resetState (s : Ctx) : senderView (resetState st s) = senderView s := by
  have hlog : senderView (s.logs [.reset]) = senderView s := senderView_logs s rfl
  rw [resetState, senderView_t2Stop, senderView_t1Stop, ← hlog, clearSlotLens_eq]
  rfl

theorem senderView_onData (hp : st.platform.Passive) (s : Ctx) (payload : List UInt8) :
    senderView (onData st s payload) = senderView s := by
  rw [onData_passive hp]
  refine senderView_logs s ?_
  unfold dataObs
  split_ifs <;> rfl

theorem senderView_onEvent (hp : st.platform.Passive) (s : Ctx) (event : Event) :
    senderView (onEvent st s event) = senderView s := by
  rw [onEvent_passive hp]
  refine senderView_logs s ?_
  unfold eventObs
  split_ifs <;> rfl

theorem senderView_setState (hp : st.platform.Passive) (s : Ctx) (newState : State) (event : Event) :
    senderView (setState st s newState event) = senderView s := by
  simp only [setState]
  split_ifs
  · exact senderView_onEvent hp _ event
  · rfl

namespace Whole

theorem of_view {s s' : Ctx} (h : senderView s' = senderView s) : Whole st s s' := by
  refine ⟨[], ?_, fun _ => congrArg Prod.snd h⟩
  rw [lineOf, List.flatMap_nil, List.append_nil]
  exact congrArg Prod.fst h

theorem trans {s t u : Ctx} (h : Whole st s t) (h' : Whole st t u) : Whole st s u := by
  obtain ⟨l, hl, hcrc⟩ := h
  obtain ⟨l', hl', hcrc'⟩ := h'
  refine ⟨l ++ l', ?_, fun hnil => ?_⟩
  · rw [hl', hl, lineOf, lineOf, lineOf, List.flatMap_append, List.append_assoc]
  · obtain ⟨hleft, hright⟩ := List.append_eq_nil_iff.mp hnil
    exact (hcrc' hright).trans (hcrc hleft)

theorem put (s : Ctx) (f : Frame) : Whole st s (s.put st f) := by
  refine ⟨[some f], ?_, fun h => absurd h (List.cons_ne_nil _ _)⟩
  rw [Ctx.put, sentOctets_append, sentOctets_obs, lineOf, List.flatMap_singleton]

theorem log (s : Ctx) {o : Obs} (ho : sentOctets [o] = []) : Whole st s (s.log o) :=
  .of_view (senderView_logs s ho)

end Whole

theorem Effect.whole (hp : st.platform.Passive) {ctrl : UInt8} {s s' : Ctx} (h : Effect st ctrl s s') :
    Whole st s s' := by
  cases h with
  | put f => exact .put s f
  | t1Start => exact .of_view (senderView_t1Start s)
  | t1Stop => exact .of_view (senderView_t1Stop s)
  | t2Start => exact .of_view (senderView_t2Start s)
  | t2Stop => exact .of_view (senderView_t2Stop s)
  | data payload => exact .of_view (senderView_onData hp s payload)
  | event event => exact .of_view (senderView_onEvent hp s event)
  | reset => exact .of_view (senderView_resetState s)
  | nullWindow => exact .log s rfl
  | ack _ _ => exact .of_view (@senderView_logs s [.acked (ctrlNr ctrl)] rfl)
  | receive payload => exact .of_view (@senderView_logs s [.received payload] rfl)
  | link | rejException | remoteBusy | arm | frmr => exact .of_view rfl

theorem rxBytes_whole (hp : st.platform.Passive) (s : Ctx) (bytes : List UInt8) :
    Whole st s (rxBytes st s bytes) := by
  refine rxBytes_induct (Q := fun _ => Whole st s) (fun t u ht => ?_) (fun t address ctrl info ht => ?_)
    (fun ctrl t t' he ht => ht.trans (he.whole hp)) (fun _ _ ht => ht) (.of_view rfl) bytes
  · exact ht.trans (.of_view rfl)
  · exact ht.trans (.log t rfl)

theorem retransmitLoop_whole (w : TxWindow) (endVs fuel slotIdx : Nat) (s : Ctx) :
    Whole st s (retransmitLoop st w endVs fuel slotIdx s) := by
  induction fuel generalizing slotIdx s with
  | zero => exact .of_view rfl
  | succ fuel ih =>
      simp only [retransmitLoop, frameSend_octets]
      split_ifs
      · exact .of_view rfl
      · have hread : Whole st s (s.log (.slotRead slotIdx)) := .log s rfl
        have hvs (t : Ctx) (vs : Nat) : Whole st t { t with vs := vs } := .of_view rfl
        exact ((hread.trans (.put _ _)).trans (hvs _ _)).trans (ih _ _)

theorem retransmitOutstanding_whole (w : TxWindow) (s : Ctx) :
    Whole st s (retransmitOutstanding st w s) := by
  unfold retransmitOutstanding
  extract_lets t endVs outstanding slotIdx u v
  have hu : Whole st s u := .of_view rfl
  exact (hu.trans (retransmitLoop_whole w endVs 8 slotIdx u)).trans (.of_view (senderView_t1Start v))

theorem dataIn_whole (hp : st.platform.Passive) (s : Ctx) (bytes : List UInt8) :
    Whole st s (dataIn st s bytes) := by
  refine (rxBytes_whole hp s bytes).trans ?_
  unfold dataIn retransmitIfPending
  split_ifs
  · cases st.txWindow with
    | none => exact .log _ rfl
    | some w => exact retransmitOutstanding_whole w _
  · exact .of_view rfl

theorem Deed.whole (hp : st.platform.Passive) {call : Call} (hstreams : ¬call.Streams) {s s' : Ctx}
    (h : Deed st call s s') : Whole st s s' := by
  cases h with
  | put f => exact .put s f
  | loose crc os hos h => exact absurd h hstreams
  | t1Start => exact .of_view (senderView_t1Start s)
  | t2Stop => exact .of_view (senderView_t2Stop s)
  | event event => exact .of_view (senderView_onEvent hp s event)
  | reset _ => exact .of_view (senderView_resetState s)
  | accept w data _ _ => exact .of_view (@senderView_logs (filled w s data) [.accept data.read] rfl)
  | _ => exact .of_view rfl

theorem abort_whole (s : Ctx) : Whole st s (abort st s) := by
  refine ⟨[none], ?_, fun h => absurd h (List.cons_ne_nil _ _)⟩
  have hview : senderView (abort st s) = senderView ((s.log (.send flag false)).log (.send flag true)) :=
    senderView_resetState _
  refine (congrArg Prod.fst hview).trans ?_
  rw [senderView, Ctx.log, Ctx.log, List.append_assoc, sentOctets_append]
  rfl

/-- Every call but those of the streaming puts out whole frames. -/
theorem Call.whole (hp : st.platform.Passive) (s : Ctx) {call : Call} (hlegal : call.Legal)
    (hstreams : call.Streams → call = .abort) : Whole st s (call.run st s) := by
  by_cases habort : call = .abort
  · rw [habort]
    exact abort_whole s
  · by_cases hin : ∃ bytes, call = .dataIn bytes
    · obtain ⟨bytes, rfl⟩ := hin
      exact dataIn_whole hp s bytes
    · have hdeeds := Call.deeds st s hlegal fun bytes h => hin ⟨bytes, h⟩
      exact hdeeds.induct (P := Whole st s)
        (fun _ _ hd ht => ht.trans (hd.whole hp fun h => habort (hstreams h))) (.of_view rfl)

end Whole

/-- A frame that the handlers answer, in the context in which it is dispatched. -/
def answered (x : Ctx × Received) : Bool :=
  let pf := ctrlPf x.2.ctrl
  match x.1.currentState with
  | .disconnected => isUframe x.2.ctrl && match uCmd x.2.ctrl with
      | .sabm | .disc | .snrm | .sabme | .snrme | .sarme => true
      | _ => false
  | .connecting => isUframe x.2.ctrl && match uCmd x.2.ctrl with
      | .sabm | .disc => true
      | _ => false
  | .connected =>
      if isUframe x.2.ctrl then
        match uCmd x.2.ctrl with
        | .dm | .frmr | .ui => false
        | .test => isCmd x.1 x.2.address
        | _ => true
      else if isIframe x.2.ctrl then
        !nrValid x.1 (ctrlNr x.2.ctrl) || pf ||
          if ctrlNs x.2.ctrl = x.1.vr then !x.1.t2Active && x.1.localBusy else !x.1.rejException
      else !nrValid x.1 (ctrlNr x.2.ctrl) || isCmd x.1 x.2.address && pf
  | .disconnecting =>
      if isUframe x.2.ctrl then
        match uCmd x.2.ctrl with
        | .sabm | .sabme | .disc => true
        | _ => false
      else pf
  | .frmrError => isUframe x.2.ctrl && uCmd x.2.ctrl == .sabm

/-- A call that sends nothing. -/
def Silent (st : Station) (s : Ctx) : Call → Prop
  | .t1Expired =>
      (st.config.maxRetries > 0 ∧ (s.n2 + 1) % 256 > st.config.maxRetries) ∨ s.currentState = .disconnected ∨
        s.currentState = .connected ∧ s.va = s.vs
  | .t2Expired | .linkReset | .abort => False
  | .linkSetup _ => s.currentState ≠ .disconnected
  | .disconnect => s.currentState ≠ .connected ∧ s.currentState ≠ .frmrError
  | .setLocalBusy busy => ¬(s.currentState = .connected ∧ busy = false ∧ s.localBusy = true)
  | .dataIn bytes =>
      (∀ x ∈ chunkFrames st s bytes, answered x = false) ∧ resends (chunkFrames st s bytes) = false
  | .transmitUi _ data | .transmitTest _ data => ¬data.NonNull ∨ st.config.maxInfoSize < data.len
  | .transmitI data => Refused st s data
  | .transmitUiStart _ | .transmitUiEnd => False
  | .transmitUiData data => data.NonNull → data.read = []

section Silent

variable {st : Station}

namespace LinkView

theorem line_acknowledge (v : LinkView) {pf : Bool} (hpf : pf = false)
    (hbusy : (!v.t2Active && v.localBusy) = false) : (v.acknowledge st pf).line = v.line := by
  rw [hpf, acknowledge]
  cases ht2 : v.t2Active with
  | true => rfl
  | false =>
      rw [ht2] at hbusy
      have hbusy : v.localBusy = false := hbusy
      simp [hbusy]

theorem line_refuse (v : LinkView) {pf : Bool} (hpf : pf = false) (hrej : (!v.rejException) = false) :
    (v.refuse st pf).line = v.line := by
  have hrej : v.rejException = true := by simpa using hrej
  rw [hpf, refuse, if_pos hrej]
  rfl

/-- A frame that is not answered leaves the line alone. -/
theorem line_next {s : Ctx} {f : Received} (h : answered (s, f) = false) :
    ((linkView s).next st s f).line = (linkView s).line := by
  unfold answered at h
  unfold next
  cases hstate : s.currentState with
  | disconnected =>
      simp only [hstate] at h ⊢
      cases hu : isUframe f.ctrl with
      | false => rfl
      | true =>
          rw [hu, Bool.true_and] at h
          cases hcmd : uCmd f.ctrl with
          | sabm | disc | snrm | sabme | snrme | sarme => simp [hcmd] at h
          | ua | dm | frmr | ui | test | unknown => rfl
  | connecting =>
      simp only [hstate] at h ⊢
      cases hu : isUframe f.ctrl with
      | false => rfl
      | true =>
          rw [hu, Bool.true_and] at h
          cases hcmd : uCmd f.ctrl with
          | sabm | disc => simp [hcmd] at h
          | ua | dm => cases ctrlPf f.ctrl <;> rfl
          | frmr | ui | test | snrm | sabme | snrme | sarme | unknown => rfl
  | connected =>
      simp only [hstate] at h ⊢
      cases hu : isUframe f.ctrl with
      | true =>
          simp only [hu, if_true] at h ⊢
          unfold unnumbered
          cases hcmd : uCmd f.ctrl with
          | dm | frmr | ui => rfl
          | test =>
              simp only [hcmd] at h ⊢
              rw [h]
              cases f.info <;> rfl
          | sabm | disc | snrm | sabme | snrme | sarme | ua | unknown => simp [hcmd] at h
      | false =>
          simp only [hu, Bool.false_eq_true, if_false] at h ⊢
          cases hi : isIframe f.ctrl with
          | true =>
              simp only [hi, if_true, Bool.or_eq_false_iff, Bool.not_eq_false'] at h ⊢
              obtain ⟨⟨hvalid, hpf⟩, hanswer⟩ := h
              rw [if_neg (not_not.mpr hvalid)]
              by_cases hseq : ctrlNs f.ctrl = s.vr
              · rw [if_pos hseq] at hanswer ⊢
                exact line_acknowledge _ hpf hanswer
              · rw [if_neg hseq] at hanswer ⊢
                exact line_refuse _ hpf hanswer
          | false =>
              simp only [hi, Bool.false_eq_true, if_false, Bool.or_eq_false_iff, Bool.not_eq_false'] at h ⊢
              obtain ⟨hvalid, hpoll⟩ := h
              rw [if_neg (not_not.mpr hvalid), hpoll]
              exact line_busy _ _
  | disconnecting =>
      simp only [hstate] at h ⊢
      cases hu : isUframe f.ctrl with
      | false =>
          rw [hu] at h
          have hpf : ctrlPf f.ctrl = false := h
          rw [hpf]
          rfl
      | true =>
          simp only [hu, if_true] at h
          cases hcmd : uCmd f.ctrl with
          | sabm | sabme | disc => simp [hcmd] at h
          | ua | dm => cases ctrlPf f.ctrl <;> rfl
          | frmr | ui | test | snrm | snrme | sarme | unknown => rfl
  | frmrError =>
      simp only [hstate] at h ⊢
      rw [if_neg]
      rintro ⟨hu, hcmd⟩
      simp [hu, hcmd] at h

end LinkView

theorem sentOctets_onLine (trace : List Obs) : sentOctets (onLine trace) = sentOctets trace := by
  induction trace with
  | nil => rfl
  | cons o trace ih =>
      have hcons : sentOctets (o :: trace) = sentOctets [o] ++ sentOctets trace := sentOctets_append [o] trace
      have hline : onLine (o :: trace) = onLine [o] ++ onLine trace := onLine_append [o] trace
      rw [hcons, hline, sentOctets_append, ih]
      congr 1
      cases o <;> rfl

/-- A chunk that ends with no I-frame sends nothing behind the answers to its frames. -/
theorem retransmitIfPending_silent (hp : st.platform.Passive) {mem : Memory} {s : Ctx} (hreach : Reachable st mem s)
    {bytes : List UInt8} (hresends : resends (chunkFrames st s bytes) = false) :
    sentOctets (dataIn st s bytes).trace = sentOctets (rxBytes st s bytes).trace := by
  have harmed := mt (resends_iff hp (hreach.windowed hp) (hreach.not_pending hp) bytes).mp
    (ne_true_of_eq_false hresends)
  rw [dataIn, retransmitIfPending]
  split_ifs with hpending
  · have hsame : (rxBytes st s bytes).retransmitFrom = (rxBytes st s bytes).vs := by
      by_contra hne
      exact harmed ⟨hpending, hne⟩
    cases hw : st.txWindow with
    | none =>
        rw [rxBytes_pending hp hw, hreach.not_pending hp] at hpending
        exact absurd hpending (by decide)
    | some w =>
        simp only [retransmitOutstanding, retransmitLoop, if_pos hsame]
        exact congrArg Prod.fst (senderView_t1Start _)
  · rfl

/-- A chunk none of whose frames is answered, and which ends with no I-frame, sends nothing. -/
theorem dataIn_silent (hp : st.platform.Passive) {mem : Memory} {s : Ctx} (hreach : Reachable st mem s)
    {bytes : List UInt8} (hframes : ∀ x ∈ chunkFrames st s bytes, answered x = false)
    (hresends : resends (chunkFrames st s bytes) = false) :
    sentOctets (dataIn st s bytes).trace = sentOctets s.trace := by
  rw [retransmitIfPending_silent hp hreach hresends]
  refine rxBytes_frames st (P := fun t => sentOctets t.trace = sentOctets s.trace)
    (K := fun x => answered x = false) (fun _ _ ht => ht) (fun t f ht hf => ?_) rfl hframes
  have hline : onLine (f.dispatch st t).trace = onLine t.trace :=
    (congrArg LinkView.line (dispatchFrame_linkView hp t f)).trans (LinkView.line_next hf)
  rw [← sentOctets_onLine, hline, sentOctets_onLine, ht]

theorem transmitU_silent (s : Ctx) (ctrl address : UInt8) {data : Payload}
    (h : ¬data.NonNull ∨ st.config.maxInfoSize < data.len) : (transmitU st s ctrl address data).2 = s := by
  rw [transmitU]
  split_ifs with hnull hlen
  · rfl
  · rfl
  · rcases h with hdata | hlong
    · exact absurd (Payload.nonNull_iff.mpr hnull) hdata
    · exact absurd hlong hlen

theorem Call.silent (hp : st.platform.Passive) {mem : Memory} {s : Ctx} (hreach : Reachable st mem s)
    {call : Call} (h : Silent st s call) : sentOctets (call.run st s).trace = sentOctets s.trace := by
  cases call with
  | t2Expired | linkReset | abort | transmitUiStart | transmitUiEnd => exact h.elim
  | dataIn bytes => exact dataIn_silent hp hreach h.1 h.2
  | linkSetup peerAddr =>
      have hstate : s.currentState ≠ .disconnected := h
      rw [run, AtcHdlc.linkSetup, if_pos hstate]
  | disconnect =>
      have hstate : s.currentState ≠ .connected ∧ s.currentState ≠ .frmrError := h
      rw [run, AtcHdlc.disconnect, if_pos hstate]
  | transmitI data => rw [run, Refused.transmitI_eq h]
  | transmitUi address data | transmitTest address data =>
      exact congrArg (sentOctets ·.trace) (transmitU_silent s _ address h)
  | transmitUiData data =>
      simp only [run, AtcHdlc.transmitUiData]
      split_ifs with hnull
      · rfl
      · rw [h (Payload.nonNull_iff.mpr hnull)]
        rfl
  | setLocalBusy busy =>
      simp only [run, AtcHdlc.setLocalBusy]
      split_ifs with hstate hset hclear
      · rfl
      · rfl
      · exact absurd ⟨not_not.mp hstate, by simpa using hclear.1, hclear.2⟩ h
      · rfl
  | t1Expired =>
      simp only [run, AtcHdlc.t1Expired]
      by_cases hlost : st.config.maxRetries > 0 ∧ (s.n2 + 1) % 256 > st.config.maxRetries
      · rw [if_pos hlost]
        exact congrArg Prod.fst ((senderView_resetState _).trans (senderView_setState hp _ _ _))
      · rw [if_neg hlost]
        rcases h with hlost' | hdown | ⟨hup, hidle⟩
        · exact absurd hlost' hlost
        · simp only [hdown]
        · simp only [hup, hidle, ne_eq, not_true, if_false]

end Silent

/-! ### Runs with a streamed frame -/

/-- The octets that go out between two contexts of a run. -/
def emitted (s s' : Ctx) : List UInt8 := (sentOctets s'.trace).drop (sentOctets s.trace).length

/-- What a call makes of the frame that is open. -/
def streamed (opened : Option Frame) : Call → Option Frame
  | .transmitUiStart address => some ⟨address, uCtrl uUi false, []⟩
  | .transmitUiData data =>
      if data.isNull ∧ 0 < data.len then opened
      else opened.map fun f => { f with info := f.info ++ data.read }
  | .transmitUiEnd => none
  | _ => opened

/-- The frames that are whole with a call: the streamed one when it ends, and those of any other call as
the octets of this call show them. -/
def completes (st : Station) (opened : Option Frame) (s : Ctx) (call : Call) : List Frame :=
  match call with
  | .transmitUiStart _ | .transmitUiData _ => []
  | .transmitUiEnd => opened.toList
  | call => lineFrames st.crc (emitted s (call.run st s))

/-- The frames of a run, each where it ends. -/
def expected (st : Station) : Option Frame → Ctx → List Call → List Frame
  | _, _, [] => []
  | opened, s, call :: calls =>
      completes st opened s call ++ expected st (streamed opened call) (call.run st s) calls

/-- The line of a run shows valid frames and nothing else: the streamed frame as a whole, and every other
frame that went out. -/
def Intact (st : Station) (s : Ctx) (calls : List Call) : Prop :=
  let line := emitted s (calls.foldl (Call.run st) s)
  LineValid st.crc line ∧ lineFrames st.crc line = expected st none s calls ∧
    (calls.foldl streamed none = none → line.getLast?.getD flag = flag)

/-- A call leaves the open frame alone: none begins within another, octets and ends belong to a frame, and
whatever else is called meanwhile is silent. -/
def Alone (st : Station) (opened : Option Frame) (s : Ctx) : Call → Prop
  | .transmitUiStart _ => opened = none
  | .transmitUiEnd => opened ≠ none
  | .transmitUiData data => opened = none → Silent st s (.transmitUiData data)
  | call => opened ≠ none → Silent st s call

/-- Every call of a run leaves the open frame alone. -/
def AllAlone (st : Station) : Option Frame → Ctx → List Call → Prop
  | _, _, [] => True
  | opened, s, call :: calls =>
      Alone st opened s call ∧ AllAlone st (streamed opened call) (call.run st s) calls

/-- The state of a run with a streamed frame: whole frames, behind them what there is of the open one, and
its running checksum. -/
structure OnAir (st : Station) (base : List UInt8) (opened : Option Frame) (s : Ctx)
    (l : List (Option Frame)) : Prop where
  line : sentOctets s.trace = base ++ (lineOf st.crc l ++ openOctets opened)
  crc : ∀ f ∈ opened, s.txCrc = crcFold st.crc fcsInitValue f.body

section OnAir

variable {st : Station} {base : List UInt8} {opened : Option Frame} {s : Ctx} {l : List (Option Frame)}

theorem lineOf_append (crc : CrcOps) (l l' : List (Option Frame)) :
    lineOf crc (l ++ l') = lineOf crc l ++ lineOf crc l' := List.flatMap_append

theorem lineOf_eq_nil {crc : CrcOps} {l : List (Option Frame)} (h : lineOf crc l = []) : l = [] := by
  cases l with
  | nil => rfl
  | cons o l =>
      rw [lineOf, List.flatMap_cons, List.append_eq_nil_iff] at h
      cases o with
      | none => exact absurd h.1 (by simp)
      | some f => exact absurd h.1 (by simp [Frame.octets])

theorem sentOctets_sends (octets : List UInt8) : sentOctets (octets.map (.send · false)) = octets := by
  rw [sentOctets, List.filterMap_map]
  exact List.filterMap_some

/-- What puts nothing on the line leaves the open frame as it is. -/
theorem OnAir.unchanged (h : OnAir st base opened s l) {s' : Ctx} (hwhole : Whole st s s')
    (hsame : sentOctets s'.trace = sentOctets s.trace) : OnAir st base opened s' l := by
  obtain ⟨l', hsaid, hcrc⟩ := hwhole
  have hnil : l' = [] := by
    apply @lineOf_eq_nil st.crc l'
    rw [hsame] at hsaid
    exact List.append_right_eq_self.mp hsaid.symm
  exact ⟨hsame.trans h.line, fun f hf => (hcrc hnil).trans (h.crc f hf)⟩

/-- A call that is not of the streaming. -/
theorem OnAir.other (h : OnAir st base opened s l) {call : Call} (hwhole : Whole st s (call.run st s))
    (hsilent : opened ≠ none → sentOctets (call.run st s).trace = sentOctets s.trace) :
    ∃ l', OnAir st base opened (call.run st s) (l ++ l') ∧
      l'.filterMap id = lineFrames st.crc (emitted s (call.run st s)) := by
  by_cases hopen : opened = none
  · obtain ⟨l', hsaid, -⟩ := hwhole
    have hemitted : emitted s (call.run st s) = lineOf st.crc l' := by
      rw [emitted, hsaid, List.drop_left]
    have hframes := (lineFrames_lineOf st.crc l' none).2
    rw [openOctets, List.append_nil] at hframes
    subst hopen
    refine ⟨l', ⟨?_, fun f hf => absurd hf (by simp)⟩, by rw [hemitted, hframes]⟩
    rw [hsaid, h.line, lineOf_append]
    simp [openOctets]
  · have hsame := hsilent hopen
    refine ⟨[], ?_, ?_⟩
    · rw [List.append_nil]
      exact h.unchanged hwhole hsame
    · rw [emitted, hsame, List.drop_length]
      rfl

theorem OnAir.start (h : OnAir st base none s l) (address : UInt8) :
    OnAir st base (some ⟨address, uCtrl uUi false, []⟩) (transmitUiStart st s address) l := by
  have hsent : sentOctets (transmitUiStart st s address).trace =
      sentOctets s.trace ++ flag :: octetCode.stuff [address, uCtrl uUi false] := by
    rw [transmitUiStart, frameBegin_eq, sentOctets_append]
    exact congrArg (sentOctets s.trace ++ ·) (sentOctets_sends _)
  refine ⟨?_, ?_⟩
  · rw [hsent, h.line]
    simp [openOctets, Frame.body]
  · rintro f ⟨⟩
    rw [transmitUiStart, frameBegin_eq]
    rfl

theorem OnAir.data {f : Frame} (h : OnAir st base (some f) s l) (octets : List UInt8) :
    OnAir st base (some { f with info := f.info ++ octets }) (emitAll st s octets) l := by
  have hbody : Frame.body { f with info := f.info ++ octets } = f.body ++ octets := by simp [Frame.body]
  rw [emitAll_eq]
  refine ⟨?_, ?_⟩
  · have hopen : openOctets (some { f with info := f.info ++ octets }) =
        openOctets (some f) ++ octetCode.stuff octets := by
      rw [openOctets, hbody, octetCode.stuff_append]
      rfl
    rw [sentOctets_append, sentOctets_sends, h.line, hopen]
    simp only [List.append_assoc]
  · rintro g ⟨⟩
    rw [hbody, crcFold_append, h.crc f rfl]

theorem OnAir.finish {f : Frame} (h : OnAir st base (some f) s l) :
    OnAir st base none (frameEnd s) (l ++ [some f]) := by
  have hcrc : s.txCrc = f.fcs st.crc := h.crc f rfl
  refine ⟨?_, fun g hg => absurd hg (by simp)⟩
  have hone : lineOf st.crc [some f] = f.octets st.crc := by simp [lineOf]
  have hlast : sentOctets [.send flag true] = [flag] := rfl
  rw [frameEnd_eq, Ctx.logs, sentOctets_append, sentOctets_append, sentOctets_sends, hlast, h.line, hcrc,
    lineOf_append, hone, Frame.octets, Frame.content, octetCode.stuff_append]
  simp [openOctets]

/-- While a frame is open, more octets join it or nothing goes out. -/
theorem OnAir.goesOn (hp : st.platform.Passive) {mem : Memory} (hreach : Reachable st mem s) {f : Frame}
    (h : OnAir st base (some f) s l) {call : Call} (hlegal : call.Legal)
    (hcall : (∃ data, call = .transmitUiData data) ∨ Silent st s call) :
    ∃ octets, OnAir st base (some { f with info := f.info ++ octets }) (call.run st s) l := by
  have hsame : { f with info := f.info ++ [] } = f := by rw [List.append_nil]
  by_cases hdata : ∃ data, call = .transmitUiData data
  · obtain ⟨data, rfl⟩ := hdata
    rw [Call.run, transmitUiData]
    split_ifs with hnull
    · exact ⟨[], hsame.symm ▸ h⟩
    · exact ⟨data.read, h.data data.read⟩
  · have hsilent := hcall.resolve_left hdata
    have hwhole : Whole st s (call.run st s) := by
      apply Call.whole hp s hlegal
      intro hstreams
      cases call with
      | transmitUiData data => exact absurd ⟨data, rfl⟩ hdata
      | transmitUiStart | transmitUiEnd => exact hsilent.elim
      | abort => rfl
      | _ => exact hstreams.elim
    exact ⟨[], hsame.symm ▸ h.unchanged hwhole (Call.silent hp hreach hsilent)⟩

/-- One call of a run. -/
theorem OnAir.call (hp : st.platform.Passive) {mem : Memory} (hreach : Reachable st mem s)
    (h : OnAir st base opened s l) {call : Call} (hlegal : call.Legal) (halone : Alone st opened s call) :
    ∃ l', OnAir st base (streamed opened call) (call.run st s) (l ++ l') ∧
      l'.filterMap id = completes st opened s call := by
  cases call with
  | transmitUiStart address =>
      obtain rfl : opened = none := halone
      refine ⟨[], ?_, rfl⟩
      rw [List.append_nil]
      exact h.start address
  | transmitUiData data =>
      refine ⟨[], ?_, rfl⟩
      rw [List.append_nil, streamed, Call.run, transmitUiData]
      split_ifs with hnull
      · exact h
      · cases opened with
        | none =>
            rw [halone rfl (Payload.nonNull_iff.mpr hnull)]
            exact h
        | some f => exact h.data data.read
  | transmitUiEnd =>
      obtain ⟨f, rfl⟩ := Option.ne_none_iff_exists'.mp halone
      exact ⟨[some f], h.finish, rfl⟩
  | abort => exact h.other (abort_whole s) fun hopen => (halone hopen).elim
  | _ =>
      exact h.other (Call.whole hp s hlegal (by simp [Call.Streams])) fun hopen =>
        Call.silent hp hreach (halone hopen)

/-- The calls of a run. -/
theorem OnAir.run (hp : st.platform.Passive) {mem : Memory} (hreach : Reachable st mem s)
    (h : OnAir st base opened s l) {calls : List Call} (hlegal : ∀ call ∈ calls, call.Legal)
    (halone : AllAlone st opened s calls) :
    ∃ l', OnAir st base (calls.foldl streamed opened) (calls.foldl (Call.run st) s) (l ++ l') ∧
      l'.filterMap id = expected st opened s calls := by
  induction calls generalizing s opened l with
  | nil =>
      refine ⟨[], ?_, rfl⟩
      rw [List.append_nil]
      exact h
  | cons call calls ih =>
      have hcall := hlegal call List.mem_cons_self
      obtain ⟨l₁, hone, hframes⟩ := h.call hp hreach hcall halone.1
      obtain ⟨l₂, hrest, hframes'⟩ := ih (.call call hreach hcall) hone
        (fun c hc => hlegal c (List.mem_cons_of_mem call hc)) halone.2
      refine ⟨l₁ ++ l₂, ?_, ?_⟩
      · rw [← List.append_assoc]
        exact hrest
      · rw [List.filterMap_append, hframes, hframes']
        rfl

theorem getLast_lineOf (crc : CrcOps) (l : List (Option Frame)) : (lineOf crc l).getLast?.getD flag = flag := by
  rcases List.eq_nil_or_concat l with rfl | ⟨l, o, rfl⟩
  · rfl
  · have hlast : ∃ octets, lineOf crc [o] = octets ++ [flag] := by
      cases o with
      | none => exact ⟨[flag], rfl⟩
      | some f => exact ⟨flag :: octetCode.stuff (f.content crc), by simp [lineOf, Frame.octets]⟩
    obtain ⟨octets, hoctets⟩ := hlast
    rw [List.concat_eq_append, lineOf_append, hoctets, ← List.append_assoc, List.getLast?_concat]
    rfl

/-- In every run whose calls leave an open frame alone, the line shows the streamed frame and every other
one. -/
theorem intact_of_allAlone (hp : st.platform.Passive) {mem : Memory} (hreach : Reachable st mem s)
    {calls : List Call} (hlegal : ∀ call ∈ calls, call.Legal) (halone : AllAlone st none s calls) :
    Intact st s calls := by
  have hstart : OnAir st (sentOctets s.trace) none s [] :=
    ⟨(List.append_nil _).symm, fun f hf => absurd hf (by simp)⟩
  obtain ⟨l, hend, hframes⟩ := hstart.run hp hreach hlegal halone
  rw [List.nil_append] at hend
  have hline : emitted s (calls.foldl (Call.run st) s) =
      lineOf st.crc l ++ openOctets (calls.foldl streamed none) := by
    rw [emitted, hend.line, List.drop_left]
  obtain ⟨hvalid, hshown⟩ := lineFrames_lineOf st.crc l (calls.foldl streamed none)
  rw [Intact, hline]
  refine ⟨hvalid, hshown.trans hframes, fun hclosed => ?_⟩
  rw [hclosed, openOctets, List.append_nil]
  exact getLast_lineOf st.crc l

/-- A frame in two pieces, between which T1 expires at a station that is not connected. -/
theorem intact_of_allAlone_mock :
    let st := mockStation 0x01 3 (by decide) (by decide)
    Intact st (initCtx st zeroMemory) [.transmitUiStart 0xFF, .transmitUiData (.octets [0x41]), .t1Expired,
      .transmitUiData (.octets [0x7E]), .transmitUiEnd] :=
  intact_of_allAlone mockPlatform_passive .init (by decide)
    ⟨rfl, nofun, fun _ => .inr (.inl rfl), nofun, nofun, trivial⟩

instance (st : Station) (s : Ctx) (calls : List Call) : Decidable (Intact st s calls) :=
  inferInstanceAs (Decidable (_ ∧ _ ∧ (_ → _)))

/-- T2 runs, as the README has it from its interrupt, while a frame is streamed: its RR lies within the
frame, and what follows is checked as if it began there. -/
theorem t2_cuts_stream :
    let st := mockStation 0x01 3 (by decide) (by decide)
    let calls : List Call := [.linkSetup 0x02, .dataIn (Frame.octets crcOpsDefault ⟨0x02, uCtrl uUa true, []⟩),
      .dataIn (Frame.octets crcOpsDefault ⟨0x01, iCtrl 0 0 false, [0x55]⟩), .transmitUiStart 0x02,
      .transmitUiData (.octets [0x41]), .t2Expired, .transmitUiData (.octets [0x42]), .transmitUiEnd]
    (∀ call ∈ calls, call.Legal) ∧ ¬Intact st (initCtx st zeroMemory) calls := by
  decide +kernel

end OnAir

end AtcHdlc
