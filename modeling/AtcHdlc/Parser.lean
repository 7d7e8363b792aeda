import Mathlib.Data.List.GetD
import AtcHdlc.Effects

/-! The receive parser against a reference deframer. The reference cuts the stream at the flags,
removes the escapes of each segment and keeps it or not by looking at the whole of it; the parser of
`hdlc_in.c` sees one octet at a time. `Reading` says which parser state belongs to the octets read
since the last flag: an octet takes the state of a segment to that of the longer segment
(`rxByte_reading`), and a flag dispatches exactly what the reference keeps (`rxByte_flag`). -/

namespace AtcHdlc

/-- The frame of a call of `dispatch_frame`; a `NULL` information field is an empty one. -/
def dispatchOf : Obs → Option Frame
  | .dispatch address ctrl info => some ⟨address, ctrl, info.getD []⟩
  | _ => none

/-- The calls of `dispatch_frame` in a trace. -/
def dispatches (trace : List Obs) : List Frame := trace.filterMap dispatchOf

@[simp] theorem dispatches_append (l r : List Obs) :
    dispatches (l ++ r) = dispatches l ++ dispatches r := List.filterMap_append

@[simp] theorem dispatches_frame (crc : CrcOps) (m : Moment) (f : Frame) :
    dispatches (f.obs crc m) = [] := by
  refine List.filterMap_eq_nil_iff.mpr fun o ho => ?_
  rcases Frame.mem_obs ho with rfl | ⟨byte, flush, rfl⟩
  · rfl
  · rfl

/-- The addresses that the parser compares with, and the frames it has dispatched. -/
structure FilterView where
  myAddress : UInt8
  peerAddress : UInt8
  dispatched : List Frame

def filterView (s : Ctx) : FilterView := ⟨s.myAddress, s.peerAddress, dispatches s.trace⟩

/-- The parser's own fields of `s'`, everything else of `s`. -/
def Ctx.withParser (s s' : Ctx) : Ctx :=
  { s with
    rxState := s'.rxState, rxIndex := s'.rxIndex, rxCrc := s'.rxCrc, rxBuffer := s'.rxBuffer }

section View

variable {st : Station}

theorem filterView_log (s : Ctx) {o : Obs} (ho : dispatchOf o = none) : filterView (s.log o) = filterView s := by
  simp [filterView, Ctx.log, dispatches, ho]

@[simp] theorem filterView_put (s : Ctx) (f : Frame) : filterView (s.put st f) = filterView s := by
  simp [filterView, Ctx.put]

@[simp] theorem filterView_t1Start (s : Ctx) : filterView (t1Start st s) = filterView s := by
  simp only [t1Start, filterView, Ctx.logs]
  split_ifs <;> simp [dispatches, dispatchOf]

@[simp] theorem filterView_t1Stop (s : Ctx) : filterView (t1Stop st s) = filterView s := by
  simp only [t1Stop, filterView, Ctx.logs]
  split_ifs <;> simp [dispatches, dispatchOf]

@[simp] theorem filterView_t2Start (s : Ctx) : filterView (t2Start st s) = filterView s := by
  simp only [t2Start, filterView, Ctx.logs]
  split_ifs <;> simp [dispatches, dispatchOf]

@[simp] theorem filterView_t2Stop (s : Ctx) : filterView (t2Stop st s) = filterView s := by
  simp only [t2Stop, filterView, Ctx.logs]
  split_ifs <;> simp [dispatches, dispatchOf]

theorem filterView_resetState (s : Ctx) : filterView (resetState st s) = filterView s := by
  simp only [resetState, clearSlotLens, filterView_t2Stop, filterView_t1Stop]
  cases st.txWindow <;> simp [filterView, Ctx.log, dispatches, dispatchOf]

theorem filterView_onData (hp : st.platform.Preserves filterView) (s : Ctx) (payload : List UInt8) :
    filterView (onData st s payload) = filterView s := by
  unfold onData
  cases hf : st.platform.onData with
  | none => rfl
  | some f => exact (hp.1 f hf payload _).trans (filterView_log s rfl)

theorem filterView_onEvent (hp : st.platform.Preserves filterView) (s : Ctx) (event : Event) :
    filterView (onEvent st s event) = filterView s := by
  unfold onEvent
  cases hf : st.platform.onEvent with
  | none => rfl
  | some f => exact (hp.2 f hf event _).trans (filterView_log s rfl)

/-- No effect of the receive side touches the address filter or dispatches a frame. -/
theorem Effect.filterView_eq (hp : st.platform.Preserves filterView) {ctrl : UInt8} {s s' : Ctx}
    (h : Effect st ctrl s s') :
    filterView s' = filterView s := by
  cases h with
  | put f => exact filterView_put s f
  | t1Start => exact filterView_t1Start s
  | t1Stop => exact filterView_t1Stop s
  | t2Start => exact filterView_t2Start s
  | t2Stop => exact filterView_t2Stop s
  | data payload => exact filterView_onData hp s payload
  | event event => exact filterView_onEvent hp s event
  | reset => exact filterView_resetState s
  | ack => exact filterView_log s rfl
  | nullWindow => exact filterView_log s rfl
  | receive payload => exact filterView_log s rfl
  | link | rejException | remoteBusy | arm | frmr => rfl

/-- A dispatched frame leaves its mark and no other. -/
theorem filterView_dispatchFrame (hp : st.platform.Preserves filterView) (s : Ctx) (address ctrl : UInt8)
    (info : Option (List UInt8)) :
    filterView (dispatchFrame st s address ctrl info) =
      { filterView s with dispatched := dispatches s.trace ++ [⟨address, ctrl, info.getD []⟩] } := by
  have hlog : filterView (s.log (.dispatch address ctrl info)) =
      { filterView s with dispatched := dispatches s.trace ++ [⟨address, ctrl, info.getD []⟩] } := by
    simp [filterView, Ctx.log, dispatches, dispatchOf]
  rw [← hlog]
  exact (dispatchFrame_effects st ctrl s address info).induct
    (P := fun t => filterView t = filterView (s.log (.dispatch address ctrl info)))
    (fun t t' he ht => (he.filterView_eq hp).trans ht) rfl

/-- Two contexts that the parser cannot tell apart. -/
structure Agree (s t : Ctx) : Prop where
  rxState : s.rxState = t.rxState
  rxIndex : s.rxIndex = t.rxIndex
  rxCrc : s.rxCrc = t.rxCrc
  rxBuffer : ∀ i < t.rxIndex, s.rxBuffer i = t.rxBuffer i
  filter : filterView s = filterView t

theorem Agree.refl (s : Ctx) : Agree s s := ⟨rfl, rfl, rfl, fun _ _ => rfl, rfl⟩

theorem Agree.trans {s t u : Ctx} (h : Agree s t) (h' : Agree t u) : Agree s u := by
  refine ⟨h.rxState.trans h'.rxState, h.rxIndex.trans h'.rxIndex, h.rxCrc.trans h'.rxCrc, ?_,
    h.filter.trans h'.filter⟩
  intro i hi
  rw [h.rxBuffer i (by rw [h'.rxIndex]; exact hi), h'.rxBuffer i hi]

theorem retransmitLoop_agree (w : TxWindow) (endVs fuel slotIdx : Nat) (s : Ctx) :
    Agree (retransmitLoop st w endVs fuel slotIdx s) s := by
  induction fuel generalizing slotIdx s with
  | zero => exact Agree.refl s
  | succ fuel ih =>
      simp only [retransmitLoop]
      split_ifs
      · exact Agree.refl s
      · rw [frameSend_octets]
        have hview := (@filterView_put st (s.log (.slotRead slotIdx)) ⟨s.peerAddress,
          iCtrl s.vs s.vr false, readSlot w (s.log (.slotRead slotIdx)) slotIdx⟩).trans
          (filterView_log s rfl)
        exact (ih _ _).trans ⟨rfl, rfl, rfl, fun _ _ => rfl, hview⟩

/-- The retransmission at the end of a call does not concern the parser. -/
theorem retransmitIfPending_agree (s : Ctx) : Agree (retransmitIfPending st s) s := by
  unfold retransmitIfPending
  split_ifs
  · cases st.txWindow with
    | none => exact ⟨rfl, rfl, rfl, fun _ _ => rfl, filterView_log s rfl⟩
    | some w =>
        have hloop := @retransmitLoop_agree st w
        simp only [retransmitOutstanding]
        have hstart (t : Ctx) : Agree (t1Start st t) t :=
          ⟨rfl, rfl, rfl, fun _ _ => rfl, filterView_t1Start t⟩
        exact (hstart _).trans ((hloop _ _ _ _).trans ⟨rfl, rfl, rfl, fun _ _ => rfl, rfl⟩)
  · exact Agree.refl s

end View

/-! ### The reference deframer -/

section Reference

variable (st : Station) (myAddress peerAddress : UInt8)

/-- The addresses that the filter of `rx_byte` lets pass. -/
def Accepted (address : UInt8) : Prop :=
  address = myAddress ∨ address = peerAddress ∨ address = broadcastAddress

/-- What the reference keeps: a segment, already without escapes, of the right length, with an
accepted address and a matching check sequence. -/
structure Keeps (seg : List UInt8) : Prop where
  minLength : minFrameLen ≤ seg.length
  maxLength : seg.length ≤ st.rxCapacity
  address : Accepted myAddress peerAddress (seg.getD 0 0)
  fcs : crcFold st.crc fcsInitValue (seg.take (seg.length - 2)) =
    rxFcs (seg.getD (seg.length - 2) 0) (seg.getD (seg.length - 1) 0)

instance (address : UInt8) : Decidable (Accepted myAddress peerAddress address) :=
  inferInstanceAs (Decidable (_ ∨ _ ∨ _))

instance (seg : List UInt8) : Decidable (Keeps st myAddress peerAddress seg) :=
  decidable_of_iff (_ ∧ _ ∧ _ ∧ _)
    ⟨fun h => ⟨h.1, h.2.1, h.2.2.1, h.2.2.2⟩, fun h => ⟨h.1, h.2, h.3, h.4⟩⟩

/-- A kept segment as a frame: address, control, and what stands before the two FCS octets. -/
def segmentFrame (seg : List UInt8) : Frame where
  address := seg.getD 0 0
  ctrl := seg.getD 1 0
  info := (seg.drop 2).take (seg.length - 4)

/-- The frames of a list of segments with their escapes. -/
def deframeSegments (segments : List (List UInt8)) : List Frame :=
  ((segments.map octetCode.unstuff).filter (Keeps st myAddress peerAddress ·)).map segmentFrame

/-- The reference deframer. -/
def deframe (stream : List UInt8) : List Frame :=
  deframeSegments st myAddress peerAddress (octetCode.cut stream)

@[simp] theorem deframeSegments_nil : deframeSegments st myAddress peerAddress [] = [] := rfl

theorem deframeSegments_cons (seg : List UInt8) (segments : List (List UInt8)) :
    deframeSegments st myAddress peerAddress (seg :: segments) =
      (if Keeps st myAddress peerAddress (octetCode.unstuff seg) then
        [segmentFrame (octetCode.unstuff seg)] else []) ++
      deframeSegments st myAddress peerAddress segments := by
  simp only [deframeSegments, List.map_cons, List.filter_cons, decide_eq_true_eq]
  split_ifs <;> simp

end Reference

section Reading

variable (st : Station)

/-- What makes the parser give a segment up before its end. -/
def Dropped (s : Ctx) (seg : List UInt8) : Prop :=
  st.rxCapacity < seg.length ∨ seg ≠ [] ∧ ¬Accepted s.myAddress s.peerAddress (seg.getD 0 0)

/-- A buffer that holds the octets `seg`, with a checksum that lags two octets behind. -/
structure Stored (s : Ctx) (seg : List UInt8) : Prop where
  index : s.rxIndex = seg.length
  buffer : ∀ i < seg.length, s.rxBuffer i = seg.getD i 0
  crc : s.rxCrc = crcFold st.crc fcsInitValue (seg.take (seg.length - 2))
  kept : ¬Dropped st s seg

/-- The parser state for the octets `seg` since the last flag: hunting once the segment is given up,
else holding its octets without the escapes. -/
inductive Reading (s : Ctx) (seg : List UInt8) : Prop where
  | hunting (hstate : s.rxState = .hunt) (hdrop : Dropped st s (octetCode.unstuff seg))
  | storing (hstate : s.rxState ≠ .hunt) (hesc : s.rxState = .esc ↔ octetCode.pending seg)
      (hstored : Stored st s (octetCode.unstuff seg))

variable {st}

theorem Dropped.snoc {s : Ctx} {seg : List UInt8} (h : Dropped st s seg) (octet : UInt8) :
    Dropped st s (seg ++ [octet]) := by
  rcases h with hlen | ⟨hne, haddr⟩
  · left
    rw [List.length_append]
    omega
  · refine Or.inr ⟨by simp, ?_⟩
    rw [List.getD_append _ _ _ _ (List.length_pos_of_ne_nil hne)]
    exact haddr

theorem Dropped.congr {s s' : Ctx} {seg : List UInt8} (hmy : s'.myAddress = s.myAddress)
    (hpeer : s'.peerAddress = s.peerAddress) : Dropped st s' seg ↔ Dropped st s seg := by
  simp only [Dropped, hmy, hpeer]

theorem take_snoc_sub_two (seg : List UInt8) (octet : UInt8) (h : 2 ≤ seg.length) :
    (seg ++ [octet]).take ((seg ++ [octet]).length - 2) =
      seg.take (seg.length - 2) ++ [seg.getD (seg.length - 2) 0] := by
  have hlen : (seg ++ [octet]).length - 2 = seg.length - 2 + 1 := by
    rw [List.length_append, List.length_singleton]
    omega
  have hlt : seg.length - 2 < seg.length := by omega
  rw [hlen, List.take_append_of_le_length hlt, List.take_add_one, List.getD_eq_getElem _ _ hlt,
    List.getElem?_eq_getElem hlt]
  rfl

/-- The checksum after one more octet: it takes in the octet two places before. -/
theorem Stored.crc_snoc {s : Ctx} {seg : List UInt8} (h : Stored st s seg) (octet : UInt8) :
    (if seg.length ≥ fcsLen then st.crc s.rxCrc [seg.getD (seg.length - fcsLen) 0] else s.rxCrc) =
      crcFold st.crc fcsInitValue ((seg ++ [octet]).take ((seg ++ [octet]).length - 2)) := by
  split_ifs with hlen
  · rw [take_snoc_sub_two seg octet hlen, crcFold_append, h.crc]
    rfl
  · have hshort : seg.length < 2 := Nat.lt_of_not_le hlen
    have htake : (seg ++ [octet]).length - 2 = 0 := by
      rw [List.length_append, List.length_singleton]
      omega
    rw [h.crc, htake, List.take_zero, Nat.sub_eq_zero_of_le (Nat.le_of_lt hshort), List.take_zero]

variable (st) in
/-- The context when the octet is in the buffer, before the address filter. -/
def stored (s : Ctx) (octet : UInt8) : Ctx :=
  { s with
    rxBuffer := Function.update s.rxBuffer s.rxIndex octet
    rxCrc := if s.rxIndex ≥ fcsLen then
        st.crc s.rxCrc [Function.update s.rxBuffer s.rxIndex octet (s.rxIndex - fcsLen)]
      else s.rxCrc
    rxIndex := s.rxIndex + 1 }

theorem rxStore_eq (s : Ctx) (octet : UInt8) :
    rxStore st s octet =
      if s.rxIndex ≥ st.rxCapacity then rxRestart s .hunt
      else if s.rxIndex = 0 then
        if Accepted s.myAddress s.peerAddress octet then { stored st s octet with rxState := .data }
        else rxRestart (stored st s octet) .hunt
      else stored st s octet := by
  have hfilter : (octet ≠ s.myAddress ∧ octet ≠ s.peerAddress ∧ octet ≠ broadcastAddress) ↔
      ¬Accepted s.myAddress s.peerAddress octet := by
    simp only [Accepted, not_or, ne_eq]
  by_cases hlag : 2 ≤ s.rxIndex
  · have hindex : s.rxIndex ≠ 0 := by omega
    simp [rxStore, stored, fcsLen, hlag, hindex]
  · simp only [rxStore, stored, fcsLen, hlag, ge_iff_le, if_false, Nat.add_eq_right, hfilter, ite_not]

/-- The buffer after one more octet, which the filter lets pass if it is the first. -/
theorem stored_stored {s : Ctx} {seg : List UInt8} {octet : UInt8} (h : Stored st s seg)
    (hroom : ¬s.rxIndex ≥ st.rxCapacity)
    (hfilter : s.rxIndex = 0 → Accepted s.myAddress s.peerAddress octet) :
    Stored st (stored st s octet) (seg ++ [octet]) := by
  have hlast : s.rxIndex = seg.length := h.index
  have hread : ∀ i < (seg ++ [octet]).length,
      Function.update s.rxBuffer s.rxIndex octet i = (seg ++ [octet]).getD i 0 := by
    intro i hi
    rw [List.length_append, List.length_singleton] at hi
    rcases Nat.lt_or_ge i seg.length with hlt | hge
    · rw [Function.update_of_ne (by omega), h.buffer i hlt, List.getD_append _ _ _ _ hlt]
    · have hi' : i = s.rxIndex := by omega
      rw [hi', Function.update_self, List.getD_append_right _ _ _ _ (Nat.le_of_eq hlast.symm), hlast,
        Nat.sub_self]
      rfl
  refine ⟨?_, hread, ?_, ?_⟩
  · rw [List.length_append, List.length_singleton, ← hlast]
    rfl
  · rw [← h.crc_snoc octet]
    simp only [stored, hlast]
    split_ifs with hlag
    · have hlt : seg.length - fcsLen < seg.length := by
        unfold fcsLen at *
        omega
      rw [← hlast, hread _ (by rw [List.length_append]; omega), List.getD_append _ _ _ _ (by omega)]
    · rfl
  · rintro (hlen | ⟨_, haddr⟩)
    · rw [List.length_append, List.length_singleton] at hlen
      omega
    · rcases Nat.eq_zero_or_pos seg.length with hzero | hpos
      · have hnil : seg = [] := List.length_eq_zero_iff.mp hzero
        subst hnil
        exact haddr (hfilter hlast)
      · rw [List.getD_append _ _ _ _ hpos] at haddr
        exact h.kept (Or.inr ⟨List.length_pos_iff.mp hpos, haddr⟩)

/-- One octet into the buffer, or the segment is given up. -/
theorem rxStore_stored {s : Ctx} {seg : List UInt8} (h : Stored st s seg) (hhunt : s.rxState ≠ .hunt)
    (hesc : s.rxState ≠ .esc) (octet : UInt8) :
    (rxStore st s octet).rxState = .hunt ∧ Dropped st s (seg ++ [octet]) ∨
      (rxStore st s octet).rxState ≠ .hunt ∧ (rxStore st s octet).rxState ≠ .esc ∧
        Stored st (rxStore st s octet) (seg ++ [octet]) := by
  have hlast : s.rxIndex = seg.length := h.index
  rw [rxStore_eq]
  split_ifs with hfull hfirst haddr
  · left
    refine ⟨rfl, Or.inl ?_⟩
    rw [List.length_append, List.length_singleton]
    omega
  · right
    have hstored := stored_stored h hfull fun _ => haddr
    exact ⟨by simp, by simp, ⟨hstored.index, hstored.buffer, hstored.crc, hstored.kept⟩⟩
  · left
    have hnil : seg = [] := List.length_eq_zero_iff.mp (hlast.symm.trans hfirst)
    subst hnil
    exact ⟨rfl, Or.inr ⟨by simp, haddr⟩⟩
  · right
    exact ⟨hhunt, hesc, stored_stored h hfull fun hzero => absurd hzero hfirst⟩

theorem rxStore_withParser (s : Ctx) (octet : UInt8) :
    rxStore st s octet = s.withParser (rxStore st s octet) := by
  rw [rxStore_eq]
  split_ifs <;> rfl

/-- Outside a flag the parser touches its own fields only. -/
theorem rxByte_withParser (s : Ctx) {byte : UInt8} (h : byte ≠ flag) :
    rxByte st s byte = s.withParser (rxByte st s byte) := by
  simp only [rxByte, if_neg h]
  split_ifs
  · rfl
  · rfl
  · rw [rxStore_withParser]
    rfl
  · exact rxStore_withParser s byte

/-- The same as a state of the parser. -/
theorem rxStore_reading {s : Ctx} {seg : List UInt8} (h : Stored st s (octetCode.unstuff seg))
    (hhunt : s.rxState ≠ .hunt) (hesc : s.rxState ≠ .esc) {byte : UInt8} (hbyte : byte ≠ esc) :
    Reading st (rxStore st s (if octetCode.pending seg then byte ^^^ xorMask else byte))
      (seg ++ [byte]) := by
  have hunstuff := octetCode.unstuff_snoc seg hbyte
  have hpending := octetCode.pending_snoc seg hbyte
  rcases rxStore_stored h hhunt hesc (if octetCode.pending seg then byte ^^^ xorMask else byte) with
    ⟨hstate, hdrop⟩ | ⟨hstate, hstate', hstored⟩
  · refine .hunting hstate ?_
    rw [hunstuff, rxStore_withParser]
    exact hdrop
  · refine .storing hstate ?_ ?_
    · simp [hpending, hstate']
    · rw [hunstuff]
      exact hstored

/-- One octet that is no flag takes the state of a segment to that of the longer segment. -/
theorem rxByte_reading {s : Ctx} {seg : List UInt8} (h : Reading st s seg) {byte : UInt8}
    (hflag : byte ≠ flag) : Reading st (rxByte st s byte) (seg ++ [byte]) := by
  unfold rxByte
  rw [if_neg hflag]
  cases h with
  | hunting hstate hdrop =>
      rw [if_pos hstate]
      refine .hunting hstate ?_
      by_cases hesc : byte = octetCode.esc
      · rw [hesc, octetCode.unstuff_snoc_esc]
        exact hdrop
      · rw [octetCode.unstuff_snoc _ hesc]
        exact hdrop.snoc _
  | storing hstate hpending hstored =>
      rw [if_neg hstate]
      by_cases hesc : byte = esc
      · rw [if_pos hesc]
        have hunstuff : octetCode.unstuff (seg ++ [byte]) = octetCode.unstuff seg := by
          rw [hesc]
          exact octetCode.unstuff_snoc_esc seg
        have hpending' : octetCode.pending (seg ++ [byte]) = true := by
          rw [hesc]
          exact octetCode.pending_snoc_esc seg
        refine .storing (by simp) (by simp [hpending']) ?_
        rw [hunstuff]
        exact ⟨hstored.index, hstored.buffer, hstored.crc, hstored.kept⟩
      · rw [if_neg hesc]
        by_cases hs : s.rxState = .esc
        · have hstored' : Stored st { s with rxState := .data } (octetCode.unstuff seg) :=
            ⟨hstored.index, hstored.buffer, hstored.crc, hstored.kept⟩
          have hstep := rxStore_reading hstored' (by simp) (by simp) hesc
          rw [if_pos (hpending.mp hs)] at hstep
          rw [if_pos hs]
          exact hstep
        · have hstep := rxStore_reading hstored hstate hs hesc
          rw [if_neg (mt hpending.mpr hs)] at hstep
          rw [if_neg hs]
          exact hstep

/-- The parser after a flag that dispatches nothing. -/
theorem Reading.restart (s : Ctx) : Reading st (rxRestart s .addr) [] := by
  refine .storing (by simp [rxRestart]) (by simp [rxRestart]) ⟨rfl, ?_, rfl, ?_⟩
  · intro i hi
    exact absurd hi (Nat.not_lt_zero i)
  · simp [Dropped]

/-- A flag restarts the parser, after at most one dispatch. -/
theorem rxByte_flag_cases (s : Ctx) :
    rxByte st s flag = rxRestart s .addr ∨
      ∃ address ctrl info, rxByte st s flag = rxRestart (dispatchFrame st s address ctrl info) .addr := by
  have hstep : rxByte st s flag = handleFlag st s := by simp [rxByte]
  rw [hstep]
  simp only [handleFlag]
  split_ifs
  · exact Or.inl rfl
  · exact Or.inl rfl
  · exact Or.inr ⟨_, _, _, rfl⟩
  · exact Or.inr ⟨_, _, _, rfl⟩

theorem Dropped.not_keeps {s : Ctx} {seg : List UInt8} (h : Dropped st s seg) :
    ¬Keeps st s.myAddress s.peerAddress seg := by
  intro hk
  rcases h with hlen | ⟨_, haddr⟩
  · exact absurd hk.maxLength (Nat.not_le_of_lt hlen)
  · exact haddr hk.address

/-- For octets in the buffer the reference looks at what `handle_flag` looks at. -/
theorem Keeps.iff_of_stored {s : Ctx} {seg : List UInt8} (h : Stored st s seg) :
    Keeps st s.myAddress s.peerAddress seg ↔
      minFrameLen ≤ s.rxIndex ∧ s.rxCrc = rxFcs (s.rxBuffer (s.rxIndex - fcsLen))
        (s.rxBuffer (s.rxIndex - fcsLen + 1)) := by
  have hfcs (hlen : minFrameLen ≤ seg.length) :
      rxFcs (s.rxBuffer (s.rxIndex - fcsLen)) (s.rxBuffer (s.rxIndex - fcsLen + 1)) =
        rxFcs (seg.getD (seg.length - 2) 0) (seg.getD (seg.length - 1) 0) := by
    simp only [minFrameLen, addrLen, ctrlLen, fcsLen] at hlen
    have hlast : s.rxIndex - fcsLen + 1 = seg.length - 1 := by
      rw [h.index, fcsLen]
      omega
    rw [hlast, h.index, fcsLen, h.buffer _ (by omega), h.buffer _ (by omega)]
  constructor
  · intro hk
    rw [h.crc, hfcs hk.minLength, h.index]
    exact ⟨hk.minLength, hk.fcs⟩
  · rintro ⟨hlen, hcrc⟩
    rw [h.index] at hlen
    have hne : seg ≠ [] := by
      rintro rfl
      exact absurd hlen (by decide)
    have hkept := h.kept
    simp only [Dropped, not_or, not_and, not_not] at hkept
    refine ⟨hlen, Nat.le_of_not_lt hkept.1, hkept.2 hne, ?_⟩
    rw [← h.crc, hcrc, hfcs hlen]

theorem readBuffer_stored {s : Ctx} {seg : List UInt8} (h : Stored st s seg) (start n : Nat)
    (hn : start + n ≤ seg.length) : readBuffer s start n = (seg.drop start).take n := by
  apply List.ext_getElem
  · simp only [readBuffer, List.length_map, List.length_range, List.length_take, List.length_drop]
    omega
  · intro i hi _
    simp only [readBuffer, List.length_map, List.length_range] at hi
    have hlt : start + i < seg.length := by omega
    simp only [readBuffer, List.getElem_map, List.getElem_range, List.getElem_take,
      List.getElem_drop]
    rw [h.buffer _ hlt, List.getD_eq_getElem _ _ hlt]

/-- What a receiver makes of an information field: the parser passes its length in 16 bits. -/
def heardInfo (info : List UInt8) : List UInt8 := info.take (info.length % 2 ^ 16)

theorem heardInfo_of_le {info : List UInt8} (h : info.length ≤ 65535) : heardInfo info = info := by
  rw [heardInfo, Nat.mod_eq_of_lt (by omega), List.take_length]

/-- The information field as `handle_flag` cuts it out of the buffer. -/
theorem info_stored {s : Ctx} {u : List UInt8} (h : Stored st s u) (hmin : minFrameLen ≤ u.length) :
    (if s.rxIndex - fcsLen > addrLen + ctrlLen then
      some (readBuffer s (addrLen + ctrlLen) ((s.rxIndex - fcsLen - (addrLen + ctrlLen)) % 2 ^ 16))
    else none) =
      if (segmentFrame u).info = [] then none else some (heardInfo (segmentFrame u).info) := by
  simp only [minFrameLen, addrLen, ctrlLen, fcsLen, h.index] at hmin ⊢
  have hlength : (segmentFrame u).info.length = u.length - 4 := by
    simp only [segmentFrame, List.length_take, List.length_drop]
    omega
  have hinfo : readBuffer s (1 + 1) ((u.length - 2 - (1 + 1)) % 2 ^ 16) = heardInfo (segmentFrame u).info := by
    have hsmall : (u.length - 4) % 2 ^ 16 ≤ u.length - 4 := Nat.mod_le _ _
    have hsub : u.length - 2 - (1 + 1) = u.length - 4 := by omega
    rw [heardInfo, hlength, hsub, segmentFrame, List.take_take, Nat.min_eq_left hsmall]
    exact readBuffer_stored h 2 _ (by omega)
  have hnil : (segmentFrame u).info = [] ↔ ¬u.length - 2 > 1 + 1 := by
    rw [← List.length_eq_zero_iff, hlength]
    omega
  rw [hinfo]
  simp only [hnil, ite_not]

/-- A flag dispatches the segment that it closes just when the reference keeps it. -/
theorem rxByte_flag_heard {s : Ctx} {seg : List UInt8} (h : Reading st s seg) :
    rxByte st s flag =
      if Keeps st s.myAddress s.peerAddress (octetCode.unstuff seg) then
        let f := segmentFrame (octetCode.unstuff seg)
        rxRestart (dispatchFrame st s f.address f.ctrl
          (if f.info = [] then none else some (heardInfo f.info))) .addr
      else rxRestart s .addr := by
  have hstep : rxByte st s flag = handleFlag st s := by simp [rxByte]
  rw [hstep]
  cases h with
  | hunting hstate hdrop => rw [if_neg hdrop.not_keeps, handleFlag, if_pos (Or.inl hstate)]
  | storing hstate _ hstored =>
      generalize octetCode.unstuff seg = u at *
      unfold handleFlag
      by_cases hkeep : Keeps st s.myAddress s.peerAddress u
      · obtain ⟨hmin, hfcs⟩ := (Keeps.iff_of_stored hstored).mp hkeep
        have hnot : ¬(s.rxState = .hunt ∨ s.rxIndex < minFrameLen) := by
          simp only [hstate, false_or, Nat.not_lt]
          exact hmin
        have hlength : minFrameLen ≤ u.length := hstored.index ▸ hmin
        have hpos : 1 < u.length := lt_of_lt_of_le (by decide) hlength
        rw [if_pos hkeep, if_neg hnot]
        simp only
        rw [if_neg (not_not.mpr hfcs), info_stored hstored hlength, hstored.buffer 0 (by omega),
          hstored.buffer 1 hpos]
        rfl
      · rw [if_neg hkeep]
        rw [Keeps.iff_of_stored hstored, not_and_or] at hkeep
        split_ifs with hshort
        · rfl
        · have hmin : minFrameLen ≤ s.rxIndex := Nat.le_of_not_lt (not_or.mp hshort).2
          exact if_pos (hkeep.resolve_left (not_not.mpr hmin))

/-- Where the length fits into 16 bits, the information field comes whole. -/
theorem rxByte_flag {s : Ctx} {seg : List UInt8} (h : Reading st s seg)
    (hsize : (octetCode.unstuff seg).length ≤ st.rxCapacity →
      (octetCode.unstuff seg).length ≤ 65539) :
    rxByte st s flag =
      if Keeps st s.myAddress s.peerAddress (octetCode.unstuff seg) then
        let f := segmentFrame (octetCode.unstuff seg)
        rxRestart (dispatchFrame st s f.address f.ctrl (if f.info = [] then none else some f.info)) .addr
      else rxRestart s .addr := by
  rw [rxByte_flag_heard h]
  by_cases hkeep : Keeps st s.myAddress s.peerAddress (octetCode.unstuff seg)
  · have hlen := hsize hkeep.maxLength
    have hinfo : (segmentFrame (octetCode.unstuff seg)).info.length ≤ 65535 := by
      simp only [segmentFrame, List.length_take, List.length_drop]
      omega
    rw [if_pos hkeep, if_pos hkeep]
    simp only [heardInfo_of_le hinfo]
  · rw [if_neg hkeep, if_neg hkeep]

/-- What a closing flag adds to the dispatched frames. -/
theorem rxByte_flag_view (hp : st.platform.Preserves filterView) {s : Ctx} {seg : List UInt8}
    (h : Reading st s seg)
    (hsize : (octetCode.unstuff seg).length ≤ st.rxCapacity →
      (octetCode.unstuff seg).length ≤ 65539) :
    (rxByte st s flag).myAddress = s.myAddress ∧ (rxByte st s flag).peerAddress = s.peerAddress ∧
      dispatches (rxByte st s flag).trace =
        dispatches s.trace ++ deframeSegments st s.myAddress s.peerAddress [seg] ∧
      Reading st (rxByte st s flag) [] := by
  rw [rxByte_flag h hsize, deframeSegments_cons, deframeSegments_nil, List.append_nil]
  split_ifs with hkeep
  · extract_lets f
    have hview := filterView_dispatchFrame hp s f.address f.ctrl (if f.info = [] then none else some f.info)
    have hinfo : (if f.info = [] then none else some f.info).getD [] = f.info := by
      split_ifs with hnil
      · exact hnil.symm
      · rfl
    rw [hinfo] at hview
    exact ⟨congrArg FilterView.myAddress hview, congrArg FilterView.peerAddress hview,
      congrArg FilterView.dispatched hview, Reading.restart _⟩
  · refine ⟨rfl, rfl, ?_, Reading.restart s⟩
    exact (List.append_nil _).symm

/-- The parser over a stream, from the middle of a segment on: it dispatches what the reference keeps
of the segments that the stream completes. -/
theorem rxBytes_dispatches (hp : st.platform.Preserves filterView) {s : Ctx} {seg : List UInt8}
    (h : Reading st s seg) (bytes : List UInt8)
    (hsize : ∀ x ∈ octetCode.cutFrom seg bytes, (octetCode.unstuff x).length ≤ st.rxCapacity →
      (octetCode.unstuff x).length ≤ 65539) :
    dispatches (rxBytes st s bytes).trace =
      dispatches s.trace ++
        deframeSegments st s.myAddress s.peerAddress (octetCode.cutFrom seg bytes) := by
  induction bytes generalizing s seg with
  | nil => simp [rxBytes]
  | cons byte bytes ih =>
      have hcons : rxBytes st s (byte :: bytes) = rxBytes st (rxByte st s byte) bytes := rfl
      rw [hcons]
      by_cases hb : byte = flag
      · subst hb
        have hcut : octetCode.cutFrom seg (flag :: bytes) = seg :: octetCode.cutFrom [] bytes :=
          octetCode.cutFrom_flag seg bytes
        rw [hcut] at hsize ⊢
        obtain ⟨hmy, hpeer, hdispatched, hnext⟩ :=
          rxByte_flag_view hp h (hsize seg List.mem_cons_self)
        rw [ih hnext fun x hx => hsize x (List.mem_cons_of_mem _ hx), hmy, hpeer, hdispatched,
          deframeSegments_cons, deframeSegments_cons, deframeSegments_nil, List.append_nil,
          List.append_assoc]
      · have hb' : byte ≠ octetCode.flag := hb
        rw [octetCode.cutFrom_cons seg hb'] at hsize ⊢
        rw [ih (rxByte_reading h hb) hsize, rxByte_withParser s hb]
        rfl

theorem Agree.rxRestart {s t : Ctx} (h : filterView s = filterView t) (state : RxState) :
    Agree (rxRestart s state) (rxRestart t state) :=
  ⟨rfl, rfl, rfl, fun i hi => absurd hi (Nat.not_lt_zero i), h⟩

theorem Agree.stored {s t : Ctx} (h : Agree s t) (octet : UInt8) :
    Agree (stored st s octet) (stored st t octet) := by
  have hread : ∀ i < t.rxIndex + 1, Function.update s.rxBuffer s.rxIndex octet i =
      Function.update t.rxBuffer t.rxIndex octet i := by
    intro i hi
    rw [h.rxIndex]
    rcases Nat.lt_or_ge i t.rxIndex with hlt | hge
    · rw [Function.update_of_ne (by omega), Function.update_of_ne (by omega), h.rxBuffer i hlt]
    · have heq : i = t.rxIndex := by omega
      rw [heq, Function.update_self, Function.update_self]
  refine ⟨h.rxState, congrArg (· + 1) h.rxIndex, ?_, hread, h.filter⟩
  simp only [AtcHdlc.stored]
  rw [hread _ (by rw [h.rxIndex]; omega), h.rxIndex, h.rxCrc]

theorem rxStore_agree {s t : Ctx} (h : Agree s t) (octet : UInt8) :
    Agree (rxStore st s octet) (rxStore st t octet) := by
  have hstored := @Agree.stored st s t h octet
  have hmy : s.myAddress = t.myAddress := congrArg FilterView.myAddress h.filter
  have hpeer : s.peerAddress = t.peerAddress := congrArg FilterView.peerAddress h.filter
  rw [rxStore_eq, rxStore_eq, h.rxIndex, hmy, hpeer]
  split_ifs
  · exact Agree.rxRestart h.filter .hunt
  · exact ⟨rfl, hstored.rxIndex, hstored.rxCrc, hstored.rxBuffer, hstored.filter⟩
  · exact Agree.rxRestart hstored.filter .hunt
  · exact hstored

theorem handleFlag_agree (hp : st.platform.Preserves filterView) {s t : Ctx} (h : Agree s t) :
    Agree (handleFlag st s) (handleFlag st t) := by
  by_cases hskip : t.rxState = .hunt ∨ t.rxIndex < minFrameLen
  · simp only [handleFlag, h.rxState, h.rxIndex, if_pos hskip]
    exact Agree.rxRestart h.filter .addr
  · have hmin : 4 ≤ t.rxIndex := Nat.le_of_not_lt (not_or.mp hskip).2
    have hread (start n : Nat) (hn : start + n ≤ t.rxIndex) :
        readBuffer s start n = readBuffer t start n := by
      apply List.map_congr_left
      intro i hi
      rw [List.mem_range] at hi
      exact h.rxBuffer _ (by omega)
    have hdispatched : dispatches s.trace = dispatches t.trace :=
      congrArg FilterView.dispatched h.filter
    unfold handleFlag
    extract_lets dlen address ctrl info dlen' address' ctrl' info'
    have hdlen : dlen = dlen' := congrArg (· - fcsLen) h.rxIndex
    have hshort : dlen' + 2 = t.rxIndex := by
      simp only [dlen', fcsLen]
      omega
    have hinfo : info = info' := by
      unfold info info'
      rw [hdlen]
      by_cases hlong : dlen' > addrLen + ctrlLen
      · rw [if_pos hlong, if_pos hlong]
        simp only [addrLen, ctrlLen] at hlong ⊢
        rw [hread _ _ (by omega)]
      · rw [if_neg hlong, if_neg hlong]
    have haddress : address = address' := h.rxBuffer 0 (by omega)
    have hctrl : ctrl = ctrl' := h.rxBuffer 1 (by omega)
    rw [h.rxState, h.rxIndex, h.rxCrc, hdlen, h.rxBuffer dlen' (by omega),
      h.rxBuffer (dlen' + 1) (by omega), if_neg hskip, if_neg hskip]
    by_cases hcrc : t.rxCrc ≠ rxFcs (t.rxBuffer dlen') (t.rxBuffer (dlen' + 1))
    · rw [if_pos hcrc, if_pos hcrc]
      exact Agree.rxRestart h.filter .addr
    · rw [if_neg hcrc, if_neg hcrc]
      apply Agree.rxRestart
      rw [filterView_dispatchFrame hp, filterView_dispatchFrame hp, h.filter, hdispatched, hinfo,
        haddress, hctrl]

/-- The parser reads nothing but what it works on. -/
theorem rxByte_agree (hp : st.platform.Preserves filterView) {s t : Ctx} (h : Agree s t)
    (byte : UInt8) : Agree (rxByte st s byte) (rxByte st t byte) := by
  simp only [rxByte, h.rxState]
  split_ifs
  · exact handleFlag_agree hp h
  · exact h
  · exact ⟨rfl, h.rxIndex, h.rxCrc, h.rxBuffer, h.filter⟩
  · have hdata : Agree { s with rxState := .data } { t with rxState := .data } :=
      ⟨rfl, h.rxIndex, h.rxCrc, h.rxBuffer, h.filter⟩
    exact rxStore_agree hdata _
  · exact rxStore_agree h byte

theorem rxBytes_agree (hp : st.platform.Preserves filterView) {s t : Ctx} (h : Agree s t)
    (bytes : List UInt8) : Agree (rxBytes st s bytes) (rxBytes st t bytes) := by
  induction bytes generalizing s t with
  | nil => exact h
  | cons byte bytes ih => exact ih (rxByte_agree hp h byte)

/-- For the parser it does not matter where the calls of `atc_hdlc_data_in` are cut. -/
theorem dataIn_chunks_agree (hp : st.platform.Preserves filterView) (s : Ctx)
    (chunks : List (List UInt8)) :
    Agree (chunks.foldl (dataIn st) s) (rxBytes st s chunks.flatten) := by
  have hgen : ∀ t, Agree s t → Agree (chunks.foldl (dataIn st) s) (rxBytes st t chunks.flatten) := by
    induction chunks generalizing s with
    | nil => exact fun t h => h
    | cons chunk chunks ih =>
        intro t h
        rw [List.foldl_cons, List.flatten_cons, rxBytes, List.foldl_append]
        exact ih _ _ ((retransmitIfPending_agree _).trans (rxBytes_agree hp h chunk))
  exact hgen s (Agree.refl s)

theorem rxByte_flag_reading (s : Ctx) : Reading st (rxByte st s flag) [] := by
  rcases @rxByte_flag_cases st s with h | ⟨_, _, _, h⟩
  · rw [h]
    exact Reading.restart _
  · rw [h]
    exact Reading.restart _

theorem rxBytes_snoc (s : Ctx) (bytes : List UInt8) (byte : UInt8) :
    rxBytes st s (bytes ++ [byte]) = rxByte st (rxBytes st s bytes) byte := by
  rw [rxBytes, List.foldl_append]
  rfl

/-- Between flags nothing but the parser's own fields changes. -/
theorem rxBytes_withParser (s : Ctx) {bytes : List UInt8} (h : flag ∉ bytes) :
    rxBytes st s bytes = s.withParser (rxBytes st s bytes) := by
  induction bytes generalizing s with
  | nil => rfl
  | cons byte bytes ih =>
      simp only [List.mem_cons, not_or] at h
      obtain ⟨hbyte, hbytes⟩ := h
      have hstep : rxBytes st s (byte :: bytes) = rxBytes st (rxByte st s byte) bytes := rfl
      rw [hstep, ih _ hbytes, rxByte_withParser s (Ne.symm hbyte)]
      rfl

theorem rxBytes_reading {s : Ctx} {seg : List UInt8} (h : Reading st s seg) {bytes : List UInt8}
    (hbytes : flag ∉ bytes) : Reading st (rxBytes st s bytes) (seg ++ bytes) := by
  induction bytes generalizing s seg with
  | nil =>
      rw [List.append_nil]
      exact h
  | cons byte bytes ih =>
      simp only [List.mem_cons, not_or] at hbytes
      obtain ⟨hbyte, hbytes⟩ := hbytes
      rw [List.append_cons]
      exact ih (rxByte_reading h (Ne.symm hbyte)) hbytes

theorem rxByte_hunting {s : Ctx} (h : s.rxState = .hunt) {byte : UInt8} (hbyte : byte ≠ flag) :
    rxByte st s byte = s := by
  rw [rxByte, if_neg hbyte, if_pos h]

/-- A stream from the initial state of the parser. -/
theorem rxBytes_hunting (hp : st.platform.Preserves filterView) {s : Ctx} (h : s.rxState = .hunt)
    (bytes : List UInt8) (hcap : st.rxCapacity ≤ 65539) :
    dispatches (rxBytes st s bytes).trace =
      dispatches s.trace ++ deframe st s.myAddress s.peerAddress bytes := by
  induction bytes with
  | nil => simp [rxBytes, deframe]
  | cons byte bytes ih =>
      have hstep : rxBytes st s (byte :: bytes) = rxBytes st (rxByte st s byte) bytes := rfl
      by_cases hbyte : byte = flag
      · subst hbyte
        have hcut : octetCode.cut (flag :: bytes) = octetCode.cutFrom [] bytes :=
          octetCode.cut_flag bytes
        have hopen : rxByte st s flag = rxRestart s .addr := by simp [rxByte, handleFlag, h]
        rw [hstep, hopen, deframe, hcut]
        exact rxBytes_dispatches hp (Reading.restart s) bytes fun x _ hx => Nat.le_trans hx hcap
      · have hcut : octetCode.cut (byte :: bytes) = octetCode.cut bytes := octetCode.cut_cons hbyte bytes
        rw [hstep, rxByte_hunting h hbyte, ih, deframe, deframe, hcut]

theorem rxBytes_addresses (hp : st.platform.Preserves filterView) (s : Ctx) (bytes : List UInt8) :
    (rxBytes st s bytes).myAddress = s.myAddress ∧
      (rxBytes st s bytes).peerAddress = s.peerAddress := by
  induction bytes generalizing s with
  | nil => exact ⟨rfl, rfl⟩
  | cons byte bytes ih =>
      have hbyte : (rxByte st s byte).myAddress = s.myAddress ∧
          (rxByte st s byte).peerAddress = s.peerAddress := by
        by_cases h : byte = flag
        · subst h
          rcases @rxByte_flag_cases st s with h | ⟨address, ctrl, info, h⟩
          · rw [h]
            exact ⟨rfl, rfl⟩
          · have hview := filterView_dispatchFrame hp s address ctrl info
            rw [h]
            exact ⟨congrArg FilterView.myAddress hview, congrArg FilterView.peerAddress hview⟩
        · rw [rxByte_withParser s h]
          exact ⟨rfl, rfl⟩
      have hrest := ih (rxByte st s byte)
      exact ⟨hrest.1.trans hbyte.1, hrest.2.trans hbyte.2⟩

/-- The parser accepts exactly what the reference deframer keeps, however the stream is cut into
calls; a segment that the reference does not keep, the octets before the first flag, and an
unterminated tail leave all of the context but the parser's own fields as it is. -/
theorem parser_accepts_grammar (st : Station) (hp : st.platform.Preserves filterView)
    (hcap : st.rxCapacity ≤ 65539) (s : Ctx) (hhunt : s.rxState = .hunt) :
    (∀ chunks : List (List UInt8),
      dispatches (chunks.foldl (dataIn st) s).trace =
        dispatches s.trace ++ deframe st s.myAddress s.peerAddress chunks.flatten) ∧
    (∀ (before seg : List UInt8), flag ∉ seg →
      let t := rxBytes st s (before ++ [flag])
      rxBytes st t seg = t.withParser (rxBytes st t seg) ∧
      (¬Keeps st s.myAddress s.peerAddress (octetCode.unstuff seg) →
        rxBytes st t (seg ++ [flag]) = t.withParser (rxBytes st t (seg ++ [flag])))) ∧
    ∀ noise : List UInt8, flag ∉ noise →
      rxBytes st s (noise ++ [flag]) = s.withParser (rxBytes st s (noise ++ [flag])) := by
  refine ⟨fun chunks => ?_, fun before seg hseg => ?_, fun noise hnoise => ?_⟩
  · have hview := congrArg FilterView.dispatched (dataIn_chunks_agree hp s chunks).filter
    exact hview.trans (rxBytes_hunting hp hhunt chunks.flatten hcap)
  · intro t
    have hread : Reading st t [] := by
      unfold t
      rw [rxBytes_snoc]
      exact rxByte_flag_reading _
    have htail : rxBytes st t seg = t.withParser (rxBytes st t seg) := rxBytes_withParser t hseg
    refine ⟨htail, fun hkeep => ?_⟩
    obtain ⟨hmy, hpeer⟩ := rxBytes_addresses hp s (before ++ [flag])
    have hseg' : Reading st (rxBytes st t seg) seg := rxBytes_reading hread hseg
    have hdrop : ¬Keeps st (rxBytes st t seg).myAddress (rxBytes st t seg).peerAddress
        (octetCode.unstuff seg) := by
      rw [htail]
      simp only [Ctx.withParser, t, hmy, hpeer]
      exact hkeep
    rw [rxBytes_snoc, rxByte_flag hseg' fun h => Nat.le_trans h hcap, if_neg hdrop, htail]
    rfl
  · have hskip : rxBytes st s noise = s := by
      induction noise with
      | nil => rfl
      | cons byte noise ih =>
          simp only [List.mem_cons, not_or] at hnoise
          have hstep : rxBytes st s (byte :: noise) = rxBytes st (rxByte st s byte) noise := rfl
          rw [hstep, rxByte_hunting hhunt (Ne.symm hnoise.1)]
          exact ih hnoise.2
    have hopen : rxByte st s flag = rxRestart s .addr := by simp [rxByte, handleFlag, hhunt]
    rw [rxBytes_snoc, hskip, hopen]
    rfl

theorem mockPlatform_filterView : mockPlatform.Preserves filterView :=
  mockPlatform_passive.preserves filterView

/-- A UI frame whose information is a flag: sent with an escape, dispatched without. -/
theorem parser_accepts_grammar_mock :
    dispatches ([[0x00, 0x7E, 0x01, 0x03, 0x7D], [0x5E, 0x7D, 0x5E, 0xD3, 0x7E, 0x01]].foldl
      (dataIn (mockStation 0x01 1 (by decide) (by decide)))
      (initCtx (mockStation 0x01 1 (by decide) (by decide)) zeroMemory)).trace =
      [⟨0x01, 0x03, [0x7E]⟩] :=
  ((parser_accepts_grammar (mockStation 0x01 1 (by decide) (by decide)) mockPlatform_filterView
    (by decide) _ rfl).1 _).trans (by decide +kernel)

end Reading

end AtcHdlc
