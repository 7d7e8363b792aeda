import AtcHdlc.Calls
import AtcHdlc.Congruence

/-! The receive buffer. The accesses of the parser are listed beside its functions; whatever octets and
calls come, every write lies within the capacity, and every read is of an octet that was stored since the
frame began. -/

namespace AtcHdlc

/-- An access to the receive buffer, or a run of one of the two places where the parser begins anew. -/
inductive RxAccess where
  | begin
  | write (index : Nat)
  | read (index : Nat)
  deriving DecidableEq, Repr

/-- The accesses of `handle_flag`: the FCS octets, and of a frame that passes the check its address, its
control octet and its information field, which the handlers read. -/
def handleFlagAccesses (s : Ctx) : List RxAccess :=
  if s.rxState = .hunt ∨ s.rxIndex < minFrameLen then [.begin]
  else
    let dlen := s.rxIndex - fcsLen
    if s.rxCrc ≠ rxFcs (s.rxBuffer dlen) (s.rxBuffer (dlen + 1)) then [.read dlen, .read (dlen + 1), .begin]
    else
      let info :=
        if dlen > addrLen + ctrlLen then
          (List.range ((dlen - (addrLen + ctrlLen)) % 2 ^ 16)).map fun i => .read (addrLen + ctrlLen + i)
        else []
      [.read dlen, .read (dlen + 1), .read 0, .read 1] ++ info ++ [.begin]

/-- The accesses of `rx_byte` behind the escape: the octet itself, then the one that the checksum takes in
two places before. -/
def rxStoreAccesses (st : Station) (s : Ctx) (byte : UInt8) : List RxAccess :=
  if s.rxIndex ≥ st.rxCapacity then [.begin]
  else
    .write s.rxIndex :: ((if s.rxIndex ≥ fcsLen then [.read (s.rxIndex - fcsLen)] else []) ++
      if s.rxIndex + 1 = 1 ∧ byte ≠ s.myAddress ∧ byte ≠ s.peerAddress ∧ byte ≠ broadcastAddress then [.begin]
      else [])

def rxByteAccesses (st : Station) (s : Ctx) (byte : UInt8) : List RxAccess :=
  if byte = flag then handleFlagAccesses s
  else if s.rxState = .hunt then []
  else if byte = esc then []
  else if s.rxState = .esc then rxStoreAccesses st { s with rxState := .data } (byte ^^^ xorMask)
  else rxStoreAccesses st s byte

def rxBytesAccesses (st : Station) : Ctx → List UInt8 → List RxAccess
  | _, [] => []
  | s, byte :: bytes => rxByteAccesses st s byte ++ rxBytesAccesses st (rxByte st s byte) bytes

/-- Only `atc_hdlc_data_in` touches the buffer. -/
def Call.accesses (st : Station) (s : Ctx) : Call → List RxAccess
  | dataIn bytes => rxBytesAccesses st s bytes
  | _ => []

def runAccesses (st : Station) : Ctx → List Call → List RxAccess
  | _, [] => []
  | s, call :: calls => call.accesses st s ++ runAccesses st (call.run st s) calls

/-- One access to a buffer of a capacity, and the indices written since the last beginning. -/
def accessStep (capacity : Nat) (written : List Nat) : RxAccess → Option (List Nat)
  | .begin => some []
  | .write index => if index < capacity then some (index :: written) else none
  | .read index => if index ∈ written then some written else none

/-- The accesses of a run one after the other, until one is out of bounds. -/
def accessAll (capacity : Nat) (written : List Nat) (accesses : List RxAccess) : Option (List Nat) :=
  accesses.foldlM (accessStep capacity) written

/-- Every write lies within the capacity, every read is of what was written since the last beginning. -/
def Sound (capacity : Nat) (accesses : List RxAccess) : Prop := (accessAll capacity [] accesses).isSome

instance (capacity : Nat) (accesses : List RxAccess) : Decidable (Sound capacity accesses) :=
  inferInstanceAs (Decidable (_ = true))

/-! ### The accesses are all there are -/

/-- A context without the octets of its receive buffer. -/
def besides (s : Ctx) : Ctx := { s with rxBuffer := fun _ => 0 }

section Besides

variable {st : Station}

/-- Whatever a step does not read it does not matter for. -/
theorem keeping_besides {f : Ctx → Ctx} (h : ∀ s, besides (f s) = f (besides s)) :
    Keeping (fun s t => besides s = besides t) f := by
  intro s t hst
  calc besides (f s) = f (besides s) := h s
    _ = f (besides t) := congrArg f hst
    _ = besides (f t) := (h t).symm

theorem besides_resetState (s : Ctx) : besides (resetState st s) = resetState st (besides s) := by
  have hclear (t : Ctx) : besides (clearSlotLens st t) = clearSlotLens st (besides t) := by
    unfold clearSlotLens
    cases st.txWindow with
    | none => rfl
    | some w => rfl
  have hstop (t : Ctx) : besides (t2Stop st (t1Stop st t)) = t2Stop st (t1Stop st (besides t)) := rfl
  unfold resetState
  extract_lets logged counters cleared flags stopped logged' counters' cleared' flags' stopped'
  have hflags : besides flags = flags' := by
    have hcleared : besides cleared = cleared' := hclear counters
    unfold flags flags'
    rw [← hcleared]
    rfl
  exact (hstop flags).trans (by rw [hflags])

/-- No handler looks into the buffer. -/
theorem besides_congruence (hp : st.platform.Passive) :
    Congruence st fun s t => besides s = besides t where
  control {s t} h := (congrArg controlView h : controlView (besides s) = controlView (besides t))
  put f _ := keeping_besides fun _ => rfl
  t1Start := keeping_besides fun _ => rfl
  t1Stop := keeping_besides fun _ => rfl
  t2Start := keeping_besides fun _ => rfl
  t2Stop := keeping_besides fun _ => rfl
  data payload := keeping_besides fun s => by
    rw [onData_passive hp, onData_passive hp]
    rfl
  event event := keeping_besides fun s => by
    rw [onEvent_passive hp, onEvent_passive hp]
    rfl
  dispatch r := keeping_besides fun _ => rfl
  link state := keeping_besides fun _ => rfl
  reset := keeping_besides besides_resetState
  ack nr := keeping_besides fun _ => rfl
  nullWindow := keeping_besides fun _ => rfl
  receive payload := keeping_besides fun _ => rfl
  rejException := keeping_besides fun _ => rfl
  remoteBusy busy := keeping_besides fun _ => rfl
  arm fromSeq := keeping_besides fun _ => rfl
  frmr ctrl flags := by
    simp only [retransmitFrmr_eq]
    exact keeping_besides fun _ => rfl

theorem handleFlag_reads (hp : st.platform.Passive) {s : Ctx} {buffer : Nat → UInt8}
    (h : ∀ i, .read i ∈ handleFlagAccesses s → buffer i = s.rxBuffer i) :
    handleFlagAccesses { s with rxBuffer := buffer } = handleFlagAccesses s ∧
      besides (handleFlag st { s with rxBuffer := buffer }) = besides (handleFlag st s) := by
  unfold handleFlagAccesses at h ⊢
  unfold handleFlag
  by_cases hskip : s.rxState = .hunt ∨ s.rxIndex < minFrameLen
  · simp only [if_pos hskip, true_and]
    rfl
  simp only [if_neg hskip] at h ⊢
  generalize hdlen : s.rxIndex - fcsLen = dlen at h ⊢
  have hlow : buffer dlen = s.rxBuffer dlen := h dlen (by split_ifs <;> simp)
  have hhigh : buffer (dlen + 1) = s.rxBuffer (dlen + 1) := h (dlen + 1) (by split_ifs <;> simp)
  rw [hlow, hhigh]
  by_cases hfcs : s.rxCrc ≠ rxFcs (s.rxBuffer dlen) (s.rxBuffer (dlen + 1))
  · simp only [if_pos hfcs, true_and]
    rfl
  simp only [if_neg hfcs, true_and] at h ⊢
  have haddress : buffer 0 = s.rxBuffer 0 := h 0 (by simp)
  have hctrl : buffer 1 = s.rxBuffer 1 := h 1 (by simp)
  have hinfo : (if dlen > addrLen + ctrlLen then
        some (readBuffer { s with rxBuffer := buffer } (addrLen + ctrlLen) ((dlen - (addrLen + ctrlLen)) % 2 ^ 16))
      else none) =
      if dlen > addrLen + ctrlLen then
        some (readBuffer s (addrLen + ctrlLen) ((dlen - (addrLen + ctrlLen)) % 2 ^ 16))
      else none := by
    split_ifs with hlong
    · refine congrArg some (List.map_congr_left fun i hi => h _ ?_)
      rw [if_pos hlong]
      exact List.mem_append_left _ (List.mem_append_right _ (List.mem_map.mpr ⟨i, hi, rfl⟩))
    · rfl
  rw [haddress, hctrl, hinfo]
  generalize (if dlen > addrLen + ctrlLen then
    some (readBuffer s (addrLen + ctrlLen) ((dlen - (addrLen + ctrlLen)) % 2 ^ 16)) else none) = info
  have hdispatched : besides (dispatchFrame st { s with rxBuffer := buffer } (s.rxBuffer 0) (s.rxBuffer 1) info) =
      besides (dispatchFrame st s (s.rxBuffer 0) (s.rxBuffer 1) info) :=
    (besides_congruence hp).dispatchFrame ⟨s.rxBuffer 0, s.rxBuffer 1, info⟩
      (rfl : besides { s with rxBuffer := buffer } = besides s)
  exact congrArg (rxRestart · .addr) hdispatched

theorem rxStore_reads {s : Ctx} {buffer : Nat → UInt8} {byte : UInt8}
    (h : ∀ i, .read i ∈ rxStoreAccesses st s byte → buffer i = s.rxBuffer i) :
    besides (rxStore st { s with rxBuffer := buffer } byte) = besides (rxStore st s byte) := by
  unfold rxStoreAccesses at h
  rw [rxStore_eq, rxStore_eq]
  by_cases hfull : s.rxIndex ≥ st.rxCapacity
  · simp only [if_pos hfull]
    rfl
  simp only [if_neg hfull] at h ⊢
  have hlag : s.rxIndex ≥ fcsLen → Function.update buffer s.rxIndex byte (s.rxIndex - fcsLen) =
      Function.update s.rxBuffer s.rxIndex byte (s.rxIndex - fcsLen) := by
    intro hlag
    have hne : s.rxIndex - fcsLen ≠ s.rxIndex := by
      simp only [fcsLen] at hlag ⊢
      omega
    rw [Function.update_of_ne hne, Function.update_of_ne hne]
    exact h _ (by simp [hlag])
  have hstored : besides (stored st { s with rxBuffer := buffer } byte) = besides (stored st s byte) := by
    simp only [stored, besides]
    split_ifs with hlong
    · rw [hlag hlong]
    · rfl
  split_ifs
  · exact congrArg (fun t : Ctx => { t with rxState := .data }) hstored
  · exact congrArg (rxRestart · .hunt) hstored
  · exact hstored

/-- What an octet does depends, of all that is in the buffer, on the listed reads alone. -/
theorem rxByte_reads (hp : st.platform.Passive) {s : Ctx} {buffer : Nat → UInt8} {byte : UInt8}
    (h : ∀ i, .read i ∈ rxByteAccesses st s byte → buffer i = s.rxBuffer i) :
    rxByteAccesses st { s with rxBuffer := buffer } byte = rxByteAccesses st s byte ∧
      besides (rxByte st { s with rxBuffer := buffer } byte) = besides (rxByte st s byte) := by
  unfold rxByteAccesses rxByte at *
  split_ifs at h ⊢ with hflag hhunt hesc hstate
  · exact handleFlag_reads hp h
  · exact ⟨rfl, rfl⟩
  · exact ⟨rfl, rfl⟩
  · exact ⟨rfl, @rxStore_reads st { s with rxState := .data } buffer _ h⟩
  · exact ⟨rfl, rxStore_reads h⟩

end Besides

/-- The parser's place in the buffer, its checksum, and the buffer. -/
structure BufferView where
  rxIndex : Nat
  rxCrc : UInt16
  rxBuffer : Nat → UInt8

def bufferView (s : Ctx) : BufferView := ⟨s.rxIndex, s.rxCrc, s.rxBuffer⟩

/-- The buffer holds what was stored since the frame began, and the checksum lags two octets behind. -/
structure Buffered (st : Station) (written : List Nat) (v : BufferView) : Prop where
  index_le : v.rxIndex ≤ st.rxCapacity
  written : ∀ i < v.rxIndex, i ∈ written
  crc : v.rxCrc = crcFold st.crc fcsInitValue ((List.range (v.rxIndex - fcsLen)).map v.rxBuffer)

section Buffer

variable {st : Station} {written : List Nat} {s : Ctx}

theorem accessAll_append (capacity : Nat) (written : List Nat) (l r : List RxAccess) :
    accessAll capacity written (l ++ r) = (accessAll capacity written l).bind (accessAll capacity · r) :=
  List.foldlM_append

theorem accessAll_cons (capacity : Nat) (written : List Nat) (a : RxAccess) (l : List RxAccess) :
    accessAll capacity written (a :: l) = (accessStep capacity written a).bind (accessAll capacity · l) :=
  List.foldlM_cons

/-- Reads of what is there change nothing. -/
theorem accessAll_reads {capacity : Nat} {indices : List Nat} (h : ∀ i ∈ indices, i ∈ written)
    (l : List RxAccess) : accessAll capacity written (indices.map .read ++ l) = accessAll capacity written l := by
  induction indices with
  | nil => rfl
  | cons i indices ih =>
      have hi : accessStep capacity written (.read i) = some written := if_pos (h i List.mem_cons_self)
      rw [List.map_cons, List.cons_append, accessAll_cons, hi]
      exact ih fun j hj => h j (List.mem_cons_of_mem i hj)

theorem Buffered.restart (s : Ctx) (state : RxState) : Buffered st [] (bufferView (rxRestart s state)) :=
  ⟨Nat.zero_le _, fun i hi => absurd hi (Nat.not_lt_zero i), rfl⟩

/-- The flag reads what the frame has stored, and begins anew. -/
theorem Buffered.handleFlag (h : Buffered st written (bufferView s)) (capacity : Nat) :
    accessAll capacity written (handleFlagAccesses s) = some [] ∧
      Buffered st [] (bufferView (handleFlag st s)) := by
  constructor
  · unfold handleFlagAccesses
    by_cases hskip : s.rxState = .hunt ∨ s.rxIndex < minFrameLen
    · rw [if_pos hskip]
      rfl
    rw [if_neg hskip]
    have hmin : 4 ≤ s.rxIndex := Nat.le_of_not_lt (not_or.mp hskip).2
    extract_lets dlen info
    have hfcs : ∀ i ∈ [dlen, dlen + 1, 0, 1], i < s.rxIndex := by
      intro i hi
      simp only [dlen, fcsLen, List.mem_cons, List.not_mem_nil, or_false] at hi
      omega
    split_ifs
    · have hreads : ∀ i ∈ [dlen, dlen + 1], i ∈ written := fun i hi =>
        h.written i (hfcs i (List.mem_append_left [0, 1] hi))
      have hall := @accessAll_reads written capacity [dlen, dlen + 1] hreads [.begin]
      exact hall
    · have hinfo : ∃ indices : List Nat, info = indices.map .read ∧ ∀ i ∈ indices, i < s.rxIndex := by
        unfold info
        split_ifs with hlong
        · refine ⟨(List.range ((dlen - (addrLen + ctrlLen)) % 2 ^ 16)).map (addrLen + ctrlLen + ·), ?_, ?_⟩
          · rw [List.map_map]
            rfl
          · intro i hi
            obtain ⟨j, hj, rfl⟩ := List.mem_map.mp hi
            have hle := Nat.mod_le (dlen - (addrLen + ctrlLen)) (2 ^ 16)
            rw [List.mem_range] at hj
            simp only [dlen, addrLen, ctrlLen, fcsLen] at hj hle ⊢
            omega
        · exact ⟨[], rfl, fun i hi => absurd hi List.not_mem_nil⟩
      obtain ⟨indices, hindices, hlt⟩ := hinfo
      have hreads : ∀ i ∈ [dlen, dlen + 1, 0, 1] ++ indices, i ∈ written := by
        intro i hi
        rcases List.mem_append.mp hi with hi | hi
        · exact h.written i (hfcs i hi)
        · exact h.written i (hlt i hi)
      rw [hindices]
      exact @accessAll_reads written capacity ([dlen, dlen + 1, 0, 1] ++ indices) hreads [.begin]
  · have hrestart : ∃ t, AtcHdlc.handleFlag st s = rxRestart t .addr := by
      have hflag : rxByte st s flag = AtcHdlc.handleFlag st s := by simp [rxByte]
      rw [← hflag]
      rcases @rxByte_flag_cases st s with hsame | ⟨address, ctrl, info, hframe⟩
      · exact ⟨s, hsame⟩
      · exact ⟨_, hframe⟩
    obtain ⟨t, ht⟩ := hrestart
    rw [ht]
    exact .restart t .addr

/-- An octet goes to the next index, or the segment is given up. -/
theorem Buffered.rxStore (h : Buffered st written (bufferView s)) (byte : UInt8) :
    ∃ written', accessAll st.rxCapacity written (rxStoreAccesses st s byte) = some written' ∧
      Buffered st written' (bufferView (rxStore st s byte)) := by
  rw [rxStore_eq]
  unfold rxStoreAccesses
  by_cases hfull : s.rxIndex ≥ st.rxCapacity
  · rw [if_pos hfull, if_pos hfull]
    exact ⟨[], rfl, .restart s .hunt⟩
  rw [if_neg hfull, if_neg hfull]
  have hwrite : accessStep st.rxCapacity written (.write s.rxIndex) = some (s.rxIndex :: written) :=
    if_pos (Nat.lt_of_not_le hfull)
  have hstored : Buffered st (s.rxIndex :: written) (bufferView (stored st s byte)) := by
    refine ⟨Nat.lt_of_not_le hfull, fun i hi => ?_, ?_⟩
    · rcases Nat.lt_succ_iff_lt_or_eq.mp hi with hlt | heq
      · exact List.mem_cons_of_mem _ (h.written i hlt)
      · rw [heq]
        exact List.mem_cons_self
    · have hold : s.rxCrc = crcFold st.crc fcsInitValue ((List.range (s.rxIndex - fcsLen)).map s.rxBuffer) :=
        h.crc
      have hsame (n : Nat) (hn : n ≤ s.rxIndex) :
          (List.range n).map (Function.update s.rxBuffer s.rxIndex byte) = (List.range n).map s.rxBuffer := by
        apply List.map_congr_left
        intro i hi
        rw [List.mem_range] at hi
        exact Function.update_of_ne (by omega) _ _
      simp only [bufferView, stored]
      split_ifs with hlag
      · have hnext : s.rxIndex + 1 - fcsLen = s.rxIndex - fcsLen + 1 := Nat.sub_add_comm hlag
        have hne : s.rxIndex - fcsLen ≠ s.rxIndex := by
          simp only [fcsLen] at hlag ⊢
          omega
        rw [hnext, List.range_succ, List.map_append, hsame _ (Nat.sub_le _ _), crcFold_append, ← hold,
          List.map_singleton]
        rfl
      · have hzero : s.rxIndex + 1 - fcsLen = s.rxIndex - fcsLen := by
          simp only [fcsLen] at hlag ⊢
          omega
        rw [hzero, hsame _ (Nat.sub_le _ _)]
        exact hold
  have hread : accessAll st.rxCapacity (s.rxIndex :: written)
      (if s.rxIndex ≥ fcsLen then [.read (s.rxIndex - fcsLen)] else []) = some (s.rxIndex :: written) := by
    split_ifs with hlag
    · have hlast : s.rxIndex - fcsLen < s.rxIndex + 1 := by omega
      have hreads : ∀ i ∈ [s.rxIndex - fcsLen], i ∈ s.rxIndex :: written := by
        intro i hi
        rw [List.mem_singleton.mp hi]
        exact hstored.written _ hlast
      have hall := @accessAll_reads (s.rxIndex :: written) st.rxCapacity [s.rxIndex - fcsLen] hreads []
      exact hall
    · rfl
  rw [accessAll_cons, hwrite, Option.bind_some, accessAll_append, hread, Option.bind_some]
  by_cases hfirst : s.rxIndex = 0
  · have hone : s.rxIndex + 1 = 1 := by omega
    have hfilter : (s.rxIndex + 1 = 1 ∧ byte ≠ s.myAddress ∧ byte ≠ s.peerAddress ∧ byte ≠ broadcastAddress) ↔
        ¬Accepted s.myAddress s.peerAddress byte := by
      simp only [Accepted, not_or, hone, true_and, ne_eq]
    rw [if_pos hfirst, if_congr hfilter rfl rfl]
    by_cases haddr : Accepted s.myAddress s.peerAddress byte
    · rw [if_pos haddr, if_neg (not_not.mpr haddr)]
      exact ⟨_, rfl, hstored⟩
    · rw [if_neg haddr, if_pos haddr]
      exact ⟨[], rfl, .restart _ .hunt⟩
  · rw [if_neg hfirst, if_neg fun hnot => hfirst (by omega)]
    exact ⟨_, rfl, hstored⟩

theorem Buffered.rxByte (h : Buffered st written (bufferView s)) (byte : UInt8) :
    ∃ written', accessAll st.rxCapacity written (rxByteAccesses st s byte) = some written' ∧
      Buffered st written' (bufferView (rxByte st s byte)) := by
  unfold rxByteAccesses AtcHdlc.rxByte
  split_ifs
  · exact ⟨[], h.handleFlag st.rxCapacity⟩
  · exact ⟨written, rfl, h⟩
  · exact ⟨written, rfl, h⟩
  · exact @Buffered.rxStore st written { s with rxState := .data } h _
  · exact h.rxStore byte

theorem Buffered.rxBytes (h : Buffered st written (bufferView s)) (bytes : List UInt8) :
    ∃ written', accessAll st.rxCapacity written (rxBytesAccesses st s bytes) = some written' ∧
      Buffered st written' (bufferView (rxBytes st s bytes)) := by
  induction bytes generalizing s written with
  | nil => exact ⟨written, rfl, h⟩
  | cons byte bytes ih =>
      obtain ⟨next, hnext, hstep⟩ := h.rxByte byte
      obtain ⟨last, hlast, hend⟩ := ih hstep
      refine ⟨last, ?_, hend⟩
      rw [rxBytesAccesses, accessAll_append, hnext]
      exact hlast

/-- The buffer is as good as one that the parser cannot tell from it. -/
theorem Buffered.agree {t : Ctx} (h : Buffered st written (bufferView t)) (hagree : Agree s t) :
    Buffered st written (bufferView s) := by
  have hindex : s.rxIndex = t.rxIndex := hagree.rxIndex
  refine ⟨?_, fun i hi => h.written i ?_, ?_⟩
  · exact hindex.le.trans h.index_le
  · exact Nat.lt_of_lt_of_eq hi hindex
  · have hsame : (List.range (t.rxIndex - fcsLen)).map s.rxBuffer =
        (List.range (t.rxIndex - fcsLen)).map t.rxBuffer := by
      apply List.map_congr_left
      intro i hi
      rw [List.mem_range] at hi
      exact hagree.rxBuffer i (by omega)
    simp only [bufferView]
    rw [hagree.rxCrc, hindex, hsame]
    exact h.crc

theorem bufferView_onEvent (hp : st.platform.Preserves bufferView) (s : Ctx) (event : Event) :
    bufferView (onEvent st s event) = bufferView s := by
  unfold onEvent
  cases hf : st.platform.onEvent with
  | none => rfl
  | some f => exact hp.2 f hf event _

theorem bufferView_frameSend (s : Ctx) (address ctrl : UInt8) (data : Payload) :
    bufferView (frameSend st s address ctrl data) = bufferView s := by
  rw [frameSend, frameEnd_eq, emitAll_eq, frameBegin_eq]
  split_ifs <;> rfl

theorem bufferView_t1Start (s : Ctx) : bufferView (t1Start st s) = bufferView s := rfl

theorem bufferView_t2Stop (s : Ctx) : bufferView (t2Stop st s) = bufferView s := rfl

theorem bufferView_resetState (s : Ctx) : bufferView (resetState st s) = bufferView s := by
  have hclear (t : Ctx) : bufferView (clearSlotLens st t) = bufferView t := by
    unfold clearSlotLens
    cases st.txWindow with
    | none => rfl
    | some w => rfl
  have hstop (t : Ctx) : bufferView (t1Stop st t) = bufferView t := rfl
  unfold resetState
  extract_lets logged counters cleared flags stopped
  calc bufferView (t2Stop st stopped) = bufferView stopped := bufferView_t2Stop stopped
    _ = bufferView flags := hstop flags
    _ = bufferView counters := hclear counters

theorem bufferView_acceptI {w : TxWindow} (s : Ctx) (data : Payload) :
    bufferView (acceptI st w s data) = bufferView s := by
  unfold acceptI
  extract_lets out slot cursor copied logged stored sent advanced stopped
  have hcopied : bufferView copied = bufferView s := by
    unfold copied
    split_ifs <;> rfl
  clear_value copied
  have hsent : bufferView sent = bufferView copied := bufferView_frameSend stored _ _ _
  clear_value sent
  have hstopped : bufferView stopped = bufferView s := (hsent.trans hcopied)
  split_ifs
  · exact (bufferView_t1Start stopped).trans hstopped
  · exact hstopped

theorem bufferView_onData (hp : st.platform.Preserves bufferView) (s : Ctx) (payload : List UInt8) :
    bufferView (onData st s payload) = bufferView s := by
  unfold onData
  cases hf : st.platform.onData with
  | none => rfl
  | some f => exact hp.1 f hf payload _

theorem Effect.bufferView_eq (hp : st.platform.Preserves bufferView) {ctrl : UInt8} {s s' : Ctx}
    (h : Effect st ctrl s s') : bufferView s' = bufferView s := by
  cases h with
  | data payload => exact bufferView_onData hp s payload
  | event event => exact bufferView_onEvent hp s event
  | reset => exact bufferView_resetState s
  | _ => rfl

theorem rxStore_writes {s : Ctx} {byte : UInt8} {i : Nat} (h : .write i ∉ rxStoreAccesses st s byte) :
    (rxStore st s byte).rxBuffer i = s.rxBuffer i := by
  unfold rxStoreAccesses at h
  rw [rxStore_eq]
  by_cases hfull : s.rxIndex ≥ st.rxCapacity
  · rw [if_pos hfull]
    rfl
  · rw [if_neg hfull] at h ⊢
    have hne : i ≠ s.rxIndex := fun heq => h (by rw [heq]; exact List.mem_cons_self)
    have hkept : (stored st s byte).rxBuffer i = s.rxBuffer i := Function.update_of_ne hne _ _
    split_ifs
    · exact hkept
    · exact hkept
    · exact hkept

/-- An octet leaves what it does not write as it was. -/
theorem rxByte_writes (hp : st.platform.Preserves bufferView) {s : Ctx} {byte : UInt8} {i : Nat}
    (h : .write i ∉ rxByteAccesses st s byte) : (rxByte st s byte).rxBuffer i = s.rxBuffer i := by
  by_cases hflag : byte = flag
  · subst hflag
    rcases @rxByte_flag_cases st s with hsame | ⟨address, ctrl, info, hframe⟩
    · rw [hsame]
      rfl
    · have hdispatched : bufferView (dispatchFrame st s address ctrl info) = bufferView s :=
        (dispatchFrame_effects st ctrl s address info).induct (P := fun t => bufferView t = bufferView s)
          (fun _ _ he ht => (he.bufferView_eq hp).trans ht) rfl
      rw [hframe]
      exact congrFun (congrArg BufferView.rxBuffer hdispatched) i
  · unfold rxByteAccesses at h
    unfold rxByte
    split_ifs at h ⊢
    · rfl
    · rfl
    · exact @rxStore_writes st { s with rxState := .data } _ i h
    · exact rxStore_writes h

theorem Deed.bufferView_eq (hp : st.platform.Preserves bufferView) {call : Call} {s s' : Ctx}
    (h : Deed st call s s') : bufferView s' = bufferView s := by
  cases h with
  | event event => exact bufferView_onEvent hp s event
  | reset _ => exact bufferView_resetState s
  | _ => rfl

/-- No other call touches the buffer, not even one that reads absent data. -/
theorem Call.bufferView_eq (hp : st.platform.Preserves bufferView) (s : Ctx) {call : Call}
    (hin : ∀ bytes, call ≠ .dataIn bytes) : bufferView (call.run st s) = bufferView s := by
  by_cases hlegal : call.Legal
  · exact (Call.deeds st s hlegal hin).induct (P := fun t => bufferView t = bufferView s)
      (fun _ _ hd ht => (hd.bufferView_eq hp).trans ht) rfl
  · cases call with
    | transmitI data =>
        rcases @transmitI_cases st s data with hsame | ⟨w, -, -, -, -, -, haccepted⟩
        · exact congrArg bufferView hsame
        · exact (congrArg bufferView haccepted).trans (bufferView_acceptI s data)
    | _ => exact absurd trivial hlegal

/-- One call of a run. -/
theorem Buffered.call (hp : st.platform.Preserves bufferView)
    (h : Buffered st written (bufferView s)) (call : Call) :
    ∃ written', accessAll st.rxCapacity written (call.accesses st s) = some written' ∧
      Buffered st written' (bufferView (call.run st s)) := by
  by_cases hin : ∃ bytes, call = .dataIn bytes
  · obtain ⟨bytes, rfl⟩ := hin
    obtain ⟨written', hreads, hbuffered⟩ := h.rxBytes bytes
    exact ⟨written', hreads, hbuffered.agree (retransmitIfPending_agree _)⟩
  · have hnone : call.accesses st s = [] := by
      cases call with
      | dataIn bytes => exact absurd ⟨bytes, rfl⟩ hin
      | _ => rfl
    refine ⟨written, by rw [hnone]; rfl, ?_⟩
    rw [Call.bufferView_eq hp s fun bytes heq => hin ⟨bytes, heq⟩]
    exact h

/-- The calls of a run. -/
theorem Buffered.run (hp : st.platform.Preserves bufferView) (h : Buffered st written (bufferView s))
    (calls : List Call) :
    ∃ written', accessAll st.rxCapacity written (runAccesses st s calls) = some written' ∧
      Buffered st written' (bufferView (calls.foldl (Call.run st) s)) := by
  induction calls generalizing s written with
  | nil => exact ⟨written, rfl, h⟩
  | cons call calls ih =>
      obtain ⟨next, hnext, hstep⟩ := h.call hp call
      obtain ⟨last, hlast, hend⟩ := ih hstep
      refine ⟨last, ?_, hend⟩
      rw [runAccesses, accessAll_append, hnext]
      exact hlast

/-- In a context the listed accesses are all there are: an octet leaves what it does not write as it was and depends
on what it reads alone, and no other call touches the buffer. -/
structure Listed (st : Station) (s : Ctx) : Prop where
  writes : ∀ byte i, .write i ∉ rxByteAccesses st s byte → (rxByte st s byte).rxBuffer i = s.rxBuffer i
  reads : st.platform.Passive → ∀ byte buffer, (∀ i, .read i ∈ rxByteAccesses st s byte → buffer i = s.rxBuffer i) →
    rxByteAccesses st { s with rxBuffer := buffer } byte = rxByteAccesses st s byte ∧
      besides (rxByte st { s with rxBuffer := buffer } byte) = besides (rxByte st s byte)
  others : ∀ call : Call, (∀ bytes, call ≠ .dataIn bytes) → (call.run st s).rxBuffer = s.rxBuffer

theorem listed (hp : st.platform.Preserves bufferView) (s : Ctx) : Listed st s where
  writes _ _ h := rxByte_writes hp h
  reads hpassive _ _ h := rxByte_reads hpassive h
  others _ hin := congrArg BufferView.rxBuffer (Call.bufferView_eq hp s hin)

/-- Whatever `atc_hdlc_init` accepts, after any calls and within any chunk: every write to the receive buffer
lies within its capacity and every read is of an octet stored since the frame began, the index never
passes the capacity, the running checksum is that of all octets but the last two, and the accesses that are
counted here are all that are made. -/
theorem rxBuffer_in_bounds {params : Params} {mem : Memory} {st : Station} {s : Ctx}
    (hinit : init params mem = .ok (st, s)) (hp : st.platform.Preserves bufferView) (calls : List Call)
    (bytes : List UInt8) :
    ∃ rxBuf, params.rxBuf = some rxBuf ∧
      let u := calls.foldl (Call.run st) s
      let t := rxBytes st u bytes
      Sound rxBuf.capacity (runAccesses st s calls ++ rxBytesAccesses st u bytes) ∧
        t.rxIndex ≤ rxBuf.capacity ∧
        (fcsLen ≤ t.rxIndex →
          t.rxCrc = crcFold st.crc fcsInitValue (readBuffer t 0 (t.rxIndex - fcsLen))) ∧ Listed st t := by
  obtain ⟨hstart, -, -, hbuf⟩ := init_station hinit
  obtain ⟨rxBuf, hrxBuf, hcap⟩ := Option.map_eq_some_iff.mp hbuf
  refine ⟨rxBuf, hrxBuf, ?_⟩
  extract_lets u t
  have hempty : Buffered st [] (bufferView s) := by
    rw [hstart]
    exact .restart (initCtx st mem) .hunt
  obtain ⟨written, hcalls, hrun⟩ := hempty.run hp calls
  obtain ⟨written', hchunk, hend⟩ := hrun.rxBytes bytes
  rw [hcap]
  refine ⟨?_, hend.index_le, fun _ => ?_, listed hp t⟩
  · rw [Sound, accessAll_append, hcalls]
    exact Option.isSome_iff_exists.mpr ⟨written', hchunk⟩
  · have hread : readBuffer t 0 (t.rxIndex - fcsLen) = (List.range (t.rxIndex - fcsLen)).map t.rxBuffer := by
      simp only [readBuffer, Nat.zero_add]
    rw [hread]
    exact hend.crc

/-- A buffer of six octets: a frame that fills it, its end in the next chunk, and one that is too long. -/
theorem rxBuffer_in_bounds_mock :
    let params : Params := ⟨some ⟨modeAbm, 0x01, 2, 3, 1000, 10⟩, some ⟨true, mockPlatform⟩, none,
      some ⟨true, 6⟩, none⟩
    let calls : List Call := [.dataIn [0x7E, 0x01, 0x03, 0x41, 0x7D, 0x5E, 0x42, 0x43],
      .dataIn [0x7E, 0xFF, 0x03, 0x41, 0x42, 0x43, 0x44, 0x45, 0x46, 0x7E]]
    ∃ st s, init params zeroMemory = .ok (st, s) ∧
      Sound 6 (runAccesses st s calls ++ rxBytesAccesses st (calls.foldl (Call.run st) s) [0x01, 0x7D]) := by
  intro params calls
  refine ⟨_, _, rfl, ?_⟩
  obtain ⟨rxBuf, hbuf, hsound, -⟩ := @rxBuffer_in_bounds params zeroMemory _ _ rfl
    (mockPlatform_passive.preserves bufferView) calls [0x01, 0x7D]
  have hsix : rxBuf.capacity = 6 := congrArg RawRxBuf.capacity (Option.some.inj hbuf).symm
  rw [hsix] at hsound
  exact hsound

end Buffer

end AtcHdlc
