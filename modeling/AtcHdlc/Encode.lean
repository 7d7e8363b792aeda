import AtcHdlc.Lib.Stuffing
import AtcHdlc.Station

/-! The octets of one frame. The senders of `hdlc_frame.h` put them out one by one with a running
checksum; here each sender is shown to put out one whole encoded frame and to change nothing else but
`tx_crc`. -/

namespace AtcHdlc

/-- The transparency of the line: flag 7E, escape 7D, mask 20. -/
def octetCode : Stuffing.Code UInt8 where
  flag := flag
  esc := esc
  mask b := b ^^^ xorMask
  mask_mask b := by rw [UInt8.xor_assoc, UInt8.xor_self, UInt8.xor_zero]
  esc_ne_flag := by decide
  mask_flag_ne_flag := by decide
  mask_flag_ne_esc := by decide
  mask_esc_ne_flag := by decide
  mask_esc_ne_esc := by decide

@[simp] theorem octetCode_flag : octetCode.flag = flag := rfl

@[simp] theorem octetCode_esc : octetCode.esc = esc := rfl

structure Frame where
  address : UInt8
  ctrl : UInt8
  info : List UInt8
  deriving DecidableEq, Repr

/-- The FCS in the order in which `frame_end` sends it, low octet first. -/
def fcsOctets (fcs : UInt16) : List UInt8 := [(fcs &&& 0xFF).toUInt8, (fcs >>> 8).toUInt8]

namespace Frame

def body (f : Frame) : List UInt8 := f.address :: f.ctrl :: f.info

def fcs (crc : CrcOps) (f : Frame) : UInt16 := crcFold crc fcsInitValue f.body

/-- What is stuffed between the flags: the frame and its check sequence. -/
def content (crc : CrcOps) (f : Frame) : List UInt8 := f.body ++ fcsOctets (f.fcs crc)

def octets (crc : CrcOps) (f : Frame) : List UInt8 :=
  flag :: (octetCode.stuff (f.content crc) ++ [flag])

/-- The mark of a frame begun at the moment `m` and its calls of `on_send`; only the closing flag asks
for a flush. -/
def obs (crc : CrcOps) (m : Moment) (f : Frame) : List Obs :=
  .frame f.address f.ctrl m ::
    ((flag :: octetCode.stuff (f.content crc)).map (.send · false) ++ [.send flag true])

theorem content_length (crc : CrcOps) (f : Frame) : (f.content crc).length = f.info.length + 4 := by
  simp [content, body, fcsOctets]

/-- Putting out a frame only sends. -/
theorem mem_obs {crc : CrcOps} {m : Moment} {f : Frame} {o : Obs} (h : o ∈ f.obs crc m) :
    o = .frame f.address f.ctrl m ∨ ∃ byte flush, o = .send byte flush := by
  simp only [obs, List.mem_cons, List.mem_append, List.mem_map, List.not_mem_nil, or_false] at h
  rcases h with rfl | ⟨byte, _, rfl⟩ | rfl
  · exact Or.inl rfl
  · exact Or.inr ⟨byte, false, rfl⟩
  · exact Or.inr ⟨flag, true, rfl⟩

end Frame

/-- A context after one frame has been put on the line. -/
def Ctx.put (s : Ctx) (st : Station) (f : Frame) : Ctx :=
  { s with txCrc := f.fcs st.crc, trace := s.trace ++ f.obs st.crc s.moment }

section Senders

variable (st : Station)

theorem putEscaped_eq (s : Ctx) (byte : UInt8) :
    putEscaped s byte = s.logs ((octetCode.stuffOne byte).map (.send · false)) := by
  simp only [putEscaped, Stuffing.Code.stuffOne, octetCode_flag, octetCode_esc]
  split_ifs with h
  · simp [putRaw, Ctx.log, Ctx.logs, octetCode, h]
  · simp [putRaw, Ctx.log, Ctx.logs, h]

theorem emit_eq (s : Ctx) (byte : UInt8) :
    emit st s byte = { s with
      txCrc := st.crc s.txCrc [byte]
      trace := s.trace ++ (octetCode.stuffOne byte).map (.send · false) } := by
  simp only [emit, putEscaped_eq, Ctx.logs]

/-- The invariant of a run of `emit`: the checksum folds over the octets, the line shows them
stuffed. -/
theorem emitAll_eq (s : Ctx) (octets : List UInt8) :
    emitAll st s octets = { s with
      txCrc := crcFold st.crc s.txCrc octets
      trace := s.trace ++ (octetCode.stuff octets).map (.send · false) } := by
  induction octets generalizing s with
  | nil => simp [emitAll]
  | cons octet octets ih =>
      have hstep : emitAll st s (octet :: octets) = emitAll st (emit st s octet) octets := rfl
      rw [hstep, ih, emit_eq]
      simp

theorem frameBegin_eq (s : Ctx) (address control : UInt8) :
    frameBegin st s address control = { s with
      txCrc := crcFold st.crc fcsInitValue [address, control]
      trace := s.trace ++ .frame address control s.moment ::
        (flag :: octetCode.stuff [address, control]).map (.send · false) } := by
  simp [frameBegin, emit_eq, putRaw, Ctx.log]

theorem frameEnd_eq (s : Ctx) :
    frameEnd s = s.logs
      ((octetCode.stuff (fcsOctets s.txCrc)).map (.send · false) ++ [.send flag true]) := by
  simp [frameEnd, putEscaped_eq, putRaw, Ctx.log, Ctx.logs, fcsOctets]

theorem frameEnd_emitAll_frameBegin (s : Ctx) (f : Frame) :
    frameEnd (emitAll st (frameBegin st s f.address f.ctrl) f.info) = s.put st f := by
  rw [frameBegin_eq, emitAll_eq, frameEnd_eq]
  simp [Ctx.logs, Ctx.put, Frame.obs, Frame.content, Frame.body, Frame.fcs]

@[simp] theorem frameSend_octets (s : Ctx) (address ctrl : UInt8) (info : List UInt8) :
    frameSend st s address ctrl (.octets info) = s.put st ⟨address, ctrl, info⟩ := by
  rw [← frameEnd_emitAll_frameBegin]
  simp [frameSend, Payload.isNull, Payload.read]

/-- A NULL payload without length is an empty one. -/
@[simp] theorem frameSend_null_zero (s : Ctx) (address ctrl : UInt8) :
    frameSend st s address ctrl (.null 0) = s.put st ⟨address, ctrl, []⟩ := by
  rw [← frameEnd_emitAll_frameBegin]
  simp [frameSend, Payload.isNull, Payload.read, Payload.len, emitAll]

/-- The obligation in the words of the checks of `hdlc_out.c`. -/
theorem Payload.nonNull_iff {data : Payload} : data.NonNull ↔ ¬(data.isNull ∧ 0 < data.len) := by
  rw [NonNull, not_and_or, Bool.not_eq_true, Nat.not_lt, Nat.le_zero]

/-- Under the caller's obligation `frame_send` puts out one frame and reads no absent data. -/
theorem frameSend_of_nonNull (s : Ctx) (address ctrl : UInt8) {data : Payload} (h : data.NonNull) :
    frameSend st s address ctrl data = s.put st ⟨address, ctrl, data.read⟩ := by
  cases data with
  | octets info => exact frameSend_octets st s address ctrl info
  | null n =>
      have hn : n = 0 := by simpa [Payload.NonNull, Payload.isNull, Payload.len] using h
      subst hn
      exact frameSend_null_zero st s address ctrl

/-- What `atc_hdlc_transmit_ui` and `atc_hdlc_transmit_test` can do: nothing, or send the frame. -/
theorem transmitU_cases (s : Ctx) (ctrl address : UInt8) (data : Payload) :
    (transmitU st s ctrl address data).2 = s ∨
      (transmitU st s ctrl address data).2 = s.put st ⟨address, ctrl, data.read⟩ := by
  unfold transmitU
  split_ifs with hnull hlen
  · exact Or.inl rfl
  · exact Or.inl rfl
  · exact Or.inr (frameSend_of_nonNull st s address ctrl (Payload.nonNull_iff.mpr hnull))

@[simp] theorem sendU_eq (s : Ctx) (address ctrl : UInt8) :
    sendU st s address ctrl = s.put st ⟨address, ctrl, []⟩ :=
  frameEnd_emitAll_frameBegin st s ⟨address, ctrl, []⟩

@[simp] theorem sendS_eq (s : Ctx) (address : UInt8) (kind nr : Nat) (pf : Bool) :
    sendS st s address kind nr pf = s.put st ⟨address, sCtrl kind nr pf, []⟩ :=
  frameEnd_emitAll_frameBegin st s ⟨address, sCtrl kind nr pf, []⟩

/-- The information field of the FRMR that a context sends. -/
def frmrInfo (s : Ctx) : List UInt8 :=
  [s.frmrCtrl, .ofNat ((s.vr &&& 0x07) <<< 5 ||| (s.vs &&& 0x07) <<< 1), s.frmrFlags]

@[simp] theorem retransmitFrmr_eq (s : Ctx) :
    retransmitFrmr st s = s.put st ⟨s.myAddress, uCtrl uFrmr false, frmrInfo s⟩ := by
  rw [← frameEnd_emitAll_frameBegin]
  simp [retransmitFrmr, frmrInfo, emitAll, frameBegin_eq, emit_eq]

end Senders

end AtcHdlc
