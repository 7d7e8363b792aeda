import AtcHdlc.Codec
import AtcHdlc.Lib.Remainder
import AtcHdlc.Retransmit

/-! What the frame check sequence detects. The table-driven update of `hdlc_crc.c` is division by
x^16 + x^12 + x^5 + 1 one bit after the other, the least significant bit of each octet first, and the
comparison in `handle_flag` is the test that nothing remains of the whole frame. -/

namespace AtcHdlc

open Remainder

/-- x^16 + x^12 + x^5 + 1 without its leading term, the constant term in the highest bit. -/
def fcsGenerator : BitVec 16 := 0x8408

/-- An octet as it is on the line, the least significant bit first. -/
def octetBits (octet : UInt8) : List Bool := (List.range 8).map octet.toBitVec.getLsbD

def serial (octets : List UInt8) : List Bool := octets.flatMap octetBits

theorem octetBits_length (octet : UInt8) : (octetBits octet).length = 8 := by
  rw [octetBits, List.length_map, List.length_range]

theorem serial_length (octets : List UInt8) : (serial octets).length = 8 * octets.length := by
  induction octets with
  | nil => rfl
  | cons octet octets ih =>
      rw [serial, List.flatMap_cons, List.length_append, octetBits_length]
      change 8 + (serial octets).length = _
      rw [ih, List.length_cons]
      omega

theorem getD_octetBits (octet : UInt8) (i : Nat) : (octetBits octet).getD i false = octet.toBitVec.getLsbD i := by
  by_cases hi : i < 8
  · rw [List.getD_eq_getElem _ _ (by rw [octetBits_length]; exact hi)]
    simp only [octetBits, List.getElem_map, List.getElem_range]
  · rw [List.getD_eq_default _ _ (by rw [octetBits_length]; omega)]
    exact (BitVec.getLsbD_of_ge _ _ (by omega)).symm

theorem octetBits_injective {a b : UInt8} (h : octetBits a = octetBits b) : a = b := by
  apply UInt8.toBitVec_inj.mp
  apply BitVec.eq_of_getLsbD_eq
  intro i _
  rw [← getD_octetBits, ← getD_octetBits, h]

theorem serial_injective {x y : List UInt8} (hlen : x.length = y.length) (h : serial x = serial y) : x = y := by
  induction x generalizing y with
  | nil => exact (List.length_eq_zero_iff.mp hlen.symm).symm
  | cons a x ih =>
      cases y with
      | nil => exact absurd hlen (by simp)
      | cons b y =>
          obtain ⟨hhead, htail⟩ := List.append_inj h (by rw [octetBits_length, octetBits_length])
          rw [octetBits_injective hhead, ih (Nat.succ_inj.mp hlen) htail]

/-- Each entry of the table is what eight bit steps make of its index. -/
theorem fcstab_eq : ∀ i < 256, (fcstab.getD i 0).toBitVec =
    run fcsGenerator (BitVec.ofNat 16 i) (List.replicate 8 false) := by
  decide +kernel

/-- Eight steps: what the low octet leaves, and the high octet moved down. -/
theorem run_eight (c : BitVec 16) :
    run fcsGenerator c (List.replicate 8 false) =
      c >>> 8 ^^^ run fcsGenerator (c &&& 0xFF#16) (List.replicate 8 false) := by
  have hsplit : c = (c &&& ~~~0xFF#16) ^^^ (c &&& 0xFF#16) := by
    apply BitVec.eq_of_getLsbD_eq
    intro i hi
    simp only [BitVec.getLsbD_xor, BitVec.getLsbD_and, BitVec.getLsbD_not, hi, decide_true]
    cases c.getLsbD i <;> cases (0xFF#16).getLsbD i <;> rfl
  have hmask : ∀ i < 16, (0xFF#16).getLsbD i = decide (i < 8) := by decide
  have hlow : ∀ i < 8, (c &&& ~~~0xFF#16).getLsbD i = false := by
    intro i hi
    rw [BitVec.getLsbD_and, BitVec.getLsbD_not, hmask i (by omega)]
    simp [hi]
  have hhigh : (c &&& ~~~0xFF#16) >>> 8 = c >>> 8 := by
    apply BitVec.eq_of_getLsbD_eq
    intro i hi
    rw [BitVec.getLsbD_ushiftRight, BitVec.getLsbD_ushiftRight, BitVec.getLsbD_and, BitVec.getLsbD_not]
    by_cases hlast : 8 + i < 16
    · rw [hmask _ hlast]
      simp [hlast]
    · rw [BitVec.getLsbD_of_ge c _ (by omega), Bool.false_and]
  calc run fcsGenerator c (List.replicate 8 false)
      = run fcsGenerator ((c &&& ~~~0xFF#16) ^^^ (c &&& 0xFF#16)) (List.replicate 8 false) := by rw [← hsplit]
    _ = (c &&& ~~~0xFF#16) >>> 8 ^^^ run fcsGenerator (c &&& 0xFF#16) (List.replicate 8 false) := by
        rw [run_replicate_xor, run_replicate_high hlow]
    _ = c >>> 8 ^^^ run fcsGenerator (c &&& 0xFF#16) (List.replicate 8 false) := by rw [hhigh]

theorem pack_octetBits (octet : UInt8) : pack 16 (octetBits octet) = octet.toBitVec.setWidth 16 := by
  apply BitVec.eq_of_getLsbD_eq
  intro i hi
  rw [getLsbD_pack, getD_octetBits, BitVec.getLsbD_setWidth]

/-- The update step takes the bits of an octet one by one. -/
theorem crcCcittUpdate_toBitVec (fcs : UInt16) (octet : UInt8) :
    (crcCcittUpdate fcs octet).toBitVec = run fcsGenerator fcs.toBitVec (octetBits octet) := by
  have hindex : ((fcs ^^^ octet.toUInt16) &&& 0xFF).toNat < 256 := by
    rw [UInt16.toNat_and]
    exact Nat.lt_succ_of_le Nat.and_le_right
  have hentry := fcstab_eq _ hindex
  have hvalue : BitVec.ofNat 16 ((fcs ^^^ octet.toUInt16) &&& 0xFF).toNat =
      (fcs.toBitVec ^^^ octet.toBitVec.setWidth 16) &&& 0xFF#16 := by
    rw [← UInt16.toNat_toBitVec, BitVec.ofNat_toNat, BitVec.setWidth_eq]
    rfl
  have hdown : (octet.toBitVec.setWidth 16) >>> 8 = 0#16 := by
    apply BitVec.eq_of_getLsbD_eq
    intro i hi
    rw [BitVec.getLsbD_ushiftRight, BitVec.getLsbD_setWidth, BitVec.getLsbD_of_ge octet.toBitVec _ (by omega),
      Bool.and_false, BitVec.getLsbD_zero]
  rw [run_pack _ (by rw [octetBits_length]; decide), octetBits_length, pack_octetBits, run_eight,
    BitVec.ushiftRight_xor_distrib, hdown, BitVec.xor_zero, ← hvalue, ← hentry]
  rfl

theorem crcFold_toBitVec (fcs : UInt16) (octets : List UInt8) :
    (crcFold crcOpsDefault fcs octets).toBitVec = run fcsGenerator fcs.toBitVec (serial octets) := by
  induction octets generalizing fcs with
  | nil => rfl
  | cons octet octets ih =>
      have hfold : crcFold crcOpsDefault fcs (octet :: octets) =
          crcFold crcOpsDefault (crcCcittUpdate fcs octet) octets := rfl
      have hserial : serial (octet :: octets) = octetBits octet ++ serial octets := rfl
      rw [hfold, ih, crcCcittUpdate_toBitVec, hserial, run_append]

/-- One place down the shift register; 0x1021, reflected, joins where a one is shifted out. -/
def bitwiseStep (crc : UInt16) : UInt16 := if crc &&& 1 = 1 then (crc >>> 1) ^^^ 0x8408 else crc >>> 1

/-- An octet joins the low end, and eight steps follow. -/
def bitwiseUpdate (crc : UInt16) (octet : UInt8) : UInt16 :=
  (List.range 8).foldl (fun crc _ => bitwiseStep crc) (crc ^^^ octet.toUInt16)

/-- The CRC without a table. -/
def bitwiseCrc (crc : UInt16) (octets : List UInt8) : UInt16 := octets.foldl bitwiseUpdate crc

example : fcsGenerator = (0x1021#16).reverse := by decide

theorem bitwiseStep_toBitVec (crc : UInt16) : (bitwiseStep crc).toBitVec = shift fcsGenerator crc.toBitVec := by
  have hlow : crc &&& 1 = 1 ↔ crc.toBitVec.getLsbD 0 = true := by
    have hbit : (crc &&& 1).toBitVec = BitVec.setWidth 16 (BitVec.ofBool (crc.toBitVec.getLsbD 0)) :=
      BitVec.and_one_eq_setWidth_ofBool_getLsbD
    rw [← UInt16.toBitVec_inj, hbit]
    cases crc.toBitVec.getLsbD 0 <;> decide
  rw [bitwiseStep, shift, ← if_congr hlow rfl rfl]
  split_ifs
  · rfl
  · rfl

theorem bitwiseUpdate_toBitVec (crc : UInt16) (octet : UInt8) :
    (bitwiseUpdate crc octet).toBitVec = run fcsGenerator crc.toBitVec (octetBits octet) := by
  have hsteps (l : List Nat) (crc : UInt16) : (l.foldl (fun crc _ => bitwiseStep crc) crc).toBitVec =
      run fcsGenerator crc.toBitVec (List.replicate l.length false) := by
    induction l generalizing crc with
    | nil => rfl
    | cons i l ih =>
        rw [List.foldl_cons, ih, bitwiseStep_toBitVec, List.length_cons, List.replicate_succ, run_cons, step_false]
  have hjoin : (crc ^^^ octet.toUInt16).toBitVec = crc.toBitVec ^^^ octet.toBitVec.setWidth 16 := rfl
  rw [run_pack _ (by rw [octetBits_length]; decide), octetBits_length, pack_octetBits, bitwiseUpdate, hsteps,
    List.length_range, hjoin]

/-- The table makes of an octet what eight steps of the register make of it. -/
theorem crcCcittUpdate_eq (crc : UInt16) (octet : UInt8) : crcCcittUpdate crc octet = bitwiseUpdate crc octet := by
  apply UInt16.toBitVec_inj.mp
  rw [crcCcittUpdate_toBitVec, bitwiseUpdate_toBitVec]

theorem softCompute_eq (crc : UInt16) (octets : List UInt8) : softCompute crc octets = bitwiseCrc crc octets := by
  induction octets generalizing crc with
  | nil => rfl
  | cons octet octets ih =>
      have hcons : softCompute crc (octet :: octets) = softCompute (crcCcittUpdate crc octet) octets := rfl
      rw [hcons, ih, crcCcittUpdate_eq]
      rfl

theorem softCompute_append (crc : UInt16) (left right : List UInt8) :
    softCompute crc (left ++ right) = softCompute (softCompute crc left) right :=
  List.foldl_append

/-- The table-driven driver is the bitwise CRC from every start value, and may be called for a frame as a
whole or for one octet after the other, as `emit` and `rx_byte` do. -/
theorem softCompute_bitwise {st : Station} (hcrc : st.crc = crcOpsDefault) :
    (∀ crc octets, softCompute crc octets = bitwiseCrc crc octets) ∧
      (∀ crc left right, softCompute crc (left ++ right) = softCompute (softCompute crc left) right) ∧
      (∀ s octets, (emitAll st s octets).txCrc = softCompute s.txCrc octets) ∧
      (∀ s address ctrl info, (frameSend st s address ctrl (.octets info)).txCrc =
        softCompute fcsInitValue (address :: ctrl :: info)) ∧
      ∀ s bytes, flag ∉ bytes → (rxBytes st (rxByte st s flag) bytes).rxState ≠ .hunt →
        (rxBytes st (rxByte st s flag) bytes).rxCrc =
          softCompute fcsInitValue ((octetCode.unstuff bytes).take ((octetCode.unstuff bytes).length - 2)) := by
  refine ⟨softCompute_eq, softCompute_append, fun s octets => ?_, fun s address ctrl info => ?_,
    fun s bytes hbytes hstate => ?_⟩
  · rw [emitAll_eq, hcrc]
    exact crcFold_default _ _
  · rw [frameSend_octets, Ctx.put, hcrc]
    exact crcFold_default _ _
  · have hread : Reading st (rxBytes st (rxByte st s flag) bytes) bytes :=
      rxBytes_reading (rxByte_flag_reading s) hbytes
    cases hread with
    | hunting hhunt hdrop => exact absurd hhunt hstate
    | storing hread hesc hstored =>
        have hrx := hstored.crc
        rw [hcrc] at hrx
        exact hrx.trans (crcFold_default _ _)

/-- A UI frame of one octet in the buffer, up to its closing flag. -/
theorem softCompute_bitwise_mock :
    let st := mockStation 0x01 1 (by decide) (by decide)
    (rxBytes st (rxByte st (initCtx st zeroMemory) flag) [0x01, 0x03, 0x41, 0x2F, 0x1A]).rxCrc =
      softCompute fcsInitValue [0x01, 0x03, 0x41] :=
  (@softCompute_bitwise (mockStation 0x01 1 (by decide) (by decide)) rfl).2.2.2.2 _ _ (by decide)
    (by decide +kernel)

/-! ### The check -/

/-- The test of `handle_flag` on the octets between two flags, without their escapes. -/
def FcsAccepts (crc : CrcOps) (seg : List UInt8) : Prop :=
  crcFold crc fcsInitValue (seg.take (seg.length - 2)) =
    rxFcs (seg.getD (seg.length - 2) 0) (seg.getD (seg.length - 1) 0)

instance (crc : CrcOps) (seg : List UInt8) : Decidable (FcsAccepts crc seg) :=
  inferInstanceAs (Decidable (_ = _))

theorem pack_fcs (low high : UInt8) :
    pack 16 (octetBits low ++ octetBits high) = (rxFcs low high).toBitVec := by
  have hvalue : (rxFcs low high).toBitVec =
      low.toBitVec.setWidth 16 ||| (high.toBitVec.setWidth 16) <<< 8 := rfl
  rw [hvalue]
  apply BitVec.eq_of_getLsbD_eq
  intro i hi
  rw [getLsbD_pack, BitVec.getLsbD_or, BitVec.getLsbD_shiftLeft, BitVec.getLsbD_setWidth,
    BitVec.getLsbD_setWidth]
  by_cases hlow : i < 8
  · rw [List.getD_append _ _ _ _ (by rw [octetBits_length]; exact hlow), getD_octetBits]
    simp [hlow]
  · have hhigh : i - 8 < 16 := by omega
    rw [List.getD_append_right _ _ _ _ (by rw [octetBits_length]; omega), octetBits_length, getD_octetBits,
      BitVec.getLsbD_of_ge low.toBitVec _ (by omega)]
    simp [hlow, hi, hhigh]

/-- Nothing remains of a frame that passes the check, its check sequence included. -/
theorem fcsAccepts_iff {seg : List UInt8} (hlen : 2 ≤ seg.length) :
    FcsAccepts crcOpsDefault seg ↔ run fcsGenerator fcsInitValue.toBitVec (serial seg) = 0#16 := by
  have hsplit : seg = seg.take (seg.length - 2) ++
      [seg.getD (seg.length - 2) 0, seg.getD (seg.length - 1) 0] := by
    have hdrop : seg.drop (seg.length - 2) = [seg.getD (seg.length - 2) 0, seg.getD (seg.length - 1) 0] := by
      rw [List.drop_eq_getElem_cons (by omega), List.drop_eq_getElem_cons (by omega),
        List.drop_eq_nil_of_le (by omega), List.getD_eq_getElem _ _ (by omega),
        List.getD_eq_getElem _ _ (by omega)]
      simp only [show seg.length - 2 + 1 = seg.length - 1 by omega]
    rw [← hdrop, List.take_append_drop]
  rw [FcsAccepts]
  generalize seg.take (seg.length - 2) = body at *
  generalize seg.getD (seg.length - 2) 0 = low at *
  generalize seg.getD (seg.length - 1) 0 = high at *
  have hserial : serial seg = serial body ++ (octetBits low ++ octetBits high) := by
    rw [hsplit, serial, List.flatMap_append]
    simp [serial]
  have hsixteen : (octetBits low ++ octetBits high).length ≤ 16 := by
    rw [List.length_append, octetBits_length, octetBits_length]
  rw [hserial, run_append, ← crcFold_toBitVec, run_pack _ hsixteen, pack_fcs]
  constructor
  · intro h
    rw [h, BitVec.xor_self, run_zero_replicate]
  · intro h
    have hzero := run_replicate_eq_zero (by decide) h
    exact UInt16.toBitVec_inj.mp (BitVec.xor_eq_zero_iff.mp hzero)

section Burst

variable {st : Station}

/-- The octets of a completed frame passed the check. -/
theorem completed_accepts {s : Ctx} {seg : List UInt8} (h : Reading st s seg) {f : Received}
    (hf : completed s flag = some f) : FcsAccepts st.crc (octetCode.unstuff seg) := by
  unfold completed at hf
  extract_lets dlen at hf
  by_cases hskip : flag ≠ flag ∨ s.rxState = .hunt ∨ s.rxIndex < minFrameLen ∨
      s.rxCrc ≠ rxFcs (s.rxBuffer dlen) (s.rxBuffer (dlen + 1))
  · rw [if_pos hskip] at hf
    exact absurd hf (by simp)
  simp only [not_or, ne_eq, not_not] at hskip
  obtain ⟨-, hstate, hmin, hfcs⟩ := hskip
  cases h with
  | hunting hhunt hdrop => exact absurd hhunt hstate
  | storing hread hesc hstored =>
      have hkeeps := (Keeps.iff_of_stored hstored).mpr ⟨Nat.le_of_not_lt hmin, hfcs⟩
      exact hkeeps.fcs

/-- Damage within 16 consecutive bits: the check rejects what it makes of an accepted frame, and no receiver
dispatches that, nor does anything else with it than to move its parser. -/
theorem burst_rejected (hcrc : st.crc = crcOpsDefault) {x y : List UInt8} (hx : minFrameLen ≤ x.length)
    (haccepts : FcsAccepts st.crc x) (hlen : y.length = x.length) (hne : y ≠ x)
    (hburst : Confined 16 (differ (serial x) (serial y))) :
    ¬FcsAccepts st.crc y ∧ ∀ s : Ctx,
      completed (rxBytes st (rxByte st s flag) (octetCode.stuff y)) flag = none ∧
        rxBytes st (rxByte st s flag) (octetCode.stuff y ++ [flag]) =
          (rxByte st s flag).withParser (rxBytes st (rxByte st s flag) (octetCode.stuff y ++ [flag])) := by
  have hserial : (serial x).length = (serial y).length := by
    rw [serial_length, serial_length, hlen]
  have hsome : true ∈ differ (serial x) (serial y) := by
    by_contra hnone
    exact hne (serial_injective hlen.symm (eq_of_differ hserial hnone)).symm
  have hremains := run_confined (g := fcsGenerator) (by decide) hburst hsome
  have htwo : 2 ≤ x.length := Nat.le_trans (by decide) hx
  have hrejected : ¬FcsAccepts st.crc y := by
    intro hy
    rw [hcrc] at haccepts hy
    have hzero := (fcsAccepts_iff htwo).mp haccepts
    have hzero' := (fcsAccepts_iff (by omega)).mp hy
    have hsum := run_differ (g := fcsGenerator) fcsInitValue.toBitVec fcsInitValue.toBitVec hserial
    rw [BitVec.xor_self, hzero, hzero', BitVec.xor_self] at hsum
    exact hremains hsum
  refine ⟨hrejected, fun s => ?_⟩
  have hread : Reading st (rxBytes st (rxByte st s flag) (octetCode.stuff y)) (octetCode.stuff y) :=
    rxBytes_reading (rxByte_flag_reading s) (octetCode.flag_not_mem_stuff y)
  have hnone : completed (rxBytes st (rxByte st s flag) (octetCode.stuff y)) flag = none := by
    cases hcompleted : completed (rxBytes st (rxByte st s flag) (octetCode.stuff y)) flag with
    | none => rfl
    | some f =>
        have hy := completed_accepts hread hcompleted
        rw [octetCode.unstuff_stuff] at hy
        exact absurd hy hrejected
  refine ⟨hnone, ?_⟩
  have hclosing := rxByte_completed st (rxBytes st (rxByte st s flag) (octetCode.stuff y)) flag
  rw [hnone] at hclosing
  have hinside := @rxBytes_withParser st (rxByte st s flag) _ (octetCode.flag_not_mem_stuff y)
  have hparser := congrArg (fun u : Ctx => u.withParser
    (rxByte st (rxBytes st (rxByte st s flag) (octetCode.stuff y)) flag)) hinside
  rw [rxBytes_snoc]
  exact hclosing.trans hparser

/-- A UI frame, damaged from the last bits of its control octet to the first of its check sequence. -/
theorem burst_rejected_mock :
    let st := mockStation 0x01 1 (by decide) (by decide)
    let y : List UInt8 := [0x01, 0xC3, 0xBE, 0x2F, 0x1A]
    ¬FcsAccepts st.crc y ∧ ∀ s : Ctx,
      completed (rxBytes st (rxByte st s flag) (octetCode.stuff y)) flag = none ∧
        rxBytes st (rxByte st s flag) (octetCode.stuff y ++ [flag]) =
          (rxByte st s flag).withParser (rxBytes st (rxByte st s flag) (octetCode.stuff y ++ [flag])) :=
  burst_rejected (x := Frame.content crcOpsDefault ⟨0x01, 0x03, [0x41]⟩) rfl (by decide) (by decide +kernel)
    (by decide +kernel) (by decide +kernel) ⟨14, by decide +kernel⟩

end Burst

end AtcHdlc
