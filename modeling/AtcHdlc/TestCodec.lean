import AtcHdlc.Codec
import AtcHdlc.Window

/-! The frame codec of the unit tests, `common.c`. It shares the checksum table with the library and nothing else, and
its two halves are what the tests trust: `test_pack_frame` writes the octets that the library sends for a frame, or
nothing where they do not fit (`testPackFrame_eq`), and `test_unpack_frame` reads the first segment of a capture that
is long enough just as the library's parser does (`testUnpackFrame_deframes`). -/

namespace AtcHdlc

/-- `_RAW`; `none` is the `return 0`. -/
def packRaw (outCap : Nat) (out : List UInt8) (b : UInt8) : Option (List UInt8) :=
  if out.length ≥ outCap then none else some (out ++ [b])

/-- `_ESC`. -/
def packEsc (outCap : Nat) (out : List UInt8) (b : UInt8) : Option (List UInt8) :=
  if b = 0x7E ∨ b = 0x7D then do
    let out ← packRaw outCap out 0x7D
    packRaw outCap out (b ^^^ 0x20)
  else packRaw outCap out b

/-- `_ESCC`, with the running checksum. -/
def packEscc (outCap : Nat) (acc : UInt16 × List UInt8) (b : UInt8) : Option (UInt16 × List UInt8) := do
  let out ← packEsc outCap acc.2 b
  return (crcCcittUpdate acc.1 b, out)

/-- `test_pack_frame`: the octets in `out`, or `none` where it returns 0. -/
def testPackFrame (addr ctrl : UInt8) (info : Payload) (outCap : Nat) : Option (List UInt8) := do
  let out ← packRaw outCap [] 0x7E
  let acc ← packEscc outCap (fcsInitValue, out) addr
  let acc ← packEscc outCap acc ctrl
  let acc ← (if info.isNull then [] else info.read).foldlM (packEscc outCap) acc
  let out ← packEsc outCap acc.2 (acc.1 &&& 0xFF).toUInt8
  let out ← packEsc outCap out (acc.1 >>> 8).toUInt8
  packRaw outCap out 0x7E

/-- Octets that fit. -/
def within (outCap : Nat) (out : List UInt8) : Option (List UInt8) :=
  if out.length ≤ outCap then some out else none

section Pack

variable {outCap : Nat}

/-- What adds `l` to everything that fits with it adds it to what may not fit, too. -/
theorem within_bind {out l : List UInt8} {f : List UInt8 → Option (List UInt8)}
    (h : out.length ≤ outCap → f out = within outCap (out ++ l)) :
    (within outCap out).bind f = within outCap (out ++ l) := by
  unfold within at h ⊢
  by_cases hout : out.length ≤ outCap
  · rw [if_pos hout, Option.bind_some, h hout]
  · have hlong : ¬(out ++ l).length ≤ outCap := by
      rw [List.length_append]
      omega
    rw [if_neg hout, if_neg hlong, Option.bind_none]

theorem within_packRaw (out : List UInt8) (b : UInt8) :
    (within outCap out).bind (packRaw outCap · b) = within outCap (out ++ [b]) := by
  refine within_bind fun hout => ?_
  unfold packRaw within
  rw [List.length_append, List.length_singleton]
  split_ifs with hfull hfits hfits
  · omega
  · rfl
  · rfl
  · omega

theorem within_packEsc (out : List UInt8) (b : UInt8) :
    (within outCap out).bind (packEsc outCap · b) = within outCap (out ++ octetCode.stuffOne b) := by
  by_cases hb : b = octetCode.flag ∨ b = octetCode.esc
  · have hstuff : octetCode.stuffOne b = [0x7D] ++ [b ^^^ 0x20] := if_pos hb
    have hesc (out : List UInt8) :
        packEsc outCap out b = (packRaw outCap out 0x7D).bind (packRaw outCap · (b ^^^ 0x20)) := if_pos hb
    simp only [hesc]
    rw [hstuff, ← List.append_assoc, ← within_packRaw, ← within_packRaw, Option.bind_assoc]
  · have hstuff : octetCode.stuffOne b = [b] := if_neg hb
    have hesc (out : List UInt8) : packEsc outCap out b = packRaw outCap out b := if_neg hb
    simp only [hesc]
    rw [hstuff, within_packRaw]

/-- A checksum and the octets that it goes with. -/
def withCrc (outCap : Nat) (crc : UInt16) (out : List UInt8) : Option (UInt16 × List UInt8) :=
  (within outCap out).map (crc, ·)

theorem withCrc_bind {α : Type} (crc : UInt16) (out : List UInt8) (f : UInt16 × List UInt8 → Option α) :
    (withCrc outCap crc out).bind f = (within outCap out).bind fun out => f (crc, out) := by
  rw [withCrc, Option.bind_map]
  rfl

theorem withCrc_packEscc (crc : UInt16) (out : List UInt8) (b : UInt8) :
    (withCrc outCap crc out).bind (packEscc outCap · b) =
      withCrc outCap (crcCcittUpdate crc b) (out ++ octetCode.stuffOne b) := by
  have hstep (out : List UInt8) :
      packEscc outCap (crc, out) b = (packEsc outCap out b).map (crcCcittUpdate crc b, ·) :=
    (Option.map_eq_bind).symm
  rw [withCrc_bind, withCrc, ← within_packEsc, Option.map_bind]
  exact congrArg _ (funext hstep)

/-- The octets of a loop over `_ESCC`. -/
theorem withCrc_foldlM (crc : UInt16) (out l : List UInt8) :
    (withCrc outCap crc out).bind (l.foldlM (packEscc outCap)) =
      withCrc outCap (softCompute crc l) (out ++ octetCode.stuff l) := by
  induction l generalizing crc out with
  | nil =>
      rw [octetCode.stuff_nil, List.append_nil]
      exact Option.bind_fun_some _
  | cons b l ih =>
      have hstep : (fun acc => (b :: l).foldlM (packEscc outCap) acc) =
          fun acc => (packEscc outCap acc b).bind (l.foldlM (packEscc outCap)) :=
        funext fun _ => List.foldlM_cons
      calc (withCrc outCap crc out).bind ((b :: l).foldlM (packEscc outCap))
          = ((withCrc outCap crc out).bind (packEscc outCap · b)).bind (l.foldlM (packEscc outCap)) := by
            rw [Option.bind_assoc]
            exact congrArg _ hstep
        _ = withCrc outCap (softCompute crc (b :: l)) (out ++ octetCode.stuff (b :: l)) := by
            rw [withCrc_packEscc, ih, octetCode.stuff_cons, List.append_assoc]
            rfl

/-- The checksum and the closing flag. -/
theorem withCrc_close (crc : UInt16) (out : List UInt8) :
    ((withCrc outCap crc out).bind fun acc => (packEsc outCap acc.2 (acc.1 &&& 0xFF).toUInt8).bind fun out =>
        (packEsc outCap out (acc.1 >>> 8).toUInt8).bind (packRaw outCap · flag)) =
      within outCap (out ++ (octetCode.stuff (fcsOctets crc) ++ [flag])) := by
  have hstuff : octetCode.stuff (fcsOctets crc) =
      octetCode.stuffOne (crc &&& 0xFF).toUInt8 ++ octetCode.stuffOne (crc >>> 8).toUInt8 := by
    simp [fcsOctets]
  rw [withCrc_bind, hstuff, List.append_assoc, ← List.append_assoc, ← List.append_assoc, ← within_packRaw,
    ← within_packEsc, ← within_packEsc, Option.bind_assoc, Option.bind_assoc]

/-- `test_pack_frame` writes what the library sends for the frame, and returns 0 just when that does not fit. -/
theorem testPackFrame_eq (addr ctrl : UInt8) (info : Payload) (outCap : Nat) :
    testPackFrame addr ctrl info outCap =
      let octets := Frame.octets crcOpsDefault ⟨addr, ctrl, if info.isNull then [] else info.read⟩
      if octets.length ≤ outCap then some octets else none := by
  generalize hdata : (if info.isNull then [] else info.read) = data
  let f : Frame := ⟨addr, ctrl, data⟩
  have hopen : packRaw outCap [] flag = within outCap [flag] :=
    within_packRaw [] flag
  have hchain : testPackFrame addr ctrl info outCap =
      ((withCrc outCap fcsInitValue [flag]).bind (f.body.foldlM (packEscc outCap))).bind fun acc =>
        (packEsc outCap acc.2 (acc.1 &&& 0xFF).toUInt8).bind fun out =>
          (packEsc outCap out (acc.1 >>> 8).toUInt8).bind (packRaw outCap · flag) := by
    have hbody (acc : UInt16 × List UInt8) : f.body.foldlM (packEscc outCap) acc =
        (packEscc outCap acc addr).bind fun acc => (packEscc outCap acc ctrl).bind
          (data.foldlM (packEscc outCap)) := rfl
    have hfold : testPackFrame addr ctrl info outCap = (packRaw outCap [] flag).bind fun out =>
        (packEscc outCap (fcsInitValue, out) addr).bind fun acc => (packEscc outCap acc ctrl).bind fun acc =>
          (data.foldlM (packEscc outCap) acc).bind fun acc => (packEsc outCap acc.2 (acc.1 &&& 0xFF).toUInt8).bind
            fun out => (packEsc outCap out (acc.1 >>> 8).toUInt8).bind (packRaw outCap · flag) := by
      rw [← hdata]
      rfl
    rw [hfold, hopen, withCrc_bind]
    simp only [hbody, Option.bind_assoc]
  have hcrc : softCompute fcsInitValue f.body = f.fcs crcOpsDefault := rfl
  have hoctets : [flag] ++ octetCode.stuff f.body ++ (octetCode.stuff (fcsOctets (f.fcs crcOpsDefault)) ++ [flag]) =
      f.octets crcOpsDefault := by
    simp [Frame.octets, Frame.content]
  rw [hchain, withCrc_foldlM, withCrc_close, hcrc, hoctets]
  rfl

end Pack

/-! ### The decoder -/

/-- `test_frame_t` with `valid` set; `info` is what `info` and `info_len` delimit in `flat`. -/
structure TestFrame where
  address : UInt8
  control : UInt8
  info : List UInt8
  deriving DecidableEq, Repr

/-- The variables of the loop of `test_unpack_frame`: `flat` up to `wi`, `inside` and `esc`. -/
structure Unpacking where
  flat : List UInt8
  inside : Bool
  esc : Bool

/-- The loop of `test_unpack_frame`: what it leaves in `flat`, or `none` where that is full. -/
def unpackLoop (flatCap : Nat) : List UInt8 → Unpacking → Option (List UInt8)
  | [], r => some r.flat
  | b :: buf, r =>
      if b = 0x7E then
        if r.inside ∧ r.flat.length ≥ 4 then some r.flat
        else unpackLoop flatCap buf { r with inside := true, flat := [] }
      else if ¬r.inside then unpackLoop flatCap buf r
      else if b = 0x7D then unpackLoop flatCap buf { r with esc := true }
      else if r.flat.length ≥ flatCap then none
      else unpackLoop flatCap buf { r with flat := r.flat ++ [if r.esc then b ^^^ 0x20 else b], esc := false }

/-- `test_unpack_frame`. -/
def testUnpackFrame (buf : Payload) (flatCap : Nat) : Option TestFrame :=
  if buf.isNull ∨ buf.len < 4 then none
  else
    match unpackLoop flatCap buf.read ⟨[], false, false⟩ with
    | none => none
    | some flat =>
        if flat.length < 4 then none
        else
          let dataLen := flat.length - 2
          if softCompute fcsInitValue (flat.take dataLen) ≠ rxFcs (flat.getD dataLen 0) (flat.getD (dataLen + 1) 0) then
            none
          else some ⟨flat.getD 0 0, flat.getD 1 0, (flat.drop 2).take ((dataLen - 2) % 2 ^ 16)⟩

section Unpack

variable {flatCap : Nat}

/-! One octet within a segment. -/

theorem unpackLoop_flag (buf flat : List UInt8) (e : Bool) :
    unpackLoop flatCap (flag :: buf) ⟨flat, true, e⟩ =
      if 4 ≤ flat.length then some flat else unpackLoop flatCap buf ⟨[], true, e⟩ := by
  simp [unpackLoop, flag]

theorem unpackLoop_esc (buf flat : List UInt8) (e : Bool) :
    unpackLoop flatCap (esc :: buf) ⟨flat, true, e⟩ = unpackLoop flatCap buf ⟨flat, true, true⟩ := by
  simp [unpackLoop, esc]

theorem unpackLoop_octet {b : UInt8} (hflag : b ≠ flag) (hesc : b ≠ esc) (buf flat : List UInt8) (e : Bool) :
    unpackLoop flatCap (b :: buf) ⟨flat, true, e⟩ =
      if flatCap ≤ flat.length then none
      else unpackLoop flatCap buf ⟨flat ++ [if e then octetCode.mask b else b], true, false⟩ := by
  have hflag' : b ≠ 0x7E := hflag
  have hesc' : b ≠ 0x7D := hesc
  simp [unpackLoop, hflag', hesc', octetCode, xorMask]

/-- Before the first flag. -/
theorem unpackLoop_outside {b : UInt8} (hflag : b ≠ flag) (buf : List UInt8) :
    unpackLoop flatCap (b :: buf) ⟨[], false, false⟩ = unpackLoop flatCap buf ⟨[], false, false⟩ := by
  have hflag' : b ≠ 0x7E := hflag
  simp [unpackLoop, hflag']

/-- Segments that the decoder passes over without a trace. -/
def PassedOver (seg : List UInt8) : Prop := (octetCode.unstuff seg).length < 4 ∧ octetCode.pending seg = false

/-- From within a segment on: the segments that are too short are passed over, and the first one that is not fills
`flat`. -/
theorem unpackLoop_cutFrom {pre buf seg : List UInt8} {shorts more : List (List UInt8)}
    (hcut : octetCode.cutFrom pre buf = shorts ++ seg :: more) (hshorts : ∀ u ∈ shorts, PassedOver u)
    (hlong : 4 ≤ (octetCode.unstuff seg).length) (hcap : 4 ≤ flatCap)
    (hroom : (octetCode.unstuff pre).length ≤ flatCap) :
    unpackLoop flatCap buf ⟨octetCode.unstuff pre, true, octetCode.pending pre⟩ =
      within flatCap (octetCode.unstuff seg) := by
  induction buf generalizing pre shorts with
  | nil => exact absurd hcut (by simp)
  | cons b buf ih =>
      by_cases hflag : b = octetCode.flag
      · subst hflag
        rw [octetCode.cutFrom_flag] at hcut
        rw [octetCode_flag, unpackLoop_flag]
        cases shorts with
        | nil =>
            obtain ⟨rfl, -⟩ := List.cons.inj hcut
            rw [within, if_pos hroom, if_pos hlong]
        | cons u shorts =>
            obtain ⟨rfl, hrest⟩ := List.cons.inj hcut
            obtain ⟨hshort, hpending⟩ := hshorts pre List.mem_cons_self
            rw [if_neg (Nat.not_le.mpr hshort), hpending]
            exact ih hrest (fun v hv => hshorts v (List.mem_cons_of_mem _ hv)) (Nat.zero_le _)
      · rw [octetCode.cutFrom_cons pre hflag] at hcut
        have hnext := ih hcut hshorts
        by_cases hesc : b = octetCode.esc
        · subst hesc
          rw [octetCode.unstuff_snoc_esc, octetCode.pending_snoc_esc] at hnext
          rw [octetCode_esc, unpackLoop_esc]
          exact hnext hroom
        · rw [octetCode.unstuff_snoc _ hesc, octetCode.pending_snoc _ hesc, List.length_append] at hnext
          rw [unpackLoop_octet hflag hesc]
          by_cases hfull : flatCap ≤ (octetCode.unstuff pre).length
          · -- The segment that `b` belongs to is too long to be passed over, so it is `seg`, which does not fit.
            have hgrown : flatCap < (octetCode.unstuff (pre ++ [b])).length := by
              rw [octetCode.unstuff_snoc _ hesc, List.length_append, List.length_singleton]
              omega
            rw [if_pos hfull]
            cases shorts with
            | nil =>
                obtain ⟨q, rfl⟩ := octetCode.cutFrom_extends hcut
                have hmore := octetCode.length_unstuff_append (pre ++ [b]) q
                exact (if_neg (by omega)).symm
            | cons u shorts =>
                obtain ⟨q, rfl⟩ := octetCode.cutFrom_extends hcut
                have hmore := octetCode.length_unstuff_append (pre ++ [b]) q
                have hshort := (hshorts _ List.mem_cons_self).1
                omega
          · rw [if_neg hfull]
            exact hnext (by simp only [List.length_singleton]; omega)

/-- The whole of a capture. -/
theorem unpackLoop_cut {buf seg : List UInt8} {shorts more : List (List UInt8)}
    (hcut : octetCode.cut buf = shorts ++ seg :: more) (hshorts : ∀ u ∈ shorts, PassedOver u)
    (hlong : 4 ≤ (octetCode.unstuff seg).length) (hcap : 4 ≤ flatCap) :
    unpackLoop flatCap buf ⟨[], false, false⟩ = within flatCap (octetCode.unstuff seg) := by
  induction buf with
  | nil => exact absurd hcut (by simp)
  | cons b buf ih =>
      by_cases hflag : b = octetCode.flag
      · subst hflag
        rw [octetCode.cut_flag] at hcut
        exact unpackLoop_cutFrom hcut hshorts hlong hcap (Nat.zero_le _)
      · rw [octetCode.cut_cons hflag] at hcut
        rw [unpackLoop_outside hflag]
        exact ih hcut

/-- Every octet of `flat` was an octet of the capture. -/
theorem length_unpackLoop {buf flat : List UInt8} {r : Unpacking} (h : unpackLoop flatCap buf r = some flat) :
    flat.length ≤ r.flat.length + buf.length := by
  induction buf generalizing r with
  | nil =>
      obtain rfl := Option.some.inj h
      exact Nat.le_refl _
  | cons b buf ih =>
      rw [List.length_cons]
      unfold unpackLoop at h
      split_ifs at h
      · obtain rfl := Option.some.inj h
        omega
      · have hrest : flat.length ≤ 0 + buf.length := ih h
        omega
      · exact Nat.le_trans (ih h) (Nat.add_le_add_left (Nat.le_succ _) _)
      · have hrest := ih h
        rw [List.length_append, List.length_singleton] at hrest
        omega
      · have hrest := ih h
        rw [List.length_append, List.length_singleton] at hrest
        omega
      · exact Nat.le_trans (ih h) (Nat.add_le_add_left (Nat.le_succ _) _)

/-- What `test_unpack_frame` tells of a frame. -/
def Frame.asTest (f : Frame) : TestFrame := ⟨f.address, f.ctrl, heardInfo f.info⟩

/-- The last two octets are the checksum of the others. -/
def Checks (u : List UInt8) : Prop :=
  softCompute fcsInitValue (u.take (u.length - 2)) = rxFcs (u.getD (u.length - 2) 0) (u.getD (u.length - 1) 0)

instance (u : List UInt8) : Decidable (Checks u) := inferInstanceAs (Decidable (_ = _))

/-- Of a capture `test_unpack_frame` reads the first segment that is long enough, if it fits and its check sequence
matches. -/
theorem testUnpackFrame_eq {buf seg : List UInt8} {shorts more : List (List UInt8)}
    (hcut : octetCode.cut buf = shorts ++ seg :: more) (hshorts : ∀ u ∈ shorts, PassedOver u)
    (hlong : 4 ≤ (octetCode.unstuff seg).length) (hcap : 4 ≤ flatCap) :
    testUnpackFrame (.octets buf) flatCap =
      if (octetCode.unstuff seg).length ≤ flatCap ∧ Checks (octetCode.unstuff seg) then
        some (segmentFrame (octetCode.unstuff seg)).asTest
      else none := by
  have hloop := unpackLoop_cut hcut hshorts hlong hcap
  generalize octetCode.unstuff seg = u at *
  by_cases hfits : u.length ≤ flatCap
  · rw [within, if_pos hfits] at hloop
    have hbuf : 4 ≤ buf.length := by
      have hlength := length_unpackLoop hloop
      rw [List.length_nil, Nat.zero_add] at hlength
      omega
    have hread : ¬((Payload.octets buf).isNull = true ∨ (Payload.octets buf).len < 4) := by
      simp only [Payload.isNull, Payload.len, Bool.false_eq_true, false_or]
      omega
    have hhigh : u.length - 2 + 1 = u.length - 1 := by omega
    have hinfo : heardInfo (segmentFrame u).info = (u.drop 2).take ((u.length - 2 - 2) % 2 ^ 16) := by
      have hlength : (segmentFrame u).info.length = u.length - 2 - 2 := by
        simp only [segmentFrame, List.length_take, List.length_drop]
        omega
      have hsmall : (u.length - 2 - 2) % 2 ^ 16 ≤ u.length - 4 :=
        Nat.le_trans (Nat.mod_le _ _) (by omega)
      rw [heardInfo, hlength, segmentFrame, List.take_take, Nat.min_eq_left hsmall]
    rw [testUnpackFrame, if_neg hread, Payload.read, hloop]
    simp only [if_neg (Nat.not_lt.mpr hlong), hhigh, ite_not]
    rw [Frame.asTest, hinfo]
    exact if_congr (and_iff_right hfits).symm rfl rfl
  · rw [within, if_neg hfits] at hloop
    have hfails : ¬(u.length ≤ flatCap ∧ Checks u) := fun h => hfits h.1
    rw [if_neg hfails, testUnpackFrame, Payload.read, hloop]
    exact ite_self none

/-- Nor does the library make anything of what is passed over. -/
theorem deframeSegments_passed {st : Station} {myAddress peerAddress : UInt8} {shorts : List (List UInt8)}
    (hshorts : ∀ u ∈ shorts, PassedOver u) (segments : List (List UInt8)) :
    deframeSegments st myAddress peerAddress (shorts ++ segments) =
      deframeSegments st myAddress peerAddress segments := by
  induction shorts with
  | nil => rfl
  | cons u shorts ih =>
      have hnot : ¬Keeps st myAddress peerAddress (octetCode.unstuff u) :=
        fun h => Nat.not_le.mpr (hshorts u List.mem_cons_self).1 h.minLength
      rw [List.cons_append, deframeSegments_cons, if_neg hnot, List.nil_append]
      exact ih fun v hv => hshorts v (List.mem_cons_of_mem _ hv)

/-- The library and the decoder of the tests read the same: of a capture whose short segments all end outside an
escape, what `test_unpack_frame` returns is what the receive parser makes of the first segment that is long enough,
where its filter lets the address pass and both buffers hold the segment. -/
theorem testUnpackFrame_deframes {st : Station} {myAddress peerAddress : UInt8} {buf seg : List UInt8}
    {shorts more : List (List UInt8)} (hcrc : st.crc = crcOpsDefault)
    (hcut : octetCode.cut buf = shorts ++ seg :: more) (hshorts : ∀ u ∈ shorts, PassedOver u)
    (hlong : 4 ≤ (octetCode.unstuff seg).length) (hflat : (octetCode.unstuff seg).length ≤ flatCap)
    (hroom : (octetCode.unstuff seg).length ≤ st.rxCapacity)
    (haddress : Accepted myAddress peerAddress ((octetCode.unstuff seg).getD 0 0)) :
    (deframe st myAddress peerAddress buf).map Frame.asTest =
      (testUnpackFrame (.octets buf) flatCap).toList ++
        (deframeSegments st myAddress peerAddress more).map Frame.asTest := by
  have hkeeps : Keeps st myAddress peerAddress (octetCode.unstuff seg) ↔
      (octetCode.unstuff seg).length ≤ flatCap ∧ Checks (octetCode.unstuff seg) := by
    constructor
    · intro h
      have hfcs := h.fcs
      rw [hcrc, crcFold_default] at hfcs
      exact ⟨hflat, hfcs⟩
    · rintro ⟨-, hchecks⟩
      refine ⟨hlong, hroom, haddress, ?_⟩
      rw [hcrc, crcFold_default]
      exact hchecks
  rw [testUnpackFrame_eq hcut hshorts hlong (Nat.le_trans hlong hflat), deframe, hcut,
    deframeSegments_passed hshorts, deframeSegments_cons, if_congr hkeeps rfl rfl, List.map_append]
  split_ifs
  · rfl
  · rfl

theorem checks_content (f : Frame) : Checks (f.content crcOpsDefault) := by
  have htwo : (f.content crcOpsDefault).length - 2 = f.body.length := by
    simp [Frame.content, fcsOctets]
  have hone : (f.content crcOpsDefault).length - 1 = f.body.length + 1 := by
    simp [Frame.content, fcsOctets]
  rw [Checks, htwo, hone, Frame.content, List.take_left, List.getD_append_right _ _ _ _ (Nat.le_refl _),
    List.getD_append_right _ _ _ _ (Nat.le_add_right _ 1), Nat.sub_self, Nat.add_sub_cancel_left]
  exact (rxFcs_fcsOctets (f.fcs crcOpsDefault)).symm

/-- What the one half of the codec packs the other half unpacks, whatever stands behind it in the capture. -/
theorem testUnpackFrame_testPackFrame {addr ctrl : UInt8} {info : Payload} {outCap : Nat} {out : List UInt8}
    (hdata : info.NonNull) (hout : testPackFrame addr ctrl info outCap = some out) (rest : List UInt8)
    (hflat : info.len + 4 ≤ flatCap) :
    testUnpackFrame (.octets (out ++ rest)) flatCap = some ⟨addr, ctrl, heardInfo info.read⟩ := by
  have hinfo : (if info.isNull then [] else info.read) = info.read := by
    cases info with
    | null len =>
        have hlen : len = 0 := hdata.resolve_left Bool.noConfusion
        rw [hlen]
        rfl
    | octets data => rfl
  let f : Frame := ⟨addr, ctrl, info.read⟩
  have hpacked := testPackFrame_eq addr ctrl info outCap
  rw [hout, hinfo] at hpacked
  have hoctets : out = f.octets crcOpsDefault := by
    by_cases hfits : (f.octets crcOpsDefault).length ≤ outCap
    · exact Option.some.inj (hpacked.trans (if_pos hfits))
    · exact absurd (hpacked.trans (if_neg hfits)) (Option.some_ne_none out)
  have hcut : octetCode.cut (out ++ rest) =
      [] ++ octetCode.stuff (f.content crcOpsDefault) :: octetCode.cutFrom [] rest := by
    have hclose := octetCode.cutFrom_append [] (octetCode.flag_not_mem_stuff (f.content crcOpsDefault)) rest
    rw [hoctets, Frame.octets, List.cons_append, List.append_assoc]
    exact (octetCode.cut_flag _).trans hclose
  have hlength : (f.content crcOpsDefault).length = info.len + 4 := by
    rw [Frame.content_length, hdata.length_read]
  have hread := @testUnpackFrame_eq flatCap _ _ _ _ hcut (fun _ h => (List.not_mem_nil h).elim)
  rw [octetCode.unstuff_stuff, segmentFrame_content, hlength] at hread
  exact (hread (Nat.le_add_left 4 _) (Nat.le_trans (Nat.le_add_left 4 _) hflat)).trans
    (if_pos ⟨hflat, checks_content f⟩)

/-- Two frames, after a flag too many. -/
def mockCapture : List UInt8 :=
  flag :: Frame.octets crcOpsDefault ⟨0x01, 0x10, [0x7E, 0x41]⟩ ++ Frame.octets crcOpsDefault ⟨0x02, 0x73, []⟩

theorem testUnpackFrame_deframes_mock :
    testUnpackFrame (.octets mockCapture) 16 = some ⟨0x01, 0x10, [0x7E, 0x41]⟩ ∧
      let st := mockStation 0x01 3 threeSlots_pos threeSlots_le
      (deframe st 0x01 0x02 mockCapture).map Frame.asTest =
        (testUnpackFrame (.octets mockCapture) 16).toList ++
          (deframeSegments st 0x01 0x02 [[], octetCode.stuff (Frame.content crcOpsDefault ⟨0x02, 0x73, []⟩)]).map
            Frame.asTest := by
  have hcut : octetCode.cut mockCapture = [[]] ++
      octetCode.stuff (Frame.content crcOpsDefault ⟨0x01, 0x10, [0x7E, 0x41]⟩) ::
        [[], octetCode.stuff (Frame.content crcOpsDefault ⟨0x02, 0x73, []⟩)] := by decide +kernel
  have hpassed : ∀ u ∈ [[]], PassedOver u := by
    intro u hu
    rw [List.mem_singleton.mp hu]
    exact ⟨by decide, rfl⟩
  refine ⟨by decide +kernel, testUnpackFrame_deframes rfl hcut hpassed ?_ ?_ ?_ ?_⟩
  all_goals decide +kernel

theorem testUnpackFrame_testPackFrame_mock :
    testPackFrame 0x02 0x10 (.octets [0x7D]) 16 = some [0x7E, 0x02, 0x10, 0x7D, 0x5D, 0x78, 0xB1, 0x7E] ∧
      testUnpackFrame (.octets ([0x7E, 0x02, 0x10, 0x7D, 0x5D, 0x78, 0xB1, 0x7E] ++ [0x7E])) 8 =
        some ⟨0x02, 0x10, heardInfo [0x7D]⟩ := by
  have hpacked : testPackFrame 0x02 0x10 (.octets [0x7D]) 16 =
      some [0x7E, 0x02, 0x10, 0x7D, 0x5D, 0x78, 0xB1, 0x7E] := by decide +kernel
  exact ⟨hpacked, testUnpackFrame_testPackFrame (Or.inl rfl) hpacked [0x7E] (by decide)⟩

end Unpack

end AtcHdlc
