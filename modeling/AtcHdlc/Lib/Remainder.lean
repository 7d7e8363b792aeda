import Mathlib.Data.List.Basic
import Mathlib.Data.List.GetD

/-! Remainders of bit sequences by a generator polynomial, as a register of `w` bits computes them from
the least significant end. The register is linear in exclusive or, and a generator with a constant term
lets no zero bit be lost; so the remainder of an error pattern that is confined to `w` consecutive bits is
never zero. -/

namespace Remainder

variable {w : Nat} (g : BitVec w)

/-- One place down. -/
def shift (c : BitVec w) : BitVec w := if c.getLsbD 0 then (c >>> 1) ^^^ g else c >>> 1

/-- A bit joins at the end that is shifted out. -/
def step (c : BitVec w) (b : Bool) : BitVec w := shift g (c ^^^ (BitVec.ofBool b).setWidth w)

def run (c : BitVec w) (bits : List Bool) : BitVec w := bits.foldl (step g) c

/-- The first `w` bits, the first of them least significant. -/
def pack (w : Nat) (bits : List Bool) : BitVec w := (BitVec.ofBoolListLE bits).setWidth w

/-- The bits in which two sequences differ. -/
def differ (x y : List Bool) : List Bool := List.zipWith xor x y

/-- All true bits are among `n` consecutive ones. -/
def Confined (n : Nat) (bits : List Bool) : Prop :=
  ∃ start, ∀ i < bits.length, bits.getD i false = true → start ≤ i ∧ i < start + n

variable {g}

@[simp] theorem run_nil (c : BitVec w) : run g c [] = c := rfl

theorem run_cons (c : BitVec w) (b : Bool) (bits : List Bool) :
    run g c (b :: bits) = run g (step g c b) bits := rfl

theorem run_append (c : BitVec w) (l r : List Bool) : run g c (l ++ r) = run g (run g c l) r :=
  List.foldl_append

theorem getLsbD_pack (bits : List Bool) (i : Nat) :
    (pack w bits).getLsbD i = (decide (i < w) && bits.getD i false) := by
  rw [pack, BitVec.getLsbD_setWidth, BitVec.getLsbD_ofBoolListLE]

theorem xor_cancel (a b p : BitVec w) : (a ^^^ p) ^^^ (b ^^^ p) = a ^^^ b := by
  calc (a ^^^ p) ^^^ (b ^^^ p) = (a ^^^ b) ^^^ (p ^^^ p) := by ac_rfl
    _ = a ^^^ b := by rw [BitVec.xor_self, BitVec.xor_zero]

theorem shift_xor (a b : BitVec w) : shift g (a ^^^ b) = shift g a ^^^ shift g b := by
  have hdistrib := BitVec.ushiftRight_xor_distrib a b 1
  simp only [shift, BitVec.getLsbD_xor, hdistrib]
  cases a.getLsbD 0 <;> cases b.getLsbD 0
  · rfl
  · exact BitVec.xor_assoc _ _ _
  · calc (a >>> 1 ^^^ b >>> 1) ^^^ g
      _ = (a >>> 1 ^^^ g) ^^^ b >>> 1 := by ac_rfl
  · exact (xor_cancel (a >>> 1) (b >>> 1) g).symm

theorem shift_zero : shift g 0#w = 0#w := by
  simp [shift]

theorem step_xor (c d : BitVec w) (a b : Bool) :
    step g (c ^^^ d) (a ^^ b) = step g c a ^^^ step g d b := by
  have hbit : (BitVec.ofBool (a ^^ b)).setWidth w =
      (BitVec.ofBool a).setWidth w ^^^ (BitVec.ofBool b).setWidth w := by
    rw [← BitVec.ofBool_xor_ofBool, BitVec.setWidth_xor]
  rw [step, step, step, ← shift_xor, hbit]
  congr 1
  ac_rfl

theorem run_differ (c d : BitVec w) {x y : List Bool} (h : x.length = y.length) :
    run g (c ^^^ d) (differ x y) = run g c x ^^^ run g d y := by
  induction x generalizing c d y with
  | nil =>
      obtain rfl : y = [] := List.length_eq_zero_iff.mp h.symm
      rfl
  | cons a x ih =>
      cases y with
      | nil => exact absurd h (by simp)
      | cons b y =>
          have hrest : x.length = y.length := Nat.succ_inj.mp h
          have hcons : differ (a :: x) (b :: y) = (a ^^ b) :: differ x y := rfl
          rw [hcons, run_cons, run_cons, run_cons, step_xor, ih _ _ hrest]

/-- Sequences that differ nowhere are the same. -/
theorem eq_of_differ {x y : List Bool} (h : x.length = y.length) (hnone : true ∉ differ x y) : x = y := by
  induction x generalizing y with
  | nil => exact (List.length_eq_zero_iff.mp h.symm).symm
  | cons a x ih =>
      cases y with
      | nil => exact absurd h (by simp)
      | cons b y =>
          have hcons : differ (a :: x) (b :: y) = (a ^^ b) :: differ x y := rfl
          rw [hcons, List.mem_cons, not_or] at hnone
          have hhead : a = b := by
            cases a <;> cases b <;> simp_all
          rw [hhead, ih (Nat.succ_inj.mp h) hnone.2]

theorem step_false (c : BitVec w) : step g c false = shift g c := by
  simp [step]

theorem run_zero_replicate (n : Nat) : run g 0#w (List.replicate n false) = 0#w := by
  induction n with
  | zero => rfl
  | succ n ih => rw [List.replicate_succ, run_cons, step_false, shift_zero, ih]

theorem run_replicate_xor (c d : BitVec w) (n : Nat) :
    run g (c ^^^ d) (List.replicate n false) =
      run g c (List.replicate n false) ^^^ run g d (List.replicate n false) := by
  induction n generalizing c d with
  | zero => rfl
  | succ n ih =>
      rw [List.replicate_succ, run_cons, run_cons, run_cons, step_false, step_false, step_false, shift_xor, ih]

/-- A register whose low bits are clear only moves down. -/
theorem run_replicate_high {c : BitVec w} {n : Nat} (h : ∀ i < n, c.getLsbD i = false) :
    run g c (List.replicate n false) = c >>> n := by
  induction n generalizing c with
  | zero => exact (BitVec.ushiftRight_zero c).symm
  | succ n ih =>
      have hlow : c.getLsbD 0 = false := h 0 (Nat.succ_pos n)
      have hshift : step g c false = c >>> 1 := by simp [step_false, shift, hlow]
      have hrest : ∀ i < n, (c >>> 1).getLsbD i = false := fun i hi => by
        rw [BitVec.getLsbD_ushiftRight]
        exact h (1 + i) (by omega)
      rw [List.replicate_succ, run_cons, hshift, ih hrest, ← BitVec.shiftRight_add, Nat.add_comm]

section Generator

variable (hg : g.msb = true)
include hg

theorem shift_eq_zero {c : BitVec w} (h : shift g c = 0#w) : c = 0#w := by
  cases hlow : c.getLsbD 0 with
  | true =>
      rw [shift, hlow, if_pos rfl] at h
      have hmsb := congrArg BitVec.msb h
      rw [BitVec.msb_xor, BitVec.msb_ushiftRight, hg] at hmsb
      exact absurd hmsb (by simp)
  | false =>
      have hhigh : c >>> 1 = 0#w := by simpa [shift, hlow] using h
      apply BitVec.eq_of_getLsbD_eq
      intro i _
      cases i with
      | zero => rw [hlow, BitVec.getLsbD_zero]
      | succ i =>
          have hbit := congrArg (BitVec.getLsbD · i) hhigh
          rw [BitVec.getLsbD_ushiftRight, Nat.add_comm, BitVec.getLsbD_zero] at hbit
          rw [hbit, BitVec.getLsbD_zero]

theorem run_replicate_eq_zero {c : BitVec w} {n : Nat}
    (h : run g c (List.replicate n false) = 0#w) : c = 0#w := by
  induction n generalizing c with
  | zero => exact h
  | succ n ih =>
      rw [List.replicate_succ, run_cons, step_false] at h
      exact shift_eq_zero hg (ih h)

end Generator

/-- A sequence no longer than the register can as well be in it from the beginning. -/
theorem run_pack (c : BitVec w) {bits : List Bool} (h : bits.length ≤ w) :
    run g c bits = run g (c ^^^ pack w bits) (List.replicate bits.length false) := by
  induction bits generalizing c with
  | nil =>
      have hempty : pack w [] = 0#w := BitVec.eq_of_getLsbD_eq fun i _ => by
        rw [getLsbD_pack, List.getD_nil, Bool.and_false, BitVec.getLsbD_zero]
      rw [hempty, BitVec.xor_zero]
      rfl
  | cons b bits ih =>
      have hle : bits.length + 1 ≤ w := h
      have hsplit : pack w (b :: bits) = (BitVec.ofBool b).setWidth w ^^^ pack w bits <<< 1 := by
        apply BitVec.eq_of_getLsbD_eq
        intro i hi
        rw [BitVec.getLsbD_xor, BitVec.getLsbD_shiftLeft, getLsbD_pack, getLsbD_pack,
          BitVec.getLsbD_setWidth, BitVec.getLsbD_ofBool]
        cases i with
        | zero => simp
        | succ i =>
            have hi' : i < w := by omega
            simp [hi, hi']
      have hdown : shift g (pack w bits <<< 1) = pack w bits := by
        have hlow : (pack w bits <<< 1).getLsbD 0 = false := by simp [BitVec.getLsbD_shiftLeft]
        rw [shift, hlow, if_neg (by decide)]
        apply BitVec.eq_of_getLsbD_eq
        intro i hi
        rw [BitVec.getLsbD_ushiftRight, BitVec.getLsbD_shiftLeft, Nat.add_sub_cancel_left, getLsbD_pack]
        by_cases hlast : 1 + i < w
        · rw [decide_eq_true hlast, decide_eq_false (show ¬1 + i < 1 by omega)]
          rfl
        · have hpast : bits.length ≤ i := by omega
          rw [List.getD_eq_default bits false hpast, decide_eq_false hlast, Bool.and_false, Bool.and_false]
      have hstep : step g (c ^^^ pack w (b :: bits)) false = step g c b ^^^ pack w bits := by
        rw [step_false, hsplit, ← BitVec.xor_assoc, shift_xor, hdown]
        rfl
      rw [List.length_cons, List.replicate_succ, run_cons, run_cons, hstep]
      exact ih _ (by omega)

theorem pack_eq_zero {bits : List Bool} (hle : bits.length ≤ w) (h : pack w bits = 0#w) : true ∉ bits := by
  intro hmem
  obtain ⟨i, hi, hbit⟩ := List.getElem_of_mem hmem
  have hget := congrArg (BitVec.getLsbD · i) h
  simp only [getLsbD_pack, List.getD_eq_getElem _ _ hi, hbit, Bool.and_true, BitVec.getLsbD_zero,
    decide_eq_false_iff_not] at hget
  omega

/-! ### Error patterns -/

theorem eq_replicate_false {bits : List Bool} (h : true ∉ bits) : bits = List.replicate bits.length false :=
  List.eq_replicate_iff.mpr ⟨rfl, fun b hb => by
    cases b with
    | true => exact absurd hb h
    | false => rfl⟩

/-- The remainder of a nonzero error pattern confined to as many bits as the register has is not zero. -/
theorem run_confined (hg : g.msb = true) {bits : List Bool} (hconfined : Confined w bits)
    (hsome : true ∈ bits) : run g 0#w bits ≠ 0#w := by
  obtain ⟨start, hstart⟩ := hconfined
  have hget {i : Nat} {l : List Bool} {k : Nat} (hi : l[i]? = some true)
      (hl : l[i]? = bits[k]?) : start ≤ k ∧ k < start + w := by
    have hbit : bits[k]? = some true := hl.symm.trans hi
    obtain ⟨hlt, -⟩ := List.getElem?_eq_some_iff.mp hbit
    refine hstart k hlt ?_
    rw [List.getD_eq_getElem?_getD, hbit]
    rfl
  have hbefore : true ∉ bits.take start := by
    intro hmem
    obtain ⟨i, hi⟩ := List.mem_iff_getElem?.mp hmem
    have hlt : i < start := by
      by_contra hnot
      rw [List.getElem?_eq_none (by rw [List.length_take]; omega)] at hi
      exact absurd hi (by simp)
    have hrange := hget hi (List.getElem?_take_of_lt hlt)
    omega
  have hafter : true ∉ (bits.drop start).drop w := by
    intro hmem
    obtain ⟨i, hi⟩ := List.mem_iff_getElem?.mp hmem
    have hrange := hget (k := start + (w + i)) hi (by rw [List.getElem?_drop, List.getElem?_drop])
    omega
  have hsplit : bits = bits.take start ++ ((bits.drop start).take w ++ (bits.drop start).drop w) := by
    rw [List.take_append_drop, List.take_append_drop]
  have hshort : ((bits.drop start).take w).length ≤ w := List.length_take_le _ _
  intro hzero
  rw [hsplit, run_append, run_append, eq_replicate_false hbefore, eq_replicate_false hafter,
    run_zero_replicate] at hzero
  have hburst := run_replicate_eq_zero hg hzero
  rw [run_pack _ hshort, BitVec.zero_xor] at hburst
  have hinside := pack_eq_zero hshort (run_replicate_eq_zero hg hburst)
  rw [hsplit] at hsome
  rcases List.mem_append.mp hsome with hmem | hmem
  · exact hbefore hmem
  · rcases List.mem_append.mp hmem with hmem | hmem
    · exact hinside hmem
    · exact hafter hmem

end Remainder
