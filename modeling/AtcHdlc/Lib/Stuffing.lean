import Mathlib.Data.List.Basic

/-! Transparency by octet stuffing, over any alphabet: a flag delimits frames, an escape announces a
masked symbol. The receiving side is a left fold, so that it can be followed symbol by symbol; a
stream is cut into what lies between two consecutive flags. -/

namespace Stuffing

/-- A flag, an escape and an involution that takes both of them to ordinary symbols. -/
structure Code (β : Type*) where
  flag : β
  esc : β
  mask : β → β
  mask_mask : ∀ b, mask (mask b) = b
  esc_ne_flag : esc ≠ flag
  mask_flag_ne_flag : mask flag ≠ flag
  mask_flag_ne_esc : mask flag ≠ esc
  mask_esc_ne_flag : mask esc ≠ flag
  mask_esc_ne_esc : mask esc ≠ esc

variable {β : Type*} [DecidableEq β] (c : Code β)

namespace Code

def stuffOne (b : β) : List β := if b = c.flag ∨ b = c.esc then [c.esc, c.mask b] else [b]

def stuff (l : List β) : List β := l.flatMap c.stuffOne

@[simp] theorem stuff_nil : c.stuff [] = [] := rfl

@[simp] theorem stuff_cons (b : β) (l : List β) : c.stuff (b :: l) = c.stuffOne b ++ c.stuff l :=
  List.flatMap_cons

@[simp] theorem stuff_append (l r : List β) : c.stuff (l ++ r) = c.stuff l ++ c.stuff r :=
  List.flatMap_append

omit [DecidableEq β] in
theorem mask_ne (b : β) (h : b = c.flag ∨ b = c.esc) : c.mask b ≠ c.flag ∧ c.mask b ≠ c.esc := by
  rcases h with rfl | rfl
  · exact ⟨c.mask_flag_ne_flag, c.mask_flag_ne_esc⟩
  · exact ⟨c.mask_esc_ne_flag, c.mask_esc_ne_esc⟩

theorem flag_not_mem_stuffOne (b : β) : c.flag ∉ c.stuffOne b := by
  unfold stuffOne
  split_ifs with h
  · have hmask := (c.mask_ne b h).1
    simp [c.esc_ne_flag.symm, hmask.symm]
  · push Not at h
    simp [h.1.symm]

/-- No flag occurs inside what the sender stuffs. -/
theorem flag_not_mem_stuff (l : List β) : c.flag ∉ c.stuff l := by
  simp only [stuff, List.mem_flatMap, not_exists, not_and]
  exact fun b _ => c.flag_not_mem_stuffOne b

/-- One symbol at the receiver: whether an escape is pending, and the symbols so far. -/
def scanStep (acc : Bool × List β) (b : β) : Bool × List β :=
  if b = c.esc then (true, acc.2) else (false, acc.2 ++ [if acc.1 then c.mask b else b])

def scan (seg : List β) : Bool × List β := seg.foldl c.scanStep (false, [])

/-- The symbols a segment stands for. A run of escapes counts as one, and an escape at the end of the
segment stands for nothing. -/
def unstuff (seg : List β) : List β := (c.scan seg).2

/-- Whether the segment ends in an escape. -/
def pending (seg : List β) : Bool := (c.scan seg).1

@[simp] theorem unstuff_nil : c.unstuff [] = [] := rfl

@[simp] theorem pending_nil : c.pending [] = false := rfl

theorem scan_snoc (seg : List β) (b : β) : c.scan (seg ++ [b]) = c.scanStep (c.scan seg) b := by
  simp only [scan, List.foldl_append, List.foldl_cons, List.foldl_nil]

theorem unstuff_snoc_esc (seg : List β) : c.unstuff (seg ++ [c.esc]) = c.unstuff seg := by
  simp only [unstuff, scan_snoc, scanStep, if_true]

theorem pending_snoc_esc (seg : List β) : c.pending (seg ++ [c.esc]) = true := by
  simp only [pending, scan_snoc, scanStep, if_true]

theorem unstuff_snoc (seg : List β) {b : β} (h : b ≠ c.esc) :
    c.unstuff (seg ++ [b]) = c.unstuff seg ++ [if c.pending seg then c.mask b else b] := by
  rw [unstuff, scan_snoc, scanStep, if_neg h]
  rfl

theorem pending_snoc (seg : List β) {b : β} (h : b ≠ c.esc) : c.pending (seg ++ [b]) = false := by
  simp only [pending, scan_snoc, scanStep, if_neg h]

/-- More of a segment stands for more symbols. -/
theorem length_unstuff_append (seg q : List β) : (c.unstuff seg).length ≤ (c.unstuff (seg ++ q)).length := by
  induction q generalizing seg with
  | nil => exact Nat.le_of_eq (congrArg (fun l => (c.unstuff l).length) (List.append_nil seg).symm)
  | cons b q ih =>
      have hone : (c.unstuff seg).length ≤ (c.unstuff (seg ++ [b])).length := by
        by_cases hb : b = c.esc
        · rw [hb]
          exact Nat.le_of_eq (congrArg List.length (c.unstuff_snoc_esc seg).symm)
        · rw [c.unstuff_snoc seg hb, List.length_append]
          omega
      rw [List.append_cons]
      exact Nat.le_trans hone (ih (seg ++ [b]))

theorem foldl_scanStep_stuffOne (out : List β) (b : β) :
    (c.stuffOne b).foldl c.scanStep (false, out) = (false, out ++ [b]) := by
  unfold stuffOne
  split_ifs with h
  · have hmask := (c.mask_ne b h).2
    simp [scanStep, hmask, c.mask_mask]
  · push Not at h
    simp [scanStep, h.2]

theorem scan_stuff (l : List β) : c.scan (c.stuff l) = (false, l) := by
  have hgen : ∀ out, (c.stuff l).foldl c.scanStep (false, out) = (false, out ++ l) := by
    induction l with
    | nil => simp
    | cons b l ih =>
        intro out
        rw [stuff_cons, List.foldl_append, foldl_scanStep_stuffOne, ih, List.append_assoc,
          List.singleton_append]
  exact hgen []

/-- The receiver undoes what the sender stuffs. -/
theorem unstuff_stuff (l : List β) : c.unstuff (c.stuff l) = l := by
  rw [unstuff, scan_stuff]

/-! ### Cutting a stream at the flags -/

/-- What lies between two consecutive flags: nothing before the first flag, no unterminated tail. -/
def cut (stream : List β) : List (List β) := (stream.splitOn c.flag).tail.dropLast

/-- The same for a stream that begins inside a segment of which `seg` was already read. -/
def cutFrom (seg stream : List β) : List (List β) :=
  ((stream.splitOn c.flag).modifyHead (seg ++ ·)).dropLast

theorem splitOn_flag_cons (l : List β) :
    (c.flag :: l).splitOn c.flag = [] :: l.splitOn c.flag := by
  simp [List.splitOn_cons_eq_if_modifyHead]

theorem splitOn_cons {b : β} (h : b ≠ c.flag) (l : List β) :
    (b :: l).splitOn c.flag = (l.splitOn c.flag).modifyHead (b :: ·) := by
  simp [List.splitOn_cons_eq_if_modifyHead, h]

@[simp] theorem cut_nil : c.cut [] = [] := rfl

@[simp] theorem cutFrom_nil (seg : List β) : c.cutFrom seg [] = [] := rfl

theorem cutFrom_flag (seg l : List β) : c.cutFrom seg (c.flag :: l) = seg :: c.cutFrom [] l := by
  obtain ⟨head, tail, heq⟩ := List.exists_cons_of_ne_nil (List.splitOn_ne_nil c.flag l)
  simp [cutFrom, splitOn_flag_cons, heq]

theorem cutFrom_cons (seg : List β) {b : β} (h : b ≠ c.flag) (l : List β) :
    c.cutFrom seg (b :: l) = c.cutFrom (seg ++ [b]) l := by
  obtain ⟨head, tail, heq⟩ := List.exists_cons_of_ne_nil (List.splitOn_ne_nil c.flag l)
  simp [cutFrom, c.splitOn_cons h, heq]

theorem cut_flag (l : List β) : c.cut (c.flag :: l) = c.cutFrom [] l := by
  obtain ⟨head, tail, heq⟩ := List.exists_cons_of_ne_nil (List.splitOn_ne_nil c.flag l)
  simp [cut, cutFrom, splitOn_flag_cons, heq]

theorem cut_cons {b : β} (h : b ≠ c.flag) (l : List β) : c.cut (b :: l) = c.cut l := by
  obtain ⟨head, tail, heq⟩ := List.exists_cons_of_ne_nil (List.splitOn_ne_nil c.flag l)
  simp [cut, c.splitOn_cons h, heq]

theorem cutFrom_append (seg : List β) {q : List β} (h : c.flag ∉ q) (l : List β) :
    c.cutFrom seg (q ++ c.flag :: l) = (seg ++ q) :: c.cutFrom [] l := by
  induction q generalizing seg with
  | nil => simpa using c.cutFrom_flag seg l
  | cons b q ih =>
      have hb : b ≠ c.flag := fun heq => h (by simp [heq])
      have hq : c.flag ∉ q := fun hmem => h (List.mem_cons_of_mem _ hmem)
      rw [List.cons_append, c.cutFrom_cons seg hb, ih _ hq, List.append_assoc, List.singleton_append]

/-- The first segment begins with what was already read of it. -/
theorem cutFrom_extends {seg stream x : List β} {xs : List (List β)} (h : c.cutFrom seg stream = x :: xs) :
    ∃ q, x = seg ++ q := by
  induction stream generalizing seg with
  | nil => exact absurd h (List.cons_ne_nil x xs).symm
  | cons b stream ih =>
      by_cases hb : b = c.flag
      · rw [hb, c.cutFrom_flag] at h
        refine ⟨[], ?_⟩
        rw [List.append_nil, (List.cons.inj h).1]
      · rw [c.cutFrom_cons seg hb] at h
        obtain ⟨q, rfl⟩ := ih h
        refine ⟨b :: q, ?_⟩
        rw [List.append_assoc, List.singleton_append]

/-- Whether the last symbol is a flag, where `b` tells it of what stands before. -/
def afterFlag (b : Bool) (l : List β) : Bool := l.foldl (fun _ x => decide (x = c.flag)) b

theorem afterFlag_append (b : Bool) (l l' : List β) : c.afterFlag b (l ++ l') = c.afterFlag (c.afterFlag b l) l' :=
  List.foldl_append

theorem afterFlag_concat (b : Bool) (l : List β) : c.afterFlag b (l ++ [c.flag]) = true := by
  rw [afterFlag_append]
  exact decide_eq_true rfl

/-- The second stream is the first without some flags that follow a flag. -/
inductive Thinned : Bool → List β → List β → Prop where
  | nil (b : Bool) : Thinned b [] []
  | keep {b : Bool} (x : β) {l t : List β} (h : Thinned (decide (x = c.flag)) l t) : Thinned b (x :: l) (x :: t)
  | drop {l t : List β} (h : Thinned true l t) : Thinned true (c.flag :: l) t

variable {c}

theorem Thinned.refl (b : Bool) (l : List β) : c.Thinned b l l := by
  induction l generalizing b with
  | nil => exact .nil b
  | cons x l ih => exact .keep x (ih _)

theorem Thinned.append {b : Bool} {l l' t t' : List β} (h : c.Thinned b l t)
    (h' : c.Thinned (c.afterFlag b l) l' t') : c.Thinned b (l ++ l') (t ++ t') := by
  induction h with
  | nil b => exact h'
  | keep x _ ih => exact .keep x (ih h')
  | drop _ ih =>
      refine .drop (ih ?_)
      have hflag : c.afterFlag true [c.flag] = true := c.afterFlag_concat true []
      rw [← List.singleton_append, afterFlag_append, hflag] at h'
      exact h'

/-- Where the second stream is cut, the first can be cut. -/
theorem Thinned.split {b : Bool} {l t' t'' : List β} (h : c.Thinned b l (t' ++ t'')) :
    ∃ l' l'', l = l' ++ l'' ∧ c.Thinned b l' t' ∧ c.Thinned (c.afterFlag b l') l'' t'' := by
  generalize ht : t' ++ t'' = t at h
  induction h generalizing t' with
  | nil b =>
      obtain ⟨rfl, rfl⟩ := List.append_eq_nil_iff.mp ht
      exact ⟨[], [], rfl, .nil b, .nil b⟩
  | @keep b x l t h ih =>
      cases t' with
      | nil =>
          rw [List.nil_append] at ht
          rw [ht]
          exact ⟨[], x :: l, rfl, .nil b, .keep x h⟩
      | cons y t' =>
          obtain ⟨rfl, hrest⟩ := List.cons_eq_cons.mp ht
          obtain ⟨l', l'', rfl, hfirst, hsecond⟩ := ih hrest
          exact ⟨y :: l', l'', rfl, .keep y hfirst, hsecond⟩
  | drop _ ih =>
      obtain ⟨l', l'', rfl, hfirst, hsecond⟩ := ih ht
      refine ⟨c.flag :: l', l'', rfl, .drop hfirst, ?_⟩
      have hflag : c.afterFlag true [c.flag] = true := c.afterFlag_concat true []
      rw [← List.singleton_append, afterFlag_append, hflag]
      exact hsecond

end Code

end Stuffing
