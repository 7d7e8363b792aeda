import Mathlib.Data.List.Basic
import Mathlib.Logic.Function.Basic

/-! A ring of `n` cells with one writer and one reader. The writer owns `head`, the reader owns `tail`, and one
cell stays free, so that a full ring is told from an empty one; what does not fit is dropped. The ring is a
bounded queue (`contents_push_of_not_full`, `contents_pop`), and it stays one when the writer comes between any two
steps of the reader, which finds an element, copies it, moves the tail and only then uses the copy (`Traffic`). -/

structure RingBuffer (n : Nat) (α : Type) where
  cells : Nat → α
  head : Nat
  tail : Nat
  head_lt : head < n
  tail_lt : tail < n

namespace RingBuffer

variable {n : Nat} {α : Type}

def next (n i : Nat) : Nat := (i + 1) % n

theorem next_lt (hn : 0 < n) (i : Nat) : next n i < n := Nat.mod_lt _ hn

theorem mod_of_lt_two {a : Nat} (h : a < n + n) : a % n = if a < n then a else a - n := by
  split_ifs with hlt
  · exact Nat.mod_eq_of_lt hlt
  · rw [Nat.mod_eq_sub_mod (Nat.le_of_not_lt hlt), Nat.mod_eq_of_lt (by omega)]

variable (r : RingBuffer n α)

def initial (hn : 0 < n) (cells : Nat → α) : RingBuffer n α := ⟨cells, 0, 0, hn, hn⟩

def Full : Prop := next n r.head = r.tail

def Empty : Prop := r.tail = r.head

instance : Decidable r.Full := inferInstanceAs (Decidable (_ = _))

instance : Decidable r.Empty := inferInstanceAs (Decidable (_ = _))

/-- The oldest element. -/
def peek : α := r.cells r.tail

/-- The writer's step: the element, then the head. -/
def push (x : α) : RingBuffer n α :=
  if r.Full then r
  else ⟨Function.update r.cells r.head x, next n r.head, r.tail, next_lt (Nat.zero_lt_of_lt r.head_lt) _, r.tail_lt⟩

/-- The reader's step over the oldest element. -/
def pop : RingBuffer n α := ⟨r.cells, r.head, next n r.tail, r.head_lt, next_lt (Nat.zero_lt_of_lt r.tail_lt) _⟩

def length : Nat := (r.head + n - r.tail) % n

/-- The elements from the tail to the head. -/
def contents : List α := (List.range r.length).map fun i => r.cells ((r.tail + i) % n)

theorem length_eq : r.length = if r.tail ≤ r.head then r.head - r.tail else r.head + n - r.tail := by
  have hhead := r.head_lt
  have htail := r.tail_lt
  rw [length, mod_of_lt_two (by omega)]
  split_ifs <;> omega

theorem length_lt : r.length < n := Nat.mod_lt _ (Nat.zero_lt_of_lt r.head_lt)

theorem next_eq {i : Nat} (hi : i < n) : next n i = if i + 1 = n then 0 else i + 1 := by
  rw [next, mod_of_lt_two (by omega)]
  split_ifs <;> omega

theorem full_iff : r.Full ↔ r.length + 1 = n := by
  have hhead := r.head_lt
  have htail := r.tail_lt
  rw [Full, next_eq hhead, length_eq]
  split_ifs <;> omega

theorem empty_iff : r.Empty ↔ r.length = 0 := by
  have hhead := r.head_lt
  have htail := r.tail_lt
  rw [Empty, length_eq]
  split_ifs <;> omega

theorem length_push (hfull : ¬r.Full) (x : α) : (r.push x).length = r.length + 1 := by
  have hhead := r.head_lt
  have htail := r.tail_lt
  have hlength := mt r.full_iff.mpr hfull
  rw [push, if_neg hfull, length_eq]
  rw [length_eq] at hlength ⊢
  show (if r.tail ≤ next n r.head then next n r.head - r.tail else next n r.head + n - r.tail) = _
  rw [next_eq hhead]
  split_ifs at * <;> omega

theorem length_pop (hempty : ¬r.Empty) : r.pop.length + 1 = r.length := by
  have hhead := r.head_lt
  have htail := r.tail_lt
  rw [Empty] at hempty
  rw [length_eq, length_eq]
  show (if next n r.tail ≤ r.head then r.head - next n r.tail else r.head + n - next n r.tail) + 1 = _
  rw [next_eq htail]
  split_ifs <;> omega

/-- The cells between the tail and the head are not the cell that the writer writes. -/
theorem cell_ne_head {i : Nat} (hi : i < r.length) : (r.tail + i) % n ≠ r.head := by
  have hhead := r.head_lt
  have htail := r.tail_lt
  have hroom := r.length_lt
  rw [mod_of_lt_two (by omega)]
  rw [length_eq] at hi
  split_ifs at * <;> omega

theorem head_eq : (r.tail + r.length) % n = r.head := by
  have hhead := r.head_lt
  have htail := r.tail_lt
  have hroom := r.length_lt
  rw [mod_of_lt_two (by omega), length_eq]
  split_ifs <;> omega

theorem tail_next (i : Nat) : (next n r.tail + i) % n = (r.tail + (i + 1)) % n := by
  rw [next, Nat.mod_add_mod]
  congr 1
  omega

theorem length_contents : r.contents.length = r.length := by simp [contents]

@[simp] theorem contents_initial (hn : 0 < n) (cells : Nat → α) : (initial hn cells).contents = [] := by
  have hlength : (initial hn cells).length = 0 := by
    rw [← empty_iff]
    rfl
  rw [contents, hlength]
  rfl

theorem contents_push_of_not_full (hfull : ¬r.Full) (x : α) : (r.push x).contents = r.contents ++ [x] := by
  have hlength := r.length_push hfull x
  rw [contents, hlength, List.range_succ, List.map_append, List.map_singleton, push, if_neg hfull]
  congr 1
  · refine List.map_congr_left fun i hi => ?_
    exact Function.update_of_ne (r.cell_ne_head (List.mem_range.mp hi)) _ _
  · show [Function.update r.cells r.head x ((r.tail + r.length) % n)] = [x]
    rw [head_eq, Function.update_self]

theorem contents_pop (hempty : ¬r.Empty) : r.contents = r.peek :: r.pop.contents := by
  have hlength := r.length_pop hempty
  rw [contents, ← hlength, List.range_succ_eq_map, List.map_cons, List.map_map]
  congr 1
  · show r.cells ((r.tail + 0) % n) = r.cells r.tail
    rw [Nat.add_zero, Nat.mod_eq_of_lt r.tail_lt]
  · refine List.map_congr_left fun i _ => ?_
    show r.cells ((r.tail + (i + 1)) % n) = r.cells ((next n r.tail + i) % n)
    rw [tail_next]

theorem contents_eq_nil_iff : r.contents = [] ↔ r.Empty := by
  rw [← List.length_eq_zero_iff, length_contents, empty_iff]

end RingBuffer

/-! ### One writer and one reader -/

/-- What the reader has in hand: nothing, though it may have found that the ring holds something, a copy of the oldest
element, or an element that it has taken out. -/
inductive Hand (α : Type) where
  | empty
  | found
  | copied (x : α)
  | taken (x : α)

/-- A ring between its writer and its reader, with what was put into it and what the reader has used. -/
structure Traffic (n : Nat) (α : Type) where
  ring : RingBuffer n α
  hand : Hand α
  put : List α
  used : List α

namespace Traffic

variable {n : Nat} {α : Type}

/-- The elements that are out of the ring and not used yet. -/
def inHand (t : Traffic n α) : List α :=
  match t.hand with
  | .taken x => [x]
  | _ => []

def write (t : Traffic n α) (x : α) : Traffic n α :=
  { t with ring := t.ring.push x, put := if t.ring.Full then t.put else t.put ++ [x] }

/-- The steps of the reader. -/
inductive Read : Traffic n α → Traffic n α → Prop where
  | find (t : Traffic n α) (hhand : t.hand = .empty) (hring : ¬t.ring.Empty) : Read t { t with hand := .found }
  | copy (t : Traffic n α) (hhand : t.hand = .found) : Read t { t with hand := .copied t.ring.peek }
  | advance (t : Traffic n α) (x : α) (hhand : t.hand = .copied x) :
      Read t { t with ring := t.ring.pop, hand := .taken x }
  | use (t : Traffic n α) (x : α) (hhand : t.hand = .taken x) :
      Read t { t with hand := .empty, used := t.used ++ [x] }

theorem Read.put {t t' : Traffic n α} (h : Read t t') : t'.put = t.put := by cases h <;> rfl

/-- Nothing is lost, doubled or overtaken between the writer and the reader, what the reader has found is still there,
and its copy is still the oldest element. -/
structure Sound (t : Traffic n α) : Prop where
  kept : t.put = t.used ++ t.inHand ++ t.ring.contents
  found : t.hand = .found → ¬t.ring.Empty
  copied : ∀ x, t.hand = .copied x → ¬t.ring.Empty ∧ t.ring.peek = x

theorem sound_initial (hn : 0 < n) (cells : Nat → α) : Sound (n := n) ⟨.initial hn cells, .empty, [], []⟩ :=
  ⟨by simp [inHand], nofun, nofun⟩

/-- The writer comes between any two steps of the reader. -/
theorem Sound.write {t : Traffic n α} (h : t.Sound) (x : α) : (t.write x).Sound := by
  by_cases hfull : t.ring.Full
  · have hsame : t.write x = t := by simp [Traffic.write, RingBuffer.push, hfull]
    rw [hsame]
    exact h
  · have hring := t.ring.contents_push_of_not_full hfull x
    have hmore : ¬(t.ring.push x).Empty := by
      rw [← RingBuffer.contents_eq_nil_iff, hring]
      simp
    refine ⟨?_, fun _ => hmore, fun y hy => ?_⟩
    · show (if t.ring.Full then t.put else t.put ++ [x]) = t.used ++ t.inHand ++ (t.ring.push x).contents
      rw [if_neg hfull, hring, h.kept, List.append_assoc _ _ [x]]
    · obtain ⟨hempty, hpeek⟩ := h.copied y hy
      have hhead := t.ring.contents_pop hempty
      refine ⟨hmore, ?_⟩
      have hhead' := (t.ring.push x).contents_pop hmore
      rw [hring, hhead, hpeek] at hhead'
      exact (List.cons.inj hhead').1.symm

theorem Sound.read {t t' : Traffic n α} (h : t.Sound) (hread : Read t t') : t'.Sound := by
  cases hread with
  | find hhand hring =>
      refine ⟨?_, fun _ => hring, nofun⟩
      have hkept := h.kept
      simp only [inHand, hhand] at hkept
      exact hkept
  | copy hhand =>
      refine ⟨?_, nofun, fun x hx => ⟨h.found hhand, Hand.copied.inj hx⟩⟩
      have hkept := h.kept
      simp only [inHand, hhand] at hkept
      exact hkept
  | advance x hhand =>
      obtain ⟨hempty, hpeek⟩ := h.copied x hhand
      refine ⟨?_, nofun, nofun⟩
      have hkept := h.kept
      simp only [inHand, hhand, List.append_nil] at hkept
      show t.put = t.used ++ [x] ++ t.ring.pop.contents
      rw [hkept, t.ring.contents_pop hempty, hpeek, List.append_assoc, List.singleton_append]
  | use x hhand =>
      refine ⟨?_, nofun, nofun⟩
      have hkept := h.kept
      simp only [inHand, hhand] at hkept
      show t.put = t.used ++ [x] ++ [] ++ t.ring.contents
      rw [List.append_nil]
      exact hkept

end Traffic
