import Mathlib.Data.Nat.ModEq

/-! Serial numbers: unbounded counters of which only the residue modulo `m` is on the wire. Within a
window shorter than the modulus the residue determines the counter. -/

namespace Serial

variable (m : Nat)

/-- The first counter from `a` on with the residue `r`. -/
def advance (a r : Nat) : Nat := a + (r + m - a % m) % m

variable {m}

theorem le_advance (a r : Nat) : a ≤ advance m a r := Nat.le_add_right _ _

theorem advance_lt (hm : 0 < m) (a r : Nat) : advance m a r < a + m :=
  Nat.add_lt_add_left (Nat.mod_lt _ hm) a

theorem advance_mod {a r : Nat} (hr : r < m) : advance m a r % m = r := by
  have ha : a % m < m := Nat.mod_lt _ (Nat.zero_lt_of_lt hr)
  have hsum : a % m + (r + m - a % m) = r + m := by omega
  rw [advance, Nat.add_mod, Nat.mod_mod, ← Nat.add_mod, ← Nat.mod_add_mod, hsum, Nat.add_mod_right,
    Nat.mod_eq_of_lt hr]

/-- Two counters of one window with the same residue are the same. -/
theorem eq_of_mod_eq {a b c : Nat} (hb : a ≤ b) (hb' : b < a + m) (hc : a ≤ c) (hc' : c < a + m)
    (h : b % m = c % m) : b = c := by
  have hmod : b ≡ c [MOD m] := h
  rcases Nat.le_total b c with hle | hle
  · have hdvd : m ∣ c - b := (Nat.modEq_iff_dvd' hle).mp hmod
    have hzero : c - b = 0 := Nat.eq_zero_of_dvd_of_lt hdvd (by omega)
    omega
  · have hdvd : m ∣ b - c := (Nat.modEq_iff_dvd' hle).mp hmod.symm
    have hzero : b - c = 0 := Nat.eq_zero_of_dvd_of_lt hdvd (by omega)
    omega

theorem advance_eq {a b r : Nat} (hr : r < m) (hb : a ≤ b) (hb' : b < a + m) (h : b % m = r) :
    advance m a r = b :=
  eq_of_mod_eq (le_advance a r) (advance_lt (Nat.zero_lt_of_lt hr) a r) hb hb'
    ((advance_mod hr).trans h.symm)

theorem advance_self (hm : 0 < m) (a : Nat) : advance m a (a % m) = a :=
  advance_eq (Nat.mod_lt _ hm) (Nat.le_refl a) (by omega) rfl

end Serial
