import Mathlib
/-!
# Checked — arithmetic on numbers of a fixed width

A number of width `w` is a natural number below `2 ^ w`.  An operation that would leave the width has no result, nor has
a division by zero; a saturating one stops at the largest number instead.
-/
namespace Checked

/-- A result that has to fit. -/
def fit (w n : Nat) : Option Nat := if n < 2 ^ w then some n else none

def saturate (w n : Nat) : Nat := min n (2 ^ w - 1)

def add (w a b : Nat) : Option Nat := fit w (a + b)

def sub (a b : Nat) : Option Nat := if b ≤ a then some (a - b) else none

def mul (w a b : Nat) : Option Nat := fit w (a * b)

def div (a b : Nat) : Option Nat := if b = 0 then none else some (a / b)

/-- A division rounded up. -/
def divCeil (w a b : Nat) : Option Nat :=
  if b = 0 then none else if a % b = 0 then some (a / b) else fit w (a / b + 1)

theorem fit_eq {w n : Nat} (h : n < 2 ^ w) : fit w n = some n := if_pos h

theorem fit_eq_some_iff (w n m : Nat) : fit w n = some m ↔ n < 2 ^ w ∧ n = m := by
  unfold fit
  split
  · rename_i h
    simp [h]
  · rename_i h
    simp [h]

theorem sub_eq_some_iff (a b m : Nat) : sub a b = some m ↔ b ≤ a ∧ a - b = m := by
  unfold sub
  split
  · rename_i h
    simp [h]
  · rename_i h
    simp [h]

theorem div_eq {a b : Nat} (h : b ≠ 0) : div a b = some (a / b) := if_neg h

theorem saturate_lt (w n : Nat) : saturate w n < 2 ^ w := by
  have := Nat.two_pow_pos w
  unfold saturate
  omega

/-- **A number of the width divided by anything but zero** stays in the width. -/
theorem exists_divCeil {w a b : Nat} (ha : a < 2 ^ w) (hb : b ≠ 0) : ∃ n, divCeil w a b = some n ∧ n < 2 ^ w := by
  have hle : a / b ≤ a := Nat.div_le_self a b
  unfold divCeil
  rw [if_neg hb]
  by_cases hr : a % b = 0
  · exact ⟨a / b, if_pos hr, by omega⟩
  · have h1 : b ≠ 1 := by
      rintro rfl
      exact hr (Nat.mod_one a)
    have hlt : a / b < a := Nat.div_lt_self (Nat.pos_of_ne_zero fun h0 => hr (h0 ▸ Nat.zero_mod b)) (by omega)
    have hfit : a / b + 1 < 2 ^ w := by omega
    exact ⟨a / b + 1, by rw [if_neg hr, fit_eq hfit], hfit⟩

end Checked
