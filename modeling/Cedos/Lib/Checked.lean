import Mathlib.Tactic

/-!
# Arithmetic on `int` that notices undefined behaviour

A sum, difference or product of `int`s is undefined when it does not fit, and so is a division by
zero. Each operation returns `none` in that case; a function written with them returns a value exactly
when none of its operations is undefined.
-/

namespace Cedos.Checked

/-- The values of an `int`. -/
def Fits (n : ℤ) : Prop := -2147483648 ≤ n ∧ n < 2147483648

instance (n : ℤ) : Decidable (Fits n) := inferInstanceAs (Decidable (_ ∧ _))

/-- The result of an operation whose exact result is `n`. -/
def int (n : ℤ) : Option ℤ := if Fits n then some n else none

/-- Division, which rounds towards zero. -/
def div (a b : ℤ) : Option ℤ := if b = 0 then none else int (a.tdiv b)

variable {a b n : ℤ}

theorem int_of_fits (h : Fits n) : int n = some n := if_pos h

theorem div_of_ne (hb : b ≠ 0) (h : Fits (a.tdiv b)) : div a b = some (a.tdiv b) := by
  rw [div, if_neg hb, int_of_fits h]

end Cedos.Checked
