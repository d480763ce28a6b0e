import Mathlib.Tactic

/-!
# Machine integers of C

A `uint32_t` is a `UInt32`; an `int` is an integer, since signed overflow is
undefined; where it can happen, the operations of `Cedos.Lib.Checked` notice it. What C does silently
is the conversion between the two, so both directions are named: `i32` reads the
two's complement value of a word, `u32` reduces an integer modulo `2 ^ 32`.

The lemmas take an explicit no-wrap hypothesis and turn word arithmetic into
arithmetic on `ℕ` and `ℤ`, where `omega` finishes.
-/

namespace Cedos

/-- The `int` a `uint32_t` converts to. -/
def i32 (x : UInt32) : ℤ :=
  if x.toNat < 2 ^ 31 then (x.toNat : ℤ) else (x.toNat : ℤ) - 2 ^ 32

/-- The `uint32_t` an `int` converts to. -/
def u32 (n : ℤ) : UInt32 := UInt32.ofNat (n % 2 ^ 32).toNat

variable {a b x : UInt32}

theorem toNat_lt_word (x : UInt32) : x.toNat < 4294967296 := UInt32.toNat_lt x

theorem i32_of_lt (h : x.toNat < 2147483648) : i32 x = x.toNat := by
  simp only [i32]
  rw [if_pos (by omega)]

theorem i32_of_ge (h : 2147483648 ≤ x.toNat) : i32 x = (x.toNat : ℤ) - 4294967296 := by
  simp only [i32]
  rw [if_neg (by omega)]
  norm_num

theorem i32_bounds (x : UInt32) : -2147483648 ≤ i32 x ∧ i32 x < 2147483648 := by
  have hlt := toNat_lt_word x
  rcases Nat.lt_or_ge x.toNat 2147483648 with h | h
  · rw [i32_of_lt h]
    omega
  · rw [i32_of_ge h]
    omega

theorem toNat_of_i32_nonneg (h : 0 ≤ i32 x) : (x.toNat : ℤ) = i32 x := by
  have hword := toNat_lt_word x
  by_cases hx : x.toNat < 2147483648
  · rw [i32_of_lt hx]
  · rw [i32_of_ge (by omega)] at h
    omega

theorem toNat_u32 {n : ℤ} (h0 : 0 ≤ n) (h1 : n < 4294967296) : (u32 n).toNat = n.toNat := by
  have hmod : n % 2 ^ 32 = n := Int.emod_eq_of_lt h0 (by omega)
  rw [u32, hmod, UInt32.toNat_ofNat']
  omega

@[simp] theorem u32_natCast (n : ℕ) : u32 (n : ℤ) = UInt32.ofNat n := by
  apply UInt32.toNat_inj.mp
  rw [u32, UInt32.toNat_ofNat', UInt32.toNat_ofNat']
  omega

theorem toNat_ofNat_word {n : ℕ} (h : n < 4294967296) : (UInt32.ofNat n).toNat = n := by
  rw [UInt32.toNat_ofNat']
  omega

/-- Subtraction that does not borrow. -/
theorem toNat_sub_word (h : b.toNat ≤ a.toNat) : (a - b).toNat = a.toNat - b.toNat :=
  UInt32.toNat_sub_of_le a b (UInt32.le_iff_toNat_le.mpr h)

/-- Addition that does not carry. -/
theorem toNat_add_word (h : a.toNat + b.toNat < 4294967296) : (a + b).toNat = a.toNat + b.toNat := by
  rw [UInt32.toNat_add]
  omega

/-- Adding a small non-negative `int` to a word. -/
theorem toNat_add_u32 {n : ℤ} (h0 : 0 ≤ n) (h1 : (a.toNat : ℤ) + n < 4294967296) :
    (a + u32 n).toNat = a.toNat + n.toNat := by
  have hn : (u32 n).toNat = n.toNat := toNat_u32 h0 (by omega)
  rw [toNat_add_word (by omega), hn]

/-- The signed difference of two words that are less than `2 ^ 31` apart. -/
theorem i32_sub_near (h0 : -2147483648 ≤ (a.toNat : ℤ) - b.toNat)
    (h1 : (a.toNat : ℤ) - b.toNat < 2147483648) : i32 (a - b) = (a.toNat : ℤ) - b.toNat := by
  have ha := toNat_lt_word a
  have hb := toNat_lt_word b
  simp only [i32, UInt32.toNat_sub]
  split_ifs <;> omega

/-- The same when the first is far below the second: the difference comes out positive. -/
theorem i32_sub_below (h : (a.toNat : ℤ) - b.toNat < -2147483648) :
    i32 (a - b) = (a.toNat : ℤ) - b.toNat + 4294967296 := by
  have ha := toNat_lt_word a
  have hb := toNat_lt_word b
  simp only [i32, UInt32.toNat_sub]
  split_ifs <;> omega

/-- And when it is far above: the difference comes out negative. -/
theorem i32_sub_above (h : 2147483648 ≤ (a.toNat : ℤ) - b.toNat) :
    i32 (a - b) = (a.toNat : ℤ) - b.toNat - 4294967296 := by
  have ha := toNat_lt_word a
  have hb := toNat_lt_word b
  simp only [i32, UInt32.toNat_sub]
  split_ifs <;> omega

/-- The signed difference of two words below `2 ^ 31` is the difference of their
values, whichever is larger: this is what makes `(int)(a - b)` meaningful. -/
theorem i32_sub (ha : a.toNat < 2147483648) (hb : b.toNat < 2147483648) : i32 (a - b) = (a.toNat : ℤ) - b.toNat :=
  i32_sub_near (by omega) (by omega)

/-- Subtracting converted values. -/
theorem u32_sub_u32 (m n : ℤ) : u32 m - u32 n = u32 (m - n) := by
  apply UInt32.toNat_inj.mp
  rw [UInt32.toNat_sub]
  simp only [u32, UInt32.toNat_ofNat']
  omega

/-- Converting there and back. -/
theorem u32_i32 (x : UInt32) : u32 (i32 x) = x := by
  have hx := toNat_lt_word x
  apply UInt32.toNat_inj.mp
  simp only [u32, i32, UInt32.toNat_ofNat']
  split_ifs <;> omega

/-- Adding converted values. -/
theorem u32_add_u32 (m n : ℤ) : u32 m + u32 n = u32 (m + n) := by
  apply UInt32.toNat_inj.mp
  rw [UInt32.toNat_add]
  simp only [u32, UInt32.toNat_ofNat']
  omega

theorem toNat_max (a b : UInt32) : (max a b).toNat = max a.toNat b.toNat := by
  change (if a ≤ b then b else a).toNat = _
  by_cases h : a ≤ b
  · rw [if_pos h, Nat.max_eq_right (UInt32.le_iff_toNat_le.mp h)]
  · rw [if_neg h, Nat.max_eq_left (by rw [UInt32.le_iff_toNat_le] at h; omega)]

theorem toNat_min (a b : UInt32) : (min a b).toNat = min a.toNat b.toNat := by
  change (if a ≤ b then a else b).toNat = _
  by_cases h : a ≤ b
  · rw [if_pos h, Nat.min_eq_left (UInt32.le_iff_toNat_le.mp h)]
  · rw [if_neg h, Nat.min_eq_right (by rw [UInt32.le_iff_toNat_le] at h; omega)]

end Cedos
