import Cedos.Lib.Intervals

/-!
# Adjacent intervals

A list of intervals that follow each other without gap or overlap from one position to
another. A tile may be empty.
-/

namespace Cedos

universe u
variable {α : Type u} [LinearOrder α]

/-- The intervals follow each other from `a` to `b`. -/
def Tiles : List (Ival α) → α → α → Prop
  | [], a, b => a = b
  | x :: l, a, b => x.lo = a ∧ x.lo ≤ x.hi ∧ Tiles l x.hi b

namespace Tiles
variable {l l' : List (Ival α)} {x : Ival α} {a b c : α} (h : Tiles l a b)
include h

theorem le : a ≤ b := by
  induction l generalizing a with
  | nil => exact le_of_eq h
  | cons x l ih =>
    obtain ⟨rfl, hx, hl⟩ := h
    exact le_trans hx (ih hl)

/-- Tilings of neighbouring stretches join. -/
theorem append (h' : Tiles l' b c) : Tiles (l ++ l') a c := by
  induction l generalizing a with
  | nil =>
    obtain rfl : a = b := h
    exact h'
  | cons x l ih => exact ⟨h.1, h.2.1, ih h.2.2⟩

theorem concat (hx : x.lo = b) (hlt : x.lo ≤ x.hi) :
    Tiles (l ++ [x]) a x.hi := h.append ⟨hx, hlt, rfl⟩

/-- Every tile lies in the stretch. -/
theorem mem_bounds : ∀ x ∈ l, a ≤ x.lo ∧ x.lo ≤ x.hi ∧ x.hi ≤ b := by
  induction l generalizing a with
  | nil => simp
  | cons y l ih =>
    obtain ⟨rfl, hy, hl⟩ := h
    intro x hx
    cases List.mem_cons.mp hx with
    | inl heq =>
      subst heq
      exact ⟨le_rfl, hy, hl.le⟩
    | inr htl =>
      obtain ⟨h0, h1, h2⟩ := ih hl x htl
      exact ⟨le_trans hy h0, h1, h2⟩

/-- Tiles do not overlap. -/
theorem pairwise : l.Pairwise fun x y => x.hi ≤ y.lo := by
  induction l generalizing a with
  | nil => exact List.Pairwise.nil
  | cons x l ih =>
    obtain ⟨-, -, hl⟩ := h
    exact List.pairwise_cons.mpr ⟨fun y hy => (hl.mem_bounds y hy).1, ih hl⟩

end Tiles
end Cedos
