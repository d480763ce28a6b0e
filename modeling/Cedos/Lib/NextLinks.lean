import Mathlib.Logic.Function.Basic
import Mathlib.Data.List.Nodup

/-!
# Singly linked lists

Items with one link each, which is `none` at the end of a list. `Seg` says that a stretch of such a list runs
through given items. A walk over it is told what it has passed in reverse, as a loop with a trailing pointer
sees it, so the pointer is the head of that list; `relink` is the store such a loop makes.
-/

namespace Cedos

universe u
variable {α : Type u} {next next' : α → Option α} {o p : Option α} {a q : α} {as bs : List α}

/-- From `o` on, the links run through the items of the list and then to `p`. -/
def Seg (next : α → Option α) : Option α → List α → Option α → Prop
  | o, [], p => o = p
  | o, a :: as, p => o = some a ∧ Seg next (next a) as p

namespace Seg

/-- The list begins with the item that is pointed to. -/
theorem eq_head (h : Seg next o as none) : o = as.head? := by
  cases as with
  | nil => exact h
  | cons a as => exact h.1

theorem congr (h : Seg next o as p) (hn : ∀ x ∈ as, next' x = next x) : Seg next' o as p := by
  induction as generalizing o with
  | nil => exact h
  | cons a as ih =>
    refine ⟨h.1, ?_⟩
    rw [hn a List.mem_cons_self]
    exact ih h.2 fun x hx => hn x (List.mem_cons_of_mem a hx)

theorem append_iff : Seg next o (as ++ bs) p ↔ ∃ m, Seg next o as m ∧ Seg next m bs p := by
  induction as generalizing o with
  | nil => simp [Seg]
  | cons a as ih => simp only [List.cons_append, Seg, ih, and_assoc, exists_and_left]

/-- The last item points to what follows the stretch. -/
theorem concat_iff : Seg next o (as ++ [q]) p ↔ Seg next o as (some q) ∧ next q = p := by
  rw [append_iff]
  constructor
  · rintro ⟨m, hm, rfl, hp⟩
    exact ⟨hm, hp⟩
  · rintro ⟨hm, hp⟩
    exact ⟨some q, hm, rfl, hp⟩

/-- What an item in the middle points to. -/
theorem next_eq (h : Seg next o (as ++ a :: bs) none) : next a = bs.head? := by
  obtain ⟨m, -, hm⟩ := append_iff.mp h
  exact hm.2.eq_head

section
variable [DecidableEq α]

/-- A store to an item outside. -/
theorem update (h : Seg next o as p) (ha : a ∉ as) (v : Option α) : Seg (Function.update next a v) o as p := by
  refine h.congr fun x hx => ?_
  have hne : x ≠ a := fun heq => ha (heq ▸ hx)
  exact Function.update_of_ne hne v next

end
end Seg

section
variable [DecidableEq α]

/-- Make the item `last`, or the head of the list if there is none, point to `v`. -/
def relink (next : α → Option α) (o last v : Option α) : (α → Option α) × Option α :=
  match last with
  | some q => (Function.update next q v, o)
  | none => (next, v)

/-- Only the item itself is stored to. -/
theorem relink_of_ne {last v : Option α} (ha : last ≠ some a) : (relink next o last v).1 a = next a := by
  cases last with
  | none => rfl
  | some q => exact Function.update_of_ne (fun heq => ha (congrArg some heq.symm)) _ _

/-- The items that have been passed stay, and are followed by others. -/
theorem Seg.relink {cs : List α} {v : Option α} (h : Seg next o (as.reverse ++ bs) p) (hnd : as.Nodup)
    (hv : Seg next v cs none) (hcs : ∀ x ∈ as, x ∉ cs) :
    Seg (relink next o as.head? v).1 (relink next o as.head? v).2 (as.reverse ++ cs) none := by
  cases as with
  | nil => exact hv
  | cons q as =>
    rw [List.reverse_cons] at h ⊢
    obtain ⟨m, hm, -⟩ := append_iff.mp h
    obtain ⟨hfront, -⟩ := concat_iff.mp hm
    have hq : q ∉ as.reverse := by
      rw [List.mem_reverse]
      exact (List.nodup_cons.mp hnd).1
    refine append_iff.mpr ⟨v, concat_iff.mpr ⟨hfront.update hq v, ?_⟩, hv.update (hcs q List.mem_cons_self) v⟩
    exact Function.update_self q v next

end
end Cedos
