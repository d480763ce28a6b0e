import Mathlib.Data.List.Sort

/-!
# Intrusive lists

Items that carry their own links are in at most one place of a list. Inserting an item twice,
removing one that is not linked, and reusing the memory of one that is, all destroy the list. The
operations are total here; `LinkOp.Legal` is what an operation has to find.
-/

namespace Cedos

universe u
variable {α : Type u}

/-- An operation on a list of linked items. -/
inductive LinkOp (α : Type u)
  | insert (a : α)
  | remove (a : α)
  /-- the memory of the item is overwritten -/
  | clear (a : α)

/-- The operation leaves the links intact. -/
def LinkOp.Legal (q : List α) : LinkOp α → Prop
  | .insert a => a ∉ q
  | .remove a => a ∈ q
  | .clear a => a ∉ q

section
variable [DecidableEq α] (r : α → α → Prop) [DecidableRel r]

/-- The effect of a legal operation. -/
def LinkOp.run (q : List α) : LinkOp α → List α
  | .insert a => q.orderedInsert r a
  | .remove a => q.erase a
  | .clear _ => q

/-- Each operation is legal when its turn comes. -/
def LegalAll : List α → List (LinkOp α) → Prop
  | _, [] => True
  | q, o :: os => o.Legal q ∧ LegalAll (o.run r q) os

/-- One operation after the other. -/
def runAll (q : List α) (os : List (LinkOp α)) : List α := os.foldl (LinkOp.run r) q

variable {r} {q : List α}

/-- A legal operation links no item twice. -/
theorem LinkOp.nodup_run {o : LinkOp α} (h : q.Nodup) (ho : o.Legal q) : (o.run r q).Nodup := by
  cases o with
  | insert a => exact ((List.perm_orderedInsert r a q).nodup_iff).mpr (List.nodup_cons.mpr ⟨ho, h⟩)
  | remove a => exact h.erase a
  | clear a => exact h

/-- Legal operations link no item twice. -/
theorem nodup_runAll {os : List (LinkOp α)} (h : q.Nodup) (ho : LegalAll r q os) : (runAll r q os).Nodup := by
  induction os generalizing q with
  | nil => exact h
  | cons o os ih => exact ih (o.nodup_run h ho.1) ho.2

end

/-! ## Order -/

section
variable {β : Type*} [LinearOrder β] {key key' : α → β} {a : α} {q : List α}

/-- No item comes before one with a smaller key. -/
def KeySorted (key : α → β) (q : List α) : Prop := q.Pairwise fun x y => key x ≤ key y

theorem KeySorted.congr (hq : KeySorted key q) (hkey : ∀ x ∈ q, key' x = key x) : KeySorted key' q := by
  refine List.Pairwise.imp_of_mem ?_ hq
  intro x y hx hy hle
  rwa [hkey x hx, hkey y hy]

/-- An item is inserted by one key and has a larger one from then on: the items that follow it decide. -/
theorem keySorted_orderedInsert_iff (hq : KeySorted key q) (hkey : ∀ x ∈ q, key' x = key x)
    (ha : key a ≤ key' a) : KeySorted key' (q.orderedInsert (fun x y => key x < key y) a) ↔
      ∀ x ∈ q, key a < key x → key' a ≤ key x := by
  induction q with
  | nil => simp [KeySorted]
  | cons b q ih =>
    obtain ⟨hb, hq'⟩ := List.pairwise_cons.mp hq
    have hrest : KeySorted key' (b :: q) := hq.congr hkey
    by_cases hlt : key a < key b
    · have hafter : ∀ x ∈ b :: q, key a < key x := by
        intro x hx
        cases List.mem_cons.mp hx with
        | inl heq => exact heq ▸ hlt
        | inr hmem => exact hlt.trans_le (hb x hmem)
      rw [List.orderedInsert_cons, if_pos hlt, KeySorted, List.pairwise_cons]
      constructor
      · intro h x hx _
        rw [← hkey x hx]
        exact h.1 x hx
      · intro h
        refine ⟨fun x hx => ?_, hrest⟩
        rw [hkey x hx]
        exact h x hx (hafter x hx)
    · have hle : key' b ≤ key' a := by
        rw [hkey b List.mem_cons_self]
        exact (not_lt.mp hlt).trans ha
      have hfirst : ∀ x ∈ q.orderedInsert (fun x y => key x < key y) a, key' b ≤ key' x := by
        intro x hx
        cases (List.mem_orderedInsert _).mp hx with
        | inl heq => exact heq ▸ hle
        | inr hmem => exact (List.pairwise_cons.mp hrest).1 x hmem
      rw [List.orderedInsert_cons, if_neg hlt, KeySorted, List.pairwise_cons]
      have ih := ih hq' fun x hx => hkey x (List.mem_cons_of_mem b hx)
      rw [KeySorted] at ih
      rw [ih, List.forall_mem_cons]
      constructor
      · intro h
        exact ⟨fun hlt' => absurd hlt' hlt, h.2⟩
      · intro h
        exact ⟨hfirst, h.2⟩

/-- With one key throughout, the insertion keeps the order. -/
theorem KeySorted.orderedInsert (hq : KeySorted key q) (a : α) :
    KeySorted key (q.orderedInsert (fun x y => key x < key y) a) :=
  (keySorted_orderedInsert_iff hq (fun _ _ => rfl) (le_refl _)).mpr fun _ _ hlt => hlt.le

theorem KeySorted.erase [DecidableEq α] (hq : KeySorted key q) (a : α) : KeySorted key (q.erase a) :=
  List.Pairwise.sublist List.erase_sublist hq

end
end Cedos
