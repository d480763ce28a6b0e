import Mathlib.Data.List.Infix
import Mathlib.Tactic

/-!
# Searching a text

The first place at which a pattern begins, and what a longer text changes about it.
-/

namespace Cedos

universe u
variable {α : Type u} [DecidableEq α]

/-- The first position at which the pattern begins. -/
def indexOf (pat : List α) : List α → Option ℕ
  | [] => if pat = [] then some 0 else none
  | a :: t => if pat <+: a :: t then some 0 else (indexOf pat t).map (· + 1)

/-- The same from a position on. -/
def indexFrom (pat t : List α) (i : ℕ) : Option ℕ := (indexOf pat (t.drop i)).map (· + i)

variable {pat t u : List α} {i : ℕ}

theorem indexOf_eq_some_iff (hpat : pat ≠ []) :
    indexOf pat t = some i ↔ pat <+: t.drop i ∧ ∀ j < i, ¬pat <+: t.drop j := by
  induction t generalizing i with
  | nil => simp [indexOf, hpat]
  | cons a t ih =>
    by_cases h : pat <+: a :: t
    · simp only [indexOf, h, if_true, Option.some.injEq]
      constructor
      · rintro rfl
        exact ⟨h, by simp⟩
      · rintro ⟨-, hfirst⟩
        by_contra hne
        exact hfirst 0 (by omega) h
    · simp only [indexOf, h, if_false, Option.map_eq_some_iff]
      constructor
      · rintro ⟨k, hk, rfl⟩
        obtain ⟨hat, hbefore⟩ := ih.mp hk
        refine ⟨hat, fun j hj => ?_⟩
        cases j with
        | zero => exact h
        | succ j => exact hbefore j (by omega)
      · rintro ⟨hat, hbefore⟩
        cases i with
        | zero => exact absurd hat h
        | succ k => exact ⟨k, ih.mpr ⟨hat, fun j hj => hbefore (j + 1) (by omega)⟩, rfl⟩

theorem indexOf_eq_none_iff (hpat : pat ≠ []) : indexOf pat t = none ↔ ∀ j, ¬pat <+: t.drop j := by
  induction t with
  | nil => simp [indexOf, hpat]
  | cons a t ih =>
    by_cases h : pat <+: a :: t
    · simp only [indexOf, h, if_true]
      constructor
      · simp
      · intro hno
        exact absurd h (hno 0)
    · simp only [indexOf, h, if_false, Option.map_eq_none_iff, ih]
      constructor
      · intro hno j
        cases j with
        | zero => exact h
        | succ j => exact hno j
      · intro hno j
        exact hno (j + 1)

/-- What is found lies in the text. -/
theorem add_length_le_of_indexOf (hpat : pat ≠ []) (h : indexOf pat t = some i) : i + pat.length ≤ t.length := by
  have hlen := ((indexOf_eq_some_iff hpat).mp h).1.length_le
  have hpos := List.length_pos_iff.mpr hpat
  rw [List.length_drop] at hlen
  omega

omit [DecidableEq α] in
/-- A pattern that begins in the first part of a text, and early enough, lies in it. -/
theorem prefix_drop_append_iff {j : ℕ} (h : j + pat.length ≤ t.length) :
    pat <+: (t ++ u).drop j ↔ pat <+: t.drop j := by
  have hj : j ≤ t.length := by omega
  rw [List.drop_append_of_le_length hj]
  constructor
  · intro hp
    exact List.prefix_of_prefix_length_le hp (List.prefix_append _ _) (by simp; omega)
  · intro hp
    exact hp.trans (List.prefix_append _ _)

/-- A search that succeeds in the first part of a text is not changed by the rest. -/
theorem indexOf_append (hpat : pat ≠ []) (h : indexOf pat t = some i) : indexOf pat (t ++ u) = some i := by
  have hlen := add_length_le_of_indexOf hpat h
  rw [indexOf_eq_some_iff hpat] at h ⊢
  refine ⟨(prefix_drop_append_iff hlen).mpr h.1, fun j hj => ?_⟩
  rw [prefix_drop_append_iff (by omega)]
  exact h.2 j hj

omit [DecidableEq α] in
theorem singleton_prefix_drop_iff {a : α} {j : ℕ} : [a] <+: t.drop j ↔ t[j]? = some a := by
  rw [List.prefix_iff_getElem?]
  simp

theorem indexOf_singleton_append {a : α} (h : a ∉ t) : indexOf [a] (t ++ a :: u) = some t.length := by
  induction t with
  | nil => simp [indexOf]
  | cons b t ih =>
    rw [List.mem_cons, not_or] at h
    simp [indexOf, h.1, ih h.2]

theorem indexOf_singleton_eq_none_iff {a : α} : indexOf [a] t = none ↔ a ∉ t := by
  rw [indexOf_eq_none_iff (by simp), List.mem_iff_getElem?]
  simp [singleton_prefix_drop_iff]

omit [DecidableEq α] in
theorem pair_prefix_drop_iff {a b : α} {j : ℕ} : [a, b] <+: t.drop j ↔ t[j]? = some a ∧ t[j + 1]? = some b := by
  have h0 : (t.drop j)[0]? = t[j]? := by simp
  have h1 : (t.drop j)[1]? = t[j + 1]? := by simp
  rw [← h0, ← h1]
  rcases t.drop j with - | ⟨x, - | ⟨y, l⟩⟩
  · simp
  · simp [List.cons_prefix_cons]
  · simp [List.cons_prefix_cons, @eq_comm _ a x, @eq_comm _ b y]

omit [DecidableEq α] in
theorem triple_prefix_drop_iff {a b c : α} {j : ℕ} :
    [a, b, c] <+: t.drop j ↔ t[j]? = some a ∧ t[j + 1]? = some b ∧ t[j + 2]? = some c := by
  have h0 : (t.drop j)[0]? = t[j]? := by simp
  have h1 : (t.drop j)[1]? = t[j + 1]? := by simp
  have h2 : (t.drop j)[2]? = t[j + 2]? := by simp
  rw [← h0, ← h1, ← h2]
  rcases t.drop j with - | ⟨x, - | ⟨y, - | ⟨z, l⟩⟩⟩
  · simp
  · simp [List.cons_prefix_cons]
  · simp [List.cons_prefix_cons]
  · simp [List.cons_prefix_cons, @eq_comm _ a x, @eq_comm _ b y, @eq_comm _ c z]

end Cedos
