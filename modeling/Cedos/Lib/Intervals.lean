import Mathlib.Tactic
import Mathlib.Order.Interval.Finset.Nat

/-!
# Separated interval lists

A finite set of positions kept as a list of half-open intervals that is strictly
sorted and in which no two intervals overlap or even touch. `place` adds one
interval and absorbs every interval it meets, so the list stays in that form.

`place` returns what lies before the new interval, the interval it grew to, and
what lies after it, because an in-place algorithm on a linked list needs all
three: the middle one is the node it ends up with.

## Main definitions

* `Ival`, `Separated`, `Covers` — intervals, the normal form, the set denoted.
* `place` — insertion with absorption.
* `place_separated`, `covers_place` — it keeps the normal form and adds exactly
  the new positions.
* `IsRunEnd`, `extendRun` — the contiguous run from a position, and how the first
  interval carries it on.
* `trimHead` — the front of the first interval is consumed.
-/

namespace Cedos

universe u

/-- A half-open interval `[lo, hi)`. -/
structure Ival (α : Type u) where
  lo : α
  hi : α
  deriving DecidableEq, Repr

/-- Where an interval went: the list before it, what it grew to, the list after. -/
structure Placed (α : Type u) where
  pre : List (Ival α)
  cur : Ival α
  post : List (Ival α)

section Last
variable {α : Type u} {r : α}

/-- Where the last interval ends; `r` when there is none. -/
def lastHi (r : α) (l : List (Ival α)) : α := (l.getLast?.map Ival.hi).getD r

@[simp] theorem lastHi_nil : lastHi r ([] : List (Ival α)) = r := rfl

@[simp] theorem lastHi_concat (l : List (Ival α)) (y : Ival α) : lastHi r (l ++ [y]) = y.hi := by
  simp [lastHi]

/-- A non-empty end of a list has the list's last interval. -/
theorem lastHi_of_suffix {l l' : List (Ival α)} (h : l <:+ l') (hne : l ≠ []) (r' : α) : lastHi r l = lastHi r' l' := by
  obtain ⟨t, rfl⟩ := h
  simp [lastHi, List.getLast?_append, List.getLast?_eq_some_getLast hne]

end Last

variable {α : Type u} [LinearOrder α]

def Placed.toList (r : Placed α) : List (Ival α) := r.pre ++ r.cur :: r.post

/-- Non-empty intervals, strictly sorted, pairwise disjoint and non-adjacent. -/
def Separated (l : List (Ival α)) : Prop :=
  (∀ x ∈ l, x.lo < x.hi) ∧ l.Pairwise fun x y => x.hi < y.lo

/-- The position `p` lies in one of the intervals. -/
def Covers (l : List (Ival α)) (p : α) : Prop := ∃ x ∈ l, x.lo ≤ p ∧ p < x.hi

/-- Add `x`, absorbing every interval it overlaps or touches. -/
def place (x : Ival α) : List (Ival α) → Placed α
  | [] => ⟨[], x, []⟩
  | y :: l =>
    if x.hi < y.lo then ⟨[], x, y :: l⟩
    else if y.hi < x.lo then
      let r := place x l
      ⟨y :: r.pre, r.cur, r.post⟩
    else place ⟨min x.lo y.lo, max x.hi y.hi⟩ l

section Basic
variable {x y : Ival α} {l : List (Ival α)}

@[simp] theorem separated_nil : Separated ([] : List (Ival α)) := by simp [Separated]

theorem separated_cons :
    Separated (y :: l) ↔ y.lo < y.hi ∧ (∀ z ∈ l, y.hi < z.lo) ∧ Separated l := by
  simp only [Separated, List.mem_cons, forall_eq_or_imp, List.pairwise_cons]
  tauto

theorem Separated.tail (h : Separated (y :: l)) : Separated l := (separated_cons.mp h).2.2

@[simp] theorem not_covers_nil (p : α) : ¬Covers [] p := by simp [Covers]

theorem covers_cons (p : α) : Covers (y :: l) p ↔ (y.lo ≤ p ∧ p < y.hi) ∨ Covers l p := by
  simp [Covers]

/-- Past the head of a separated list nothing is covered up to and including the
head's end. -/
theorem Separated.not_covers_tail (h : Separated (y :: l)) {p : α} (hp : p ≤ y.hi) : ¬Covers l p := by
  rintro ⟨z, hz, h0, -⟩
  have hsep := (separated_cons.mp h).2.1 z hz
  exact absurd (lt_of_lt_of_le hsep (le_trans h0 hp)) (lt_irrefl _)

end Basic

section Place
variable {x y : Ival α} {l : List (Ival α)}

/-- Touching intervals have an interval as their union. -/
theorem mem_union_of_touch (h0 : ¬x.hi < y.lo) (h1 : ¬y.hi < x.lo) (p : α) : (min x.lo y.lo ≤ p ∧ p < max x.hi y.hi) ↔
    (x.lo ≤ p ∧ p < x.hi) ∨ (y.lo ≤ p ∧ p < y.hi) := by
  simp only [min_le_iff, lt_max_iff]
  constructor
  · rintro ⟨hl | hl, hr | hr⟩
    · exact Or.inl ⟨hl, hr⟩
    · rcases lt_or_ge p x.hi with h | h
      · exact Or.inl ⟨hl, h⟩
      · exact Or.inr ⟨le_trans (not_lt.mp h0) h, hr⟩
    · rcases lt_or_ge p y.hi with h | h
      · exact Or.inr ⟨hl, h⟩
      · exact Or.inl ⟨le_trans (not_lt.mp h1) h, hr⟩
    · exact Or.inr ⟨hl, hr⟩
  · rintro (⟨hl, hr⟩ | ⟨hl, hr⟩)
    · exact ⟨Or.inl hl, Or.inl hr⟩
    · exact ⟨Or.inr hl, Or.inr hr⟩

/-- Every interval of the result starts where the new one or an old one did, and
ends where the new one or an old one did. -/
theorem ends_mem_place (x : Ival α) (l : List (Ival α)) :
    ∀ z ∈ (place x l).toList, (z.lo = x.lo ∨ ∃ y ∈ l, z.lo = y.lo) ∧ (z.hi = x.hi ∨ ∃ y ∈ l, z.hi = y.hi) := by
  induction l generalizing x with
  | nil => simp [place, Placed.toList]
  | cons y l ih =>
    intro z hz
    by_cases h0 : x.hi < y.lo
    · simp only [place, h0, if_true, Placed.toList, List.nil_append] at hz
      cases List.mem_cons.mp hz with
      | inl h => exact ⟨Or.inl (by rw [h]), Or.inl (by rw [h])⟩
      | inr h => exact ⟨Or.inr ⟨z, h, rfl⟩, Or.inr ⟨z, h, rfl⟩⟩
    by_cases h1 : y.hi < x.lo
    · simp only [place, h0, h1, if_true, if_false, Placed.toList, List.cons_append] at hz
      cases List.mem_cons.mp hz with
      | inl h =>
        subst h
        exact ⟨Or.inr ⟨z, List.mem_cons_self, rfl⟩, Or.inr ⟨z, List.mem_cons_self, rfl⟩⟩
      | inr h =>
        have hends := ih x z h
        refine ⟨hends.1.imp_right ?_, hends.2.imp_right ?_⟩
        · exact fun ⟨w, hw, e⟩ => ⟨w, List.mem_cons_of_mem _ hw, e⟩
        · exact fun ⟨w, hw, e⟩ => ⟨w, List.mem_cons_of_mem _ hw, e⟩
    · simp only [place, h0, h1, if_false] at hz
      have hends := ih _ z hz
      constructor
      · cases hends.1 with
        | inl h =>
          cases min_choice x.lo y.lo with
          | inl hm => exact Or.inl (h.trans hm)
          | inr hm => exact Or.inr ⟨y, List.mem_cons_self, h.trans hm⟩
        | inr h => exact Or.inr (h.imp fun w hw => ⟨List.mem_cons_of_mem _ hw.1, hw.2⟩)
      · cases hends.2 with
        | inl h =>
          cases max_choice x.hi y.hi with
          | inl hm => exact Or.inl (h.trans hm)
          | inr hm => exact Or.inr ⟨y, List.mem_cons_self, h.trans hm⟩
        | inr h => exact Or.inr (h.imp fun w hw => ⟨List.mem_cons_of_mem _ hw.1, hw.2⟩)

theorem place_separated (hx : x.lo < x.hi) (hl : Separated l) : Separated (place x l).toList := by
  induction l generalizing x with
  | nil => simp [place, Placed.toList, Separated, hx]
  | cons y l ih =>
    obtain ⟨hy, hsep, htl⟩ := separated_cons.mp hl
    by_cases h0 : x.hi < y.lo
    · simp only [place, h0, if_true, Placed.toList, List.nil_append]
      refine separated_cons.mpr ⟨hx, ?_, hl⟩
      intro z hz
      cases List.mem_cons.mp hz with
      | inl h => exact h ▸ h0
      | inr h => exact lt_trans h0 (lt_trans hy (hsep z h))
    by_cases h1 : y.hi < x.lo
    · simp only [place, h0, h1, if_true, if_false, Placed.toList, List.cons_append]
      refine separated_cons.mpr ⟨hy, ?_, ih hx htl⟩
      intro z hz
      cases (ends_mem_place x l z hz).1 with
      | inl h => exact h ▸ h1
      | inr h =>
        obtain ⟨w, hw, e⟩ := h
        exact e ▸ hsep w hw
    · simp only [place, h0, h1, if_false]
      exact ih (lt_of_le_of_lt (min_le_left _ _) (lt_of_lt_of_le hx (le_max_left _ _))) htl

/-- Insertion adds exactly the positions of the new interval. -/
theorem covers_place (x : Ival α) (l : List (Ival α)) (p : α) :
    Covers (place x l).toList p ↔ (x.lo ≤ p ∧ p < x.hi) ∨ Covers l p := by
  induction l generalizing x with
  | nil => simp [place, Placed.toList, covers_cons]
  | cons y l ih =>
    by_cases h0 : x.hi < y.lo
    · simp [place, h0, Placed.toList, covers_cons]
    by_cases h1 : y.hi < x.lo
    · simp only [place, h0, h1, if_true, if_false, Placed.toList, List.cons_append, covers_cons]
      rw [show (place x l).pre ++ (place x l).cur :: (place x l).post = (place x l).toList
        from rfl, ih]
      tauto
    · simp only [place, h0, h1, if_false, ih, mem_union_of_touch h0 h1, covers_cons]
      tauto

/-- What lies after the new interval was there before, at the end of the list. -/
theorem post_suffix_place (x : Ival α) (l : List (Ival α)) : (place x l).post <:+ l := by
  induction l generalizing x with
  | nil => simp [place]
  | cons y l ih =>
    by_cases h0 : x.hi < y.lo
    · simp [place, h0]
    by_cases h1 : y.hi < x.lo
    · simp only [place, h0, h1, if_true, if_false]
      exact (ih x).trans (List.suffix_cons y l)
    · simp only [place, h0, h1, if_false]
      exact (ih _).trans (List.suffix_cons y l)

/-- What lies before the new interval ends before it starts. -/
theorem hi_lt_of_mem_pre (x : Ival α) (l : List (Ival α)) : ∀ y ∈ (place x l).pre, y.hi < x.lo := by
  induction l generalizing x with
  | nil => simp [place]
  | cons y l ih =>
    intro z hz
    by_cases h0 : x.hi < y.lo
    · simp [place, h0] at hz
    by_cases h1 : y.hi < x.lo
    · simp only [place, h0, h1, if_true, if_false] at hz
      cases List.mem_cons.mp hz with
      | inl h => exact h ▸ h1
      | inr h => exact ih x z h
    · simp only [place, h0, h1, if_false] at hz
      exact lt_of_lt_of_le (ih _ z hz) (min_le_left _ _)

/-- The whole list lies after the new interval only if its first interval does. -/
theorem hi_lt_of_post_eq (h : (place x (y :: l)).post = y :: l) : x.hi < y.lo := by
  by_contra h0
  have hlen : (place x (y :: l)).post.length ≤ l.length := by
    by_cases h1 : y.hi < x.lo
    · simp only [place, h0, h1, if_true, if_false]
      exact (post_suffix_place x l).length_le
    · simp only [place, h0, h1, if_false]
      exact (post_suffix_place _ l).length_le
  rw [h, List.length_cons] at hlen
  omega

end Place

section RunEnd
variable {y : Ival α} {l : List (Ival α)} {r e : α}

/-- The contiguous run from `r` ends at `e`: everything in between is covered and
`e` is not. -/
structure IsRunEnd (l : List (Ival α)) (r e : α) : Prop where
  le : r ≤ e
  covered : ∀ p, r ≤ p → p < e → Covers l p
  stops : ¬Covers l e

/-- Let a run that has got to `e` go on to the end of the first interval, if it lies
in it. -/
def extendRun (l : List (Ival α)) (e : α) : α :=
  match l with
  | [] => e
  | y :: _ => if y.lo ≤ e ∧ e < y.hi then y.hi else e

theorem le_extendRun (l : List (Ival α)) (e : α) : e ≤ extendRun l e := by
  cases l with
  | nil => exact le_rfl
  | cons y l =>
    rw [extendRun]
    split_ifs with h
    · exact h.2.le
    · exact le_rfl

/-- The end of an interval of a separated list is not covered. -/
theorem Separated.not_covers_hi (h : Separated (y :: l)) : ¬Covers (y :: l) y.hi := by
  rw [covers_cons]
  intro hc
  cases hc with
  | inl hin => exact lt_irrefl _ hin.2
  | inr htl => exact h.not_covers_tail le_rfl htl

/-- A run that lies to the right of `r` reaches into the first interval only. -/
theorem Separated.head_of_covers (h : Separated (y :: l)) (hy : r ≤ y.lo)
    (hcov : ∀ p, r ≤ p → p < e → Covers (y :: l) p) (he : Covers (y :: l) e) :
    y.lo ≤ e ∧ e < y.hi := by
  cases (covers_cons e).mp he with
  | inl hin => exact hin
  | inr htl =>
    obtain ⟨z, hz, hlo, -⟩ := htl
    have hsep : y.hi < z.lo := (separated_cons.mp h).2.1 z hz
    have hne : r ≤ y.hi := le_trans hy (le_of_lt (separated_cons.mp h).1)
    exact absurd (hcov y.hi hne (lt_of_lt_of_le hsep hlo)) h.not_covers_hi

/-- Extending by the first interval reaches the end of the run. -/
theorem Separated.isRunEnd_extendRun (h : Separated l) (hlow : ∀ x ∈ l, r ≤ x.lo) (hre : r ≤ e)
    (hcov : ∀ p, r ≤ p → p < e → Covers l p) : IsRunEnd l r (extendRun l e) := by
  cases l with
  | nil => exact ⟨hre, hcov, not_covers_nil e⟩
  | cons y l =>
    have hy : r ≤ y.lo := hlow y List.mem_cons_self
    by_cases hin : y.lo ≤ e ∧ e < y.hi
    · rw [extendRun, if_pos hin]
      refine ⟨le_trans hre (le_of_lt hin.2), ?_, h.not_covers_hi⟩
      intro p hp hlt
      cases lt_or_ge p e with
      | inl hpe => exact hcov p hp hpe
      | inr hpe => exact (covers_cons p).mpr (Or.inl ⟨le_trans hin.1 hpe, hlt⟩)
    · rw [extendRun, if_neg hin]
      exact ⟨hre, hcov, fun he => hin (h.head_of_covers hy hcov he)⟩

/-- A non-empty run is the first interval. -/
theorem IsRunEnd.head (hr : IsRunEnd l r e) (h : Separated l) (hlow : ∀ x ∈ l, r ≤ x.lo)
    (hlt : r < e) : ∃ tl, l = ⟨r, e⟩ :: tl := by
  cases l with
  | nil => exact absurd (hr.covered r le_rfl hlt) (not_covers_nil r)
  | cons y l =>
    have hy : r ≤ y.lo := hlow y List.mem_cons_self
    have hin := h.head_of_covers hy (fun p h0 h1 => absurd h1 (not_lt.mpr h0))
      (hr.covered r le_rfl hlt)
    have hlo : y.lo = r := le_antisymm hin.1 hy
    have hhi : y.hi = e := by
      cases lt_trichotomy y.hi e with
      | inl hb => exact absurd (hr.covered y.hi (le_of_lt hin.2) hb) h.not_covers_hi
      | inr hb =>
        cases hb with
        | inl heq => exact heq
        | inr hgt =>
          exact absurd ((covers_cons e).mpr (Or.inl ⟨hlo ▸ hr.le, hgt⟩)) hr.stops
    exact ⟨l, by rw [← hlo, ← hhi]⟩

/-- No interval of a separated list ends after the last one. -/
theorem Separated.le_lastHi (h : Separated l) : ∀ x ∈ l, x.hi ≤ lastHi r l := by
  induction l with
  | nil => simp
  | cons y l ih =>
    intro x hx
    cases l with
    | nil =>
      obtain rfl := List.mem_singleton.mp hx
      exact le_rfl
    | cons z l =>
      have hlast : lastHi r (y :: z :: l) = lastHi r (z :: l) :=
        (lastHi_of_suffix (List.suffix_cons y (z :: l)) (by simp) r).symm
      rw [hlast]
      cases List.mem_cons.mp hx with
      | inr htl => exact ih h.tail x htl
      | inl heq =>
        obtain ⟨-, hsep, htl⟩ := separated_cons.mp h
        have hz : z.lo < z.hi := (separated_cons.mp htl).1
        have hlt : y.hi < z.hi := lt_trans (hsep z List.mem_cons_self) hz
        exact heq ▸ le_trans (le_of_lt hlt) (ih h.tail z List.mem_cons_self)

end RunEnd

section Trim
variable {y : Ival α} {l : List (Ival α)} {k r : α}

/-- The list with everything before `k`, which lies in the first interval or at its
end, taken away. -/
def trimHead (k : α) : List (Ival α) → List (Ival α)
  | [] => []
  | y :: l => if k = y.hi then l else ⟨k, y.hi⟩ :: l

theorem separated_trimHead (h : Separated (y :: l)) (hk : k ≤ y.hi) : Separated (trimHead k (y :: l)) := by
  by_cases he : k = y.hi
  · rw [trimHead, if_pos he]
    exact h.tail
  · rw [trimHead, if_neg he]
    exact separated_cons.mpr ⟨lt_of_le_of_ne hk he, (separated_cons.mp h).2⟩

/-- What is left starts at `k` or later. -/
theorem Separated.le_lo_trimHead (h : Separated (y :: l)) (hk : k ≤ y.hi) :
    ∀ x ∈ trimHead k (y :: l), k ≤ x.lo := by
  have hsep := (separated_cons.mp h).2.1
  intro x hx
  by_cases he : k = y.hi
  · rw [trimHead, if_pos he] at hx
    exact le_trans hk (le_of_lt (hsep x hx))
  · rw [trimHead, if_neg he] at hx
    cases List.mem_cons.mp hx with
    | inl h0 => exact h0 ▸ le_rfl
    | inr h0 => exact le_trans hk (le_of_lt (hsep x h0))

/-- What is left ends where it did. -/
theorem hi_mem_trimHead : ∀ x ∈ trimHead k l, ∃ z ∈ l, x.hi = z.hi := by
  intro x hx
  cases l with
  | nil => simp [trimHead] at hx
  | cons y l =>
    by_cases he : k = y.hi
    · rw [trimHead, if_pos he] at hx
      exact ⟨x, List.mem_cons_of_mem _ hx, rfl⟩
    · rw [trimHead, if_neg he] at hx
      cases List.mem_cons.mp hx with
      | inl h0 => exact ⟨y, List.mem_cons_self, h0 ▸ rfl⟩
      | inr h0 => exact ⟨x, List.mem_cons_of_mem _ h0, rfl⟩

theorem covers_of_covers_trimHead (hk : y.lo ≤ k) {p : α} (hp : Covers (trimHead k (y :: l)) p) :
    Covers (y :: l) p := by
  rw [covers_cons]
  by_cases he : k = y.hi
  · rw [trimHead, if_pos he] at hp
    exact Or.inr hp
  · rw [trimHead, if_neg he, covers_cons] at hp
    exact hp.imp_left fun hin => ⟨le_trans hk hin.1, hin.2⟩

/-- The run now starts at `k` and ends where it did. -/
theorem Separated.isRunEnd_trimHead (h : Separated (y :: l)) (hk : k ≤ y.hi) :
    IsRunEnd (trimHead k (y :: l)) k y.hi := by
  have hstop : ¬Covers l y.hi := h.not_covers_tail le_rfl
  by_cases he : k = y.hi
  · rw [trimHead, if_pos he]
    exact ⟨hk, fun p h0 h1 => absurd (lt_of_le_of_lt h0 h1) (by rw [he]; exact lt_irrefl _), hstop⟩
  · rw [trimHead, if_neg he]
    refine ⟨hk, fun p h0 h1 => (covers_cons p).mpr (Or.inl ⟨h0, h1⟩), ?_⟩
    rw [covers_cons]
    exact fun hc => hc.elim (fun hin => lt_irrefl _ hin.2) hstop

theorem lastHi_trimHead : lastHi k (trimHead k (y :: l)) = lastHi r (y :: l) := by
  cases l with
  | nil =>
    by_cases he : k = y.hi
    · rw [trimHead, if_pos he]
      exact he
    · rw [trimHead, if_neg he]
      rfl
  | cons z l =>
    have htail : lastHi r (y :: z :: l) = lastHi k (z :: l) :=
      (lastHi_of_suffix (List.suffix_cons y (z :: l)) (by simp) r).symm
    by_cases he : k = y.hi
    · rw [trimHead, if_pos he, htail]
    · rw [trimHead, if_neg he, htail]
      exact (lastHi_of_suffix (List.suffix_cons _ (z :: l)) (by simp) k).symm

end Trim
/-! ## Counting -/

section Count
variable {x y z : Ival ℕ} {l : List (Ival ℕ)}

/-- The number of positions in both intervals. -/
def Ival.common (x y : Ival ℕ) : ℕ := min x.hi y.hi - max x.lo y.lo

/-- What an interval has grown by behind it does not meet the intervals ahead. -/
theorem Ival.common_union (h0 : ¬x.hi < y.lo) (h1 : ¬y.hi < x.lo) (hx : x.lo ≤ x.hi) (hy : y.lo ≤ y.hi)
    (hz : y.hi < z.lo) : common ⟨min x.lo y.lo, max x.hi y.hi⟩ z = x.common z := by
  simp only [common]
  omega

theorem sum_common_beyond (h : Separated (y :: l)) (hx : x.hi < y.lo) : ((y :: l).map x.common).sum = 0 := by
  obtain ⟨hlt, hbeyond, -⟩ := separated_cons.mp h
  rw [List.sum_eq_zero_iff]
  intro n hn
  obtain ⟨z, hz, rfl⟩ := List.mem_map.mp hn
  have hlo : y.lo ≤ z.lo := by
    cases List.mem_cons.mp hz with
    | inl heq => rw [heq]
    | inr htl => exact (hlt.trans (hbeyond z htl)).le
  simp only [Ival.common]
  omega

open Classical in
/-- A separated list counts the covered positions of an interval one by one. -/
theorem card_covered (h : Separated l) : ((Finset.Ico x.lo x.hi).filter (Covers l)).card = (l.map x.common).sum := by
  induction l with
  | nil => simp
  | cons y l ih =>
    have hsplit : (Finset.Ico x.lo x.hi).filter (Covers (y :: l)) =
        Finset.Ico (max x.lo y.lo) (min x.hi y.hi) ∪ (Finset.Ico x.lo x.hi).filter (Covers l) := by
      ext p
      simp only [Finset.mem_filter, Finset.mem_union, Finset.mem_Ico, covers_cons, max_le_iff, lt_min_iff]
      tauto
    have hdisj : Disjoint (Finset.Ico (max x.lo y.lo) (min x.hi y.hi))
        ((Finset.Ico x.lo x.hi).filter (Covers l)) := by
      rw [Finset.disjoint_left]
      intro p hp hcov
      have hlt := (lt_min_iff.mp (Finset.mem_Ico.mp hp).2).2
      exact h.not_covers_tail hlt.le (Finset.mem_filter.mp hcov).2
    rw [hsplit, Finset.card_union_of_disjoint hdisj, Nat.card_Ico, ih h.tail]
    rfl

end Count

end Cedos
