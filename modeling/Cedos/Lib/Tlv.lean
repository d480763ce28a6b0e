import Mathlib.Tactic

/-!
# Walking a list of sized items

A parser of type-length-value items moves a pointer and a remaining length by the size it
reads at the pointer. It stops when nothing remains or at an item that ends the list.
Nothing is assumed about the sizes: an item of size `0` leaves pointer and length where
they are, and the walk never ends.
-/

namespace Cedos

variable (stop : ℕ → Bool) (size : ℕ → ℕ)

/-- The walk from position `i` with `len` bytes left stops within so many rounds. -/
def walkEnds : ℕ → ℕ → ℤ → Bool
  | 0, _, _ => false
  | fuel + 1, i, len =>
    decide (len ≤ 0) || stop i || walkEnds fuel (i + size i) (len - size i)

/-- The positions a walk over `len` bytes comes to. -/
inductive WalkReaches (len : ℤ) : ℕ → Prop
  | start : WalkReaches len 0
  | next {i : ℕ} (h : WalkReaches len i) (hlen : (i : ℤ) < len) (hstop : stop i = false) :
      WalkReaches len (i + size i)

/-- The positions a walk comes to in so many rounds and does not stop at. -/
def walkVisits : ℕ → ℕ → ℤ → List ℕ
  | 0, _, _ => []
  | fuel + 1, i, len =>
    if len ≤ 0 ∨ stop i = true then [] else i :: walkVisits fuel (i + size i) (len - size i)

variable {stop size} {len : ℤ} {i : ℕ}

theorem walkEnds_succ (hlen : (i : ℤ) < len) (hstop : stop i = false) (fuel : ℕ) :
    walkEnds stop size (fuel + 1) i (len - i) = walkEnds stop size fuel (i + size i) (len - (i + size i : ℕ)) := by
  have hleft : ¬len - i ≤ 0 := by omega
  have hmove : len - i - size i = len - (i + size i : ℕ) := by push_cast; ring
  simp [walkEnds, hleft, hstop, hmove]

/-- Without empty items every round leaves less, so as many rounds as bytes are enough. -/
theorem walkEnds_of_size_ne_zero
    (h : ∀ j, WalkReaches stop size len j → (j : ℤ) < len → stop j = false → size j ≠ 0) (n : ℕ)
    (hi : WalkReaches stop size len i) (hn : (len - i).toNat ≤ n) :
    walkEnds stop size (n + 1) i (len - i) = true := by
  induction n generalizing i with
  | zero =>
    have hle : len - i ≤ 0 := by omega
    simp [walkEnds, hle]
  | succ n ih =>
    by_cases hlen : (i : ℤ) < len
    · cases hstop : stop i with
      | true => simp [walkEnds, hstop]
      | false =>
        have hpos := h i hi hlen hstop
        rw [walkEnds_succ hlen hstop]
        refine ih (hi.next hlen hstop) ?_
        push_cast
        omega
    · have hle : len - i ≤ 0 := by omega
      simp [walkEnds, hle]

/-- At an empty item the walk is stuck. -/
theorem walkEnds_of_size_eq_zero (hlen : (i : ℤ) < len) (hstop : stop i = false)
    (hsize : size i = 0) (fuel : ℕ) : walkEnds stop size fuel i (len - i) = false := by
  induction fuel with
  | zero => rfl
  | succ fuel ih =>
    rw [walkEnds_succ hlen hstop, hsize]
    exact ih

/-- A walk that is stuck at a position it comes to is stuck from the start. -/
theorem WalkReaches.stuck (hi : WalkReaches stop size len i)
    (h : ∀ fuel, walkEnds stop size fuel i (len - i) = false) (fuel : ℕ) :
    walkEnds stop size fuel 0 len = false := by
  induction hi generalizing fuel with
  | start => simpa using h fuel
  | next _ hlen hstop ih =>
    refine ih (fun m => ?_) fuel
    cases m with
    | zero => rfl
    | succ m =>
      rw [walkEnds_succ hlen hstop]
      exact h m

/-- The walk stops if and only if it comes to no empty item. -/
theorem walkEnds_iff : (∃ fuel, walkEnds stop size fuel 0 len = true) ↔
    ∀ i, WalkReaches stop size len i → (i : ℤ) < len → stop i = false → size i ≠ 0 := by
  constructor
  · rintro ⟨fuel, hends⟩ i hi hlen hstop hsize
    have hstuck := hi.stuck (walkEnds_of_size_eq_zero hlen hstop hsize) fuel
    exact Bool.false_ne_true (hstuck.symm.trans hends)
  · intro h
    refine ⟨len.toNat + 1, ?_⟩
    simpa using walkEnds_of_size_ne_zero h len.toNat WalkReaches.start (by simp)

/-- If the walk stops at all, it stops after one round for each byte and one more. -/
theorem walkEnds_toNat (h : ∃ fuel, walkEnds stop size fuel 0 len = true) :
    walkEnds stop size (len.toNat + 1) 0 len = true := by
  simpa using walkEnds_of_size_ne_zero (walkEnds_iff.mp h) len.toNat WalkReaches.start (by simp)

section Visits
variable {j : ℕ}

theorem walkVisits_succ (hlen : (i : ℤ) < len) (hstop : stop i = false) (fuel : ℕ) :
    walkVisits stop size (fuel + 1) i (len - i) =
      i :: walkVisits stop size fuel (i + size i) (len - (i + size i : ℕ)) := by
  have hleft : ¬len - i ≤ 0 := by omega
  have hmove : len - i - size i = len - (i + size i : ℕ) := by push_cast; ring
  simp [walkVisits, hleft, hstop, hmove]

theorem WalkReaches.of_mem_walkVisits (hi : WalkReaches stop size len i) (fuel : ℕ)
    (hj : j ∈ walkVisits stop size fuel i (len - i)) :
    WalkReaches stop size len j ∧ (j : ℤ) < len ∧ stop j = false := by
  induction fuel generalizing i with
  | zero => simp [walkVisits] at hj
  | succ fuel ih =>
    by_cases hend : len - i ≤ 0 ∨ stop i = true
    · rw [walkVisits, if_pos hend] at hj
      cases hj
    · obtain ⟨hlen, hstop⟩ := not_or.mp hend
      have hlt : (i : ℤ) < len := by omega
      have hgo : stop i = false := Bool.eq_false_of_not_eq_true hstop
      rw [walkVisits_succ hlt hgo] at hj
      rcases List.mem_cons.mp hj with rfl | hj
      · exact ⟨hi, hlt, hgo⟩
      · exact ih (hi.next hlt hgo) hj

/-- What a walk visits from a position it comes to, it visits from the start. -/
theorem WalkReaches.mem_walkVisits_zero (hi : WalkReaches stop size len i) (fuel : ℕ)
    (hj : j ∈ walkVisits stop size fuel i (len - i)) :
    ∃ fuel, j ∈ walkVisits stop size fuel 0 len := by
  induction hi generalizing fuel with
  | start => exact ⟨fuel, by simpa using hj⟩
  | next _ hlen hstop ih =>
    refine ih (fuel + 1) ?_
    rw [walkVisits_succ hlen hstop]
    exact List.mem_cons_of_mem _ hj

/-- The positions visited are those the walk comes to and does not stop at. -/
theorem mem_walkVisits_iff : (∃ fuel, j ∈ walkVisits stop size fuel 0 len) ↔
    WalkReaches stop size len j ∧ (j : ℤ) < len ∧ stop j = false := by
  constructor
  · rintro ⟨fuel, hj⟩
    exact WalkReaches.start.of_mem_walkVisits fuel (by simpa using hj)
  · rintro ⟨hj, hlen, hstop⟩
    refine hj.mem_walkVisits_zero 1 ?_
    rw [walkVisits_succ hlen hstop]
    exact List.mem_cons_self

theorem walkVisits_of_ends {fuel : ℕ} (h : walkEnds stop size fuel i len = true) {more : ℕ}
    (hle : fuel ≤ more) : walkVisits stop size more i len = walkVisits stop size fuel i len := by
  induction fuel generalizing i len more with
  | zero => simp [walkEnds] at h
  | succ fuel ih =>
    obtain ⟨more, rfl⟩ : ∃ k, more = k + 1 := ⟨more - 1, by omega⟩
    simp only [walkVisits]
    split_ifs with hend
    · rfl
    · obtain ⟨hlen, hstop⟩ := not_or.mp hend
      simp only [walkEnds, hlen, hstop, decide_false, Bool.false_or] at h
      rw [ih h (by omega)]

theorem walkVisits_subset {fuel more : ℕ} (hle : fuel ≤ more)
    (hj : j ∈ walkVisits stop size fuel i len) : j ∈ walkVisits stop size more i len := by
  induction fuel generalizing i len more with
  | zero => simp [walkVisits] at hj
  | succ fuel ih =>
    obtain ⟨more, rfl⟩ : ∃ k, more = k + 1 := ⟨more - 1, by omega⟩
    simp only [walkVisits] at hj ⊢
    split_ifs with hend
    · simp [hend] at hj
    · rw [if_neg hend] at hj
      rcases List.mem_cons.mp hj with rfl | hj
      · exact List.mem_cons_self
      · exact List.mem_cons_of_mem _ (ih (by omega) hj)

/-- In a walk that ends, the visits of as many rounds as it may need are all of them. -/
theorem mem_walkVisits_toNat (h : ∃ fuel, walkEnds stop size fuel 0 len = true) :
    j ∈ walkVisits stop size (len.toNat + 1) 0 len ↔ WalkReaches stop size len j ∧ (j : ℤ) < len ∧ stop j = false := by
  rw [← mem_walkVisits_iff]
  refine ⟨fun hj => ⟨_, hj⟩, ?_⟩
  rintro ⟨fuel, hj⟩
  have hends := walkEnds_toNat h
  rcases Nat.le_total fuel (len.toNat + 1) with hle | hle
  · exact walkVisits_subset hle hj
  · rwa [walkVisits_of_ends hends hle] at hj

end Visits

end Cedos
