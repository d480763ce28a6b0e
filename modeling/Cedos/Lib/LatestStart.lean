import Mathlib.Algebra.Order.Group.Defs
import Mathlib.Algebra.Order.Group.Unbundled.Basic
import Mathlib.Algebra.BigOperators.Group.List.Basic
import Mathlib.Order.Bounds.Basic

/-!
# The latest start of a sequence of jobs

Jobs are done one after the other, in the order of a list, without a pause. Each
has a length and a time by which it has to be done. `latest` works from the last job
back to the first; it is the latest time at which the first job can be started such
that all are done in time.
-/

namespace Cedos

/-- Something to be done. -/
structure Job (α : Type*) where
  length : α
  due : α

namespace Job
variable {α : Type*} [AddCommGroup α]

/-- The jobs are begun at `t`, and each is done when it is due. -/
def OnTime [LE α] (t : α) : List (Job α) → Prop
  | [] => True
  | j :: js => t + j.length ≤ j.due ∧ OnTime (t + j.length) js

/-- The latest start of a job and those that follow it. -/
def latest [LinearOrder α] (j : Job α) : List (Job α) → α
  | [] => j.due - j.length
  | j' :: js => min (latest j' js) j.due - j.length

/-- How late the first job can be started for the job at place `i` to be done in time. -/
def slack (js : List (Job α)) (i : Fin js.length) : α :=
  (js.get i).due - ((js.take (i + 1)).map length).sum

@[simp]
theorem slack_zero (j : Job α) (js : List (Job α)) : slack (j :: js) 0 = j.due - j.length := by
  simp [slack]

@[simp]
theorem slack_succ (j : Job α) (js : List (Job α)) (i : Fin js.length) :
    slack (j :: js) i.succ = slack js i - j.length := by
  have htake : ((j :: js).take (i.succ + 1)).map length = j.length :: (js.take (i + 1)).map length := by
    simp
  rw [slack, slack, htake, List.sum_cons, sub_sub, add_comm]
  rfl

variable [LinearOrder α] [IsOrderedAddMonoid α]

theorem onTime_iff_le_latest (t : α) (j : Job α) (js : List (Job α)) : OnTime t (j :: js) ↔ t ≤ latest j js := by
  -- the jobs that follow are begun when this one is done
  induction js generalizing t j with
  | nil => simp [OnTime, latest, le_sub_iff_add_le]
  | cons j' js ih =>
    have htail := ih (t + j.length) j'
    rw [OnTime, htail, latest, le_sub_iff_add_le, le_min_iff, and_comm]

theorem isGreatest_latest (j : Job α) (js : List (Job α)) : IsGreatest {t | OnTime t (j :: js)} (latest j js) := by
  constructor
  · exact (onTime_iff_le_latest _ j js).mpr le_rfl
  · intro t ht
    exact (onTime_iff_le_latest t j js).mp ht

/-- Every job bounds the start, and one of them is the reason for it. -/
theorem isLeast_latest (j : Job α) (js : List (Job α)) : IsLeast (Set.range (slack (j :: js))) (latest j js) := by
  induction js generalizing j with
  | nil =>
    refine ⟨⟨0, slack_zero j []⟩, ?_⟩
    rintro - ⟨i, rfl⟩
    have hi : i = 0 := Fin.ext (by simp)
    rw [hi, slack_zero, latest]
  | cons j' js ih =>
    obtain ⟨⟨i, hi⟩, hlow⟩ := ih j'
    constructor
    · rcases min_choice (latest j' js) j.due with hmin | hmin
      · exact ⟨i.succ, by rw [slack_succ, hi, latest, hmin]⟩
      · exact ⟨0, by rw [slack_zero, latest, hmin]⟩
    · rintro - ⟨n, rfl⟩
      cases n using Fin.cases with
      | zero =>
        rw [slack_zero, latest]
        exact sub_le_sub_right (min_le_right _ _) _
      | succ n =>
        rw [slack_succ, latest]
        exact sub_le_sub_right ((min_le_left _ _).trans (hlow ⟨n, rfl⟩)) _

end Job

end Cedos
