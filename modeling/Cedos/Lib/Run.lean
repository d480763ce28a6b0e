import Mathlib.Tactic

/-!
# Runs of an event-driven component

A component is given by its initial states, the events its environment may raise in
a state, and the deterministic effect of an event. Everything nondeterministic
(arrival order, loss, timers, the application) is in the choice of the next event,
so a run is a list of events and can be evaluated.

## Main definitions

* `Machine` — initial states, allowed events, effect.
* `Machine.Reachable`, `Machine.Reachable.invariant` — the states of all runs and the
  rule for showing something of every one of them.
* `Machine.restrict` — the runs all of whose steps meet a condition.
* `Machine.run`, `Machine.Admits` — one run, given by its events.
-/

namespace Cedos

universe u v

/-- A component with states `σ` driven by events `ε`. -/
structure Machine (σ : Type u) (ε : Type v) where
  init : σ → Prop
  allowed : σ → ε → Prop
  apply : σ → ε → σ

namespace Machine

variable {σ : Type u} {ε : Type v} {M : Machine σ ε}

/-- The states of all runs. -/
inductive Reachable (M : Machine σ ε) : σ → Prop
  | init {s : σ} (h : M.init s) : Reachable M s
  | step {s : σ} {e : ε} (hs : Reachable M s) (he : M.allowed s e) : Reachable M (M.apply s e)

/-- A property of the initial states that every step keeps holds in every run. -/
theorem Reachable.invariant {P : σ → Prop} (h0 : ∀ s, M.init s → P s)
    (h1 : ∀ s e, P s → M.allowed s e → P (M.apply s e)) {s : σ} (hs : M.Reachable s) : P s := by
  induction hs with
  | init h => exact h0 _ h
  | step _ he ih => exact h1 _ _ ih he

/-- The runs all of whose steps meet the condition `C`. -/
def restrict (M : Machine σ ε) (C : σ → ε → Prop) : Machine σ ε where
  init := M.init
  allowed s e := M.allowed s e ∧ C s e
  apply := M.apply

/-- Such runs are runs. -/
theorem Reachable.of_restrict {C : σ → ε → Prop} {s : σ} (hs : (M.restrict C).Reachable s) : M.Reachable s := by
  induction hs with
  | init h => exact .init h
  | step _ he ih => exact ih.step he.1

/-- The state after a list of events. -/
def run (M : Machine σ ε) (s : σ) (es : List ε) : σ := es.foldl M.apply s

/-- Each event of the list is allowed when its turn comes. -/
def Admits (M : Machine σ ε) : σ → List ε → Prop
  | _, [] => True
  | s, e :: es => M.allowed s e ∧ Admits M (M.apply s e) es

instance (C : σ → ε → Prop) [∀ s e, Decidable (M.allowed s e)] [∀ s e, Decidable (C s e)] (s : σ) (e : ε) :
    Decidable ((M.restrict C).allowed s e) :=
  inferInstanceAs (Decidable (_ ∧ _))

/-- A fixed run can be checked by evaluation. -/
instance decidableAdmits [∀ s e, Decidable (M.allowed s e)] : ∀ (s : σ) (es : List ε), Decidable (M.Admits s es)
  | _, [] => isTrue trivial
  | s, e :: es => @instDecidableAnd _ _ _ (decidableAdmits (M.apply s e) es)

/-- A property that every step keeps holds at the end of an admitted run. -/
theorem Admits.invariant {P : σ → Prop} (h1 : ∀ s e, P s → M.allowed s e → P (M.apply s e)) {s : σ}
    (hs : P s) {es : List ε} (h : M.Admits s es) : P (M.run s es) := by
  induction es generalizing s with
  | nil => exact hs
  | cons e es ih => exact ih (h1 s e hs h.1) h.2

/-- An admitted run stays among the reachable states. -/
theorem Reachable.run {s : σ} (hs : M.Reachable s) {es : List ε} (h : M.Admits s es) : M.Reachable (M.run s es) := by
  induction es generalizing s with
  | nil => exact hs
  | cons e es ih => exact ih (hs.step h.1) h.2

end Machine
end Cedos
