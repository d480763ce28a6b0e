import Mathlib.Data.List.Nodup
import Mathlib.Logic.Function.Basic

/-!
# Tail queues

The doubly linked lists of `sys/queue.h`, for any number of queues over one set of items. An item
carries the links itself: the address of the next item, and the address of the field that holds its
own address, which is the head of a queue or the `next` field of another item.

The operations write through these addresses and check nothing. `TailQueues.Holds` says which lists
the links make up; it is kept by an insertion of an item that is in none of the lists, by a removal
from the list the item is in, and by overwriting the links of an item that is in none.

## Main definitions

* `TailQueues`, `TailQueues.insertHead`, `TailQueues.insertTail`, `TailQueues.remove`, `TailQueues.reset`,
  `TailQueues.clear`, `TailQueues.find`.
* `TailQueues.Holds` — the lists in memory.
-/

namespace Cedos

universe u v

/-- The address of a field that holds the address of an item. -/
inductive Link (α : Type u) (β : Type v)
  | null
  /-- `tqh_first` of a queue -/
  | head (b : β)
  /-- `tqe_next` of an item -/
  | next (a : α)
  deriving DecidableEq, Repr

/-- The heads of the queues and the links of the items. -/
structure TailQueues (α : Type u) (β : Type v) where
  first : β → Option α
  last : β → Link α β
  next : α → Option α
  prev : α → Link α β

namespace TailQueues
variable {α : Type u} {β : Type v}

def init : TailQueues α β := ⟨fun _ => none, .head, fun _ => none, fun _ => .null⟩

/-- The item at an address. -/
def read (q : TailQueues α β) : Link α β → Option α
  | .null => none
  | .head b => q.first b
  | .next a => q.next a

/-- `TAILQ_FOREACH` up to the first item with the property, from an item on; `none` if the rounds do
not suffice. -/
def find (q : TailQueues α β) (p : α → Bool) : ℕ → Option α → Option (Option α)
  | _, none => some none
  | 0, some _ => none
  | fuel + 1, some a => if p a then some (some a) else q.find p fuel (q.next a)

/-- The items `TAILQ_FOREACH` visits in a number of rounds. -/
def visits (q : TailQueues α β) : ℕ → Option α → List α
  | _, none => []
  | 0, some _ => []
  | fuel + 1, some a => a :: q.visits fuel (q.next a)

section Operations
variable [DecidableEq α] [DecidableEq β]

/-- Write the address of an item to an address. -/
def write (q : TailQueues α β) (v : Option α) : Link α β → TailQueues α β
  | .null => q
  | .head b => { q with first := Function.update q.first b v }
  | .next a => { q with next := Function.update q.next a v }

/-- Write the address of its own address to an item, or to the end of the queue if there is none. -/
def setPrev (q : TailQueues α β) (b : β) (l : Link α β) : Option α → TailQueues α β
  | some a => { q with prev := Function.update q.prev a l }
  | none => { q with last := Function.update q.last b l }

/-- The links of an item are overwritten with zeros. -/
def clear (q : TailQueues α β) (a : α) : TailQueues α β :=
  { q with next := Function.update q.next a none, prev := Function.update q.prev a .null }

def insertHead (q : TailQueues α β) (b : β) (a : α) : TailQueues α β :=
  let q := q.write (q.first b) (.next a)
  let q := q.setPrev b (.next a) (q.first b)
  let q := q.write (some a) (.head b)
  { q with prev := Function.update q.prev a (.head b) }

def insertTail (q : TailQueues α β) (b : β) (a : α) : TailQueues α β :=
  let l := q.last b
  let q := { q with next := Function.update q.next a none, prev := Function.update q.prev a l }
  let q := q.write (some a) l
  { q with last := Function.update q.last b (.next a) }

/-- `TAILQ_INIT` of one queue; the links of its items stay. -/
def reset (q : TailQueues α β) (b : β) : TailQueues α β :=
  { q with first := Function.update q.first b none, last := Function.update q.last b (.head b) }

def remove (q : TailQueues α β) (b : β) (a : α) : TailQueues α β :=
  let q := q.setPrev b (q.prev a) (q.next a)
  let q := q.write (q.next a) (q.prev a)
  q.clear a

end Operations

/-! ## Lists in memory -/

/-- From the field at an address on, the items of the list follow up to the end of the queue. -/
def Chain (q : TailQueues α β) (b : β) : Link α β → List α → Prop
  | l, [] => q.read l = none ∧ q.last b = l
  | l, a :: as => q.read l = some a ∧ q.prev a = l ∧ q.Chain b (.next a) as

/-- The queues hold these lists, and an item is in one place at most. -/
structure Holds (q : TailQueues α β) (L : β → List α) : Prop where
  chain : ∀ b, q.Chain b (.head b) (L b)
  nodup : ∀ b, (L b).Nodup
  apart : ∀ b b' a, a ∈ L b → a ∈ L b' → b = b'

theorem holds_init : (init : TailQueues α β).Holds fun _ => [] where
  chain _ := ⟨rfl, rfl⟩
  nodup _ := List.nodup_nil
  apart b b' a ha := by simp at ha

section Chain
variable {q q' : TailQueues α β} {b : β} {l : Link α β} {as : List α} (h : q.Chain b l as)
include h

/-- A chain depends on the links of its items, on where it begins and on where the queue ends. -/
theorem Chain.congr (hread : q'.read l = q.read l) (hlast : q'.last b = q.last b)
    (hitem : ∀ a ∈ as, q'.next a = q.next a ∧ q'.prev a = q.prev a) : q'.Chain b l as := by
  induction as generalizing l with
  | nil =>
    rw [Chain, hread, hlast]
    exact h
  | cons a as ih =>
    obtain ⟨ha, hl, hrest⟩ := h
    obtain ⟨hnext, hprev⟩ := hitem a List.mem_cons_self
    refine ⟨hread.trans ha, hprev.trans hl, ih hrest hnext fun x hx => ?_⟩
    exact hitem x (List.mem_cons_of_mem _ hx)

theorem Chain.read_eq : q.read l = as.head? := by
  cases as with
  | nil => exact h.1
  | cons a as => exact h.1

/-- A search with enough rounds is a search of the list. -/
theorem Chain.find_eq (p : α → Bool) {fuel : ℕ} (hfuel : as.length ≤ fuel) :
    q.find p fuel (q.read l) = some (as.find? p) := by
  induction as generalizing l fuel with
  | nil =>
    rw [h.1, find]
    simp
  | cons a as ih =>
    obtain ⟨ha, -, hrest⟩ := h
    obtain ⟨fuel, rfl⟩ : ∃ n, fuel = n + 1 := ⟨fuel - 1, by simp at hfuel; omega⟩
    have hnext : q.find p fuel (q.next a) = some (as.find? p) := ih hrest (by simpa using hfuel)
    rw [ha, find, List.find?_cons]
    by_cases hp : p a = true
    · simp [hp]
    · simpa [hp] using hnext

theorem Chain.visits_eq {fuel : ℕ} (hfuel : as.length ≤ fuel) : q.visits fuel (q.read l) = as := by
  induction as generalizing l fuel with
  | nil =>
    rw [h.1, visits]
  | cons a as ih =>
    obtain ⟨ha, -, hrest⟩ := h
    obtain ⟨fuel, rfl⟩ : ∃ n, fuel = n + 1 := ⟨fuel - 1, by simp at hfuel; omega⟩
    have hnext : q.visits fuel (q.next a) = as := ih hrest (by simpa using hfuel)
    rw [ha, visits, hnext]

/-- The links determine the list. -/
theorem Chain.unique {as' : List α} (h' : q.Chain b l as') : as = as' := by
  induction as generalizing l as' with
  | nil =>
    cases as' with
    | nil => rfl
    | cons a' as' => exact absurd (h.1.symm.trans h'.1) (by simp)
  | cons a as ih =>
    cases as' with
    | nil => exact absurd (h.1.symm.trans h'.1) (by simp)
    | cons a' as' =>
      obtain rfl : a = a' := Option.some.inj (h.1.symm.trans h'.1)
      rw [ih h.2.2 h'.2.2]

/-- Where a queue ends. -/
theorem Chain.last_cases :
    (as = [] ∧ q.last b = l) ∨ ∃ y ∈ as, q.last b = .next y := by
  induction as generalizing l with
  | nil => exact .inl ⟨rfl, h.2⟩
  | cons c as ih =>
    rcases ih h.2.2 with ⟨-, hlast⟩ | ⟨y, hy, hlast⟩
    · exact .inr ⟨c, List.mem_cons_self, hlast⟩
    · exact .inr ⟨y, List.mem_cons_of_mem c hy, hlast⟩

end Chain

/-! ## The operations -/

theorem Holds.unique {q : TailQueues α β} {L L' : β → List α} (h : q.Holds L) (h' : q.Holds L') : L = L' :=
  funext fun b => (h.chain b).unique (h'.chain b)

section Clear
variable [DecidableEq α] {q : TailQueues α β} {L : β → List α} {a : α}

/-- An item that is in none of the lists may be overwritten. -/
theorem Holds.clear (h : q.Holds L) (ha : ∀ b, a ∉ L b) : (q.clear a).Holds L where
  chain b := by
    refine (h.chain b).congr rfl rfl fun x hx => ?_
    have hne : x ≠ a := fun heq => ha b (heq ▸ hx)
    simp [TailQueues.clear, hne]
  nodup := h.nodup
  apart := h.apart

end Clear

section Insert
variable [DecidableEq α] [DecidableEq β] {q : TailQueues α β} {L : β → List α} {a : α} {b : β}

omit [DecidableEq α] in
/-- A list may take in an item that is in none. -/
theorem Holds.apart_update (h : q.Holds L) (ha : ∀ b, a ∉ L b) {as : List α} (has : ∀ x ∈ as, x = a ∨ x ∈ L b) :
    ∀ b₁ b₂ x, x ∈ Function.update L b as b₁ → x ∈ Function.update L b as b₂ → b₁ = b₂ := by
  intro b₁ b₂ x h₁ h₂
  have hmem : ∀ b', x ∈ Function.update L b as b' → (x = a ∧ b' = b) ∨ x ∈ L b' := by
    intro b' hx
    by_cases hb : b' = b
    · subst hb
      rw [Function.update_self] at hx
      exact (has x hx).imp_left fun heq => ⟨heq, rfl⟩
    · rw [Function.update_of_ne hb] at hx
      exact .inr hx
  rcases hmem b₁ h₁ with ⟨hxa, hb₁⟩ | h₁ <;> rcases hmem b₂ h₂ with ⟨hxa', hb₂⟩ | h₂
  · rw [hb₁, hb₂]
  · exact absurd (hxa ▸ h₂) (ha b₂)
  · exact absurd (hxa' ▸ h₁) (ha b₁)
  · exact h.apart b₁ b₂ x h₁ h₂

section
variable (q : TailQueues α β)

theorem first_insertHead (b : β) (a : α) :
    (q.insertHead b a).first = Function.update q.first b (some a) := by
  simp only [insertHead, write]
  cases q.first b <;> rfl

theorem next_insertHead (b : β) (a : α) :
    (q.insertHead b a).next = Function.update q.next a (q.first b) := by
  simp only [insertHead, write]
  cases q.first b <;> rfl

theorem prev_insertHead (b : β) (a x : α) :
    (q.insertHead b a).prev x = if x = a then .head b else if q.first b = some x then .next a else q.prev x := by
  simp only [insertHead, write]
  cases hf : q.first b with
  | none => simp [setPrev, Function.update_apply]
  | some c => simp [setPrev, Function.update_apply, eq_comm]

theorem last_insertHead (b : β) (a : α) (b' : β) :
    (q.insertHead b a).last b' = if q.first b = none ∧ b' = b then .next a else q.last b' := by
  simp only [insertHead, write]
  cases hf : q.first b with
  | none => simp [setPrev, Function.update_apply]
  | some c => simp [setPrev]

end

/-- The list of the queue itself. -/
theorem Chain.insertHead {as : List α} (h : q.Chain b (.head b) as) (hnd : as.Nodup) (ha : a ∉ as) :
    (q.insertHead b a).Chain b (.head b) (a :: as) := by
  have hfirst : q.first b = as.head? := h.read_eq
  refine ⟨?_, ?_, ?_⟩
  · simp [read, first_insertHead]
  · simp [prev_insertHead]
  · cases as with
    | nil =>
      simp only [List.head?_nil] at hfirst
      constructor
      · simp [read, next_insertHead, hfirst]
      · simp [last_insertHead, hfirst]
    | cons c as =>
      obtain ⟨-, -, hrest⟩ := h
      simp only [List.head?_cons] at hfirst
      simp only [List.mem_cons, not_or] at ha
      refine ⟨?_, ?_, hrest.congr ?_ ?_ fun x hx => ?_⟩
      · simp [read, next_insertHead, hfirst]
      · simp [prev_insertHead, hfirst, Ne.symm ha.1]
      · simp [read, next_insertHead, Ne.symm ha.1]
      · simp [last_insertHead, hfirst]
      · have hxa : x ≠ a := fun heq => ha.2 (heq ▸ hx)
        have hcx : c ≠ x := fun heq => (List.nodup_cons.mp hnd).1 (heq ▸ hx)
        simp [next_insertHead, prev_insertHead, hfirst, hxa, hcx]

theorem Holds.insertHead (h : q.Holds L) (ha : ∀ b, a ∉ L b) :
    (q.insertHead b a).Holds (Function.update L b (a :: L b)) where
  chain b' := by
    by_cases hb : b' = b
    · subst hb
      rw [Function.update_self]
      exact (h.chain b').insertHead (h.nodup b') (ha b')
    · have hfirst : q.first b = (L b).head? := (h.chain b).read_eq
      rw [Function.update_of_ne hb]
      refine (h.chain b').congr ?_ ?_ fun x hx => ?_
      · simp [read, first_insertHead, hb]
      · simp [last_insertHead, hb]
      · have hxa : x ≠ a := fun heq => ha b' (heq ▸ hx)
        have hnot : q.first b ≠ some x := by
          intro heq
          rw [hfirst] at heq
          exact hb (h.apart b' b x hx (List.mem_of_mem_head? heq))
        simp [next_insertHead, prev_insertHead, hxa, hnot]
  nodup b' := by
    by_cases hb : b' = b
    · subst hb
      rw [Function.update_self]
      exact List.nodup_cons.mpr ⟨ha b', h.nodup b'⟩
    · rw [Function.update_of_ne hb]
      exact h.nodup b'
  apart := h.apart_update ha fun x hx => List.mem_cons.mp hx

/-! ### At the end -/

section
variable (q : TailQueues α β)

theorem read_insertTail (b : β) (a : α) {l : Link α β} (hl : l ≠ .null) (hla : l ≠ .next a) :
    (q.insertTail b a).read l = if l = q.last b then some a else q.read l := by
  cases hlast : q.last b with
  | null => simp [insertTail, hlast, write, hl]; cases l <;> simp_all [read]
  | head b' => cases l <;> simp_all [insertTail, write, read, Function.update_apply]
  | next x => cases l <;> simp_all [insertTail, write, read, Function.update_apply]

theorem prev_insertTail (b : β) (a x : α) :
    (q.insertTail b a).prev x = if x = a then q.last b else q.prev x := by
  cases hlast : q.last b <;> simp [insertTail, hlast, write, Function.update_apply]

theorem last_insertTail (b : β) (a : α) (b' : β) :
    (q.insertTail b a).last b' = if b' = b then .next a else q.last b' := by
  cases hlast : q.last b <;> simp [insertTail, hlast, write, Function.update_apply]

theorem next_insertTail_self {b : β} {a : α} (hlast : q.last b ≠ .next a) :
    (q.insertTail b a).next a = none := by
  cases hl : q.last b with
  | null => simp [insertTail, hl, write]
  | head b' => simp [insertTail, hl, write]
  | next x =>
    have hne : a ≠ x := fun heq => hlast (heq ▸ hl)
    simp [insertTail, hl, write, hne]

end

theorem Chain.insertTail {l : Link α β} {as : List α} (h : q.Chain b l as) (hnd : as.Nodup) (ha : a ∉ as)
    (hl : l ≠ .null) (hla : l ≠ .next a) (hlas : ∀ x ∈ as, l ≠ .next x) :
    (q.insertTail b a).Chain b l (as ++ [a]) := by
  induction as generalizing l with
  | nil =>
    obtain ⟨-, hlast⟩ := h
    refine ⟨?_, ?_, ?_, ?_⟩
    · rw [read_insertTail q b a hl hla, if_pos hlast.symm]
    · rw [prev_insertTail, if_pos rfl, hlast]
    · exact next_insertTail_self q (hlast ▸ hla)
    · rw [last_insertTail, if_pos rfl]
  | cons c as ih =>
    have hlast : l ≠ q.last b := by
      rcases h.last_cases with ⟨hnil, -⟩ | ⟨y, hy, hlast⟩
      · cases hnil
      · rw [hlast]
        exact hlas y hy
    obtain ⟨hread, hprev, hrest⟩ := h
    rw [List.mem_cons, not_or] at ha
    rw [List.nodup_cons] at hnd
    refine ⟨?_, ?_, ih hrest hnd.2 ha.2 (by simp) ?_ ?_⟩
    · rw [read_insertTail q b a hl hla, if_neg hlast, hread]
    · rw [prev_insertTail, if_neg (Ne.symm ha.1), hprev]
    · simpa using Ne.symm ha.1
    · intro x hx heq
      cases heq
      exact hnd.1 hx

theorem Holds.insertTail (h : q.Holds L) (ha : ∀ b, a ∉ L b) :
    (q.insertTail b a).Holds (Function.update L b (L b ++ [a])) where
  chain b' := by
    by_cases hb : b' = b
    · subst hb
      rw [Function.update_self]
      exact (h.chain b').insertTail (h.nodup b') (ha b') (by simp) (by simp) (by simp)
    · -- the end of the queue is in no other queue
      have hlast := (h.chain b).last_cases
      rw [Function.update_of_ne hb]
      refine (h.chain b').congr ?_ ?_ fun x hx => ?_
      · have hne : Link.head b' ≠ q.last b := by
          rcases hlast with ⟨-, heq⟩ | ⟨y, -, heq⟩
          · rw [heq]
            simpa using hb
          · simp [heq]
        rw [read_insertTail q b a (by simp) (by simp), if_neg hne]
      · rw [last_insertTail, if_neg hb]
      · have hxa : x ≠ a := fun heq => ha b' (heq ▸ hx)
        have hne : Link.next x ≠ q.last b := by
          rcases hlast with ⟨-, heq⟩ | ⟨y, hy, heq⟩
          · simp [heq]
          · rw [heq]
            intro hxy
            cases hxy
            exact hb (h.apart b' b x hx hy)
        have hnext := read_insertTail q b a (l := .next x) (by simp) (by simpa using hxa)
        rw [if_neg hne] at hnext
        exact ⟨hnext, by rw [prev_insertTail, if_neg hxa]⟩
  nodup b' := by
    by_cases hb : b' = b
    · subst hb
      rw [Function.update_self, List.nodup_append]
      refine ⟨h.nodup b', List.nodup_singleton a, fun x hx y hy heq => ha b' ?_⟩
      rw [← List.mem_singleton.mp hy, ← heq]
      exact hx
    · rw [Function.update_of_ne hb]
      exact h.nodup b'
  apart := h.apart_update ha fun x hx => (List.mem_append.mp hx).symm.imp_left List.mem_singleton.mp

end Insert

section Reset
variable [DecidableEq β] {q : TailQueues α β} {L : β → List α}

theorem Holds.reset (h : q.Holds L) (b : β) : (q.reset b).Holds (Function.update L b []) where
  chain b' := by
    by_cases hb : b' = b
    · subst hb
      rw [Function.update_self]
      exact ⟨Function.update_self .., Function.update_self ..⟩
    · rw [Function.update_of_ne hb]
      exact (h.chain b').congr (Function.update_of_ne hb _ _) (Function.update_of_ne hb _ _) fun x _ => ⟨rfl, rfl⟩
  nodup b' := by
    by_cases hb : b' = b
    · subst hb
      rw [Function.update_self]
      exact List.nodup_nil
    · rw [Function.update_of_ne hb]
      exact h.nodup b'
  apart b₁ b₂ x h₁ h₂ := by
    have hmem : ∀ b', x ∈ Function.update L b [] b' → x ∈ L b' := by
      intro b' hx
      by_cases hb : b' = b
      · rw [hb, Function.update_self] at hx
        exact absurd hx List.not_mem_nil
      · rwa [Function.update_of_ne hb] at hx
    exact h.apart b₁ b₂ x (hmem b₁ h₁) (hmem b₂ h₂)

end Reset

section Remove
variable [DecidableEq α] [DecidableEq β] {q : TailQueues α β} {L : β → List α} {a : α} {b : β}
  {l : Link α β}

section
variable (q : TailQueues α β) (b : β)

/-- Writing the link back leaves the one that is written through as it is. -/
theorem prev_setPrev (a : α) : (q.setPrev b (q.prev a) (q.next a)).prev a = q.prev a := by
  cases hn : q.next a with
  | none => rfl
  | some c => simp [setPrev, Function.update_apply]

theorem next_setPrev (l : Link α β) (o : Option α) : (q.setPrev b l o).next = q.next := by
  cases o <;> rfl

theorem first_setPrev (l : Link α β) (o : Option α) : (q.setPrev b l o).first = q.first := by
  cases o <;> rfl

theorem first_remove (a : α) (b' : β) :
    (q.remove b a).first b' = if q.prev a = .head b' then q.next a else q.first b' := by
  simp only [remove, prev_setPrev, next_setPrev, TailQueues.clear]
  cases hp : q.prev a <;> simp [write, first_setPrev, Function.update_apply, eq_comm]

theorem next_remove {a x : α} (hx : x ≠ a) :
    (q.remove b a).next x = if q.prev a = .next x then q.next a else q.next x := by
  simp only [remove, prev_setPrev, next_setPrev, TailQueues.clear, Function.update_of_ne hx]
  cases hp : q.prev a <;> simp [write, next_setPrev, Function.update_apply, eq_comm]

theorem prev_remove {a x : α} (hx : x ≠ a) :
    (q.remove b a).prev x = if q.next a = some x then q.prev a else q.prev x := by
  simp only [remove, prev_setPrev, next_setPrev, TailQueues.clear, Function.update_of_ne hx]
  cases hp : q.prev a <;> cases hn : q.next a <;>
    simp [write, setPrev, Function.update_apply, eq_comm]

theorem last_remove (a : α) (b' : β) :
    (q.remove b a).last b' = if q.next a = none ∧ b' = b then q.prev a else q.last b' := by
  simp only [remove, prev_setPrev, next_setPrev, TailQueues.clear]
  cases hp : q.prev a <;> cases hn : q.next a <;>
    simp [write, setPrev, Function.update_apply]

end

omit [DecidableEq α] [DecidableEq β] in
/-- An item of a chain is held by the field where the chain begins or by an item before it, and is
followed by the item after it. -/
theorem Chain.links {l₁ l₂ : List α} (h : q.Chain b l (l₁ ++ a :: l₂)) :
    (q.prev a = l ∨ ∃ x ∈ l₁, q.prev a = .next x) ∧ q.next a = l₂.head? := by
  induction l₁ generalizing l with
  | nil => exact ⟨.inl h.2.1, h.2.2.read_eq⟩
  | cons c l₁ ih =>
    obtain ⟨hprev, hnext⟩ := ih h.2.2
    refine ⟨.inr ?_, hnext⟩
    rcases hprev with heq | ⟨x, hx, heq⟩
    · exact ⟨c, List.mem_cons_self, heq⟩
    · exact ⟨x, List.mem_cons_of_mem _ hx, heq⟩

/-- The field that held the item holds the next one, any other field holds what it held. -/
theorem read_remove (q : TailQueues α β) (b : β) {a : α} {l : Link α β} (hl : l ≠ .null)
    (hla : l ≠ .next a) :
    (q.remove b a).read l = if q.prev a = l then q.next a else q.read l := by
  cases l with
  | null => simp at hl
  | head b' => exact first_remove q b a b'
  | next x => exact next_remove q b (by simpa using hla)

/-- The list of the queue itself. -/
theorem Chain.remove {l₁ l₂ : List α} (h : q.Chain b l (l₁ ++ a :: l₂)) (hnd : (l₁ ++ a :: l₂).Nodup)
    (hnull : l ≠ .null) (hl : ∀ x ∈ l₁ ++ a :: l₂, l ≠ .next x) :
    (q.remove b a).Chain b l (l₁ ++ l₂) := by
  induction l₁ generalizing l with
  | nil =>
    obtain ⟨-, hprev, hrest⟩ := h
    have hread : (q.remove b a).read l = q.next a := by
      rw [read_remove q b hnull (hl a (by simp)), if_pos hprev]
    have hnext : q.next a = l₂.head? := hrest.read_eq
    simp only [List.nil_append, List.nodup_cons] at hnd
    cases l₂ with
    | nil =>
      rw [List.head?_nil] at hnext
      refine ⟨hread.trans hnext, ?_⟩
      rw [last_remove, if_pos ⟨hnext, rfl⟩, hprev]
    | cons c l₂ =>
      rw [List.head?_cons] at hnext
      simp only [List.mem_cons, not_or, List.nodup_cons] at hnd
      have hca : c ≠ a := Ne.symm hnd.1.1
      refine ⟨hread.trans hnext, ?_, hrest.2.2.congr ?_ ?_ fun x hx => ?_⟩
      · rw [prev_remove q b hca, if_pos hnext, hprev]
      · rw [read, next_remove q b hca, hprev, if_neg (hl c (by simp))]
        rfl
      · rw [last_remove, hnext]
        simp
      · have hxa : x ≠ a := fun heq => hnd.1.2 (heq ▸ hx)
        have hcx : c ≠ x := fun heq => hnd.2.1 (heq ▸ hx)
        rw [next_remove q b hxa, prev_remove q b hxa, hprev, if_neg (hl x (by simp [hx])), hnext,
          if_neg (by simpa using hcx)]
        simp
  | cons c l₁ ih =>
    obtain ⟨hread, hprev, hrest⟩ := h
    obtain ⟨hheld, hnext⟩ := hrest.links
    simp only [List.cons_append, List.nodup_cons] at hnd
    have hca : c ≠ a := fun heq => hnd.1 (by simp [heq])
    have hheld' : q.prev a ≠ l := by
      rcases hheld with heq | ⟨x, hx, heq⟩
      · rw [heq]
        exact Ne.symm (hl c (by simp))
      · rw [heq]
        exact Ne.symm (hl x (by simp [hx]))
    have hnotc : q.next a ≠ some c := by
      intro heq
      rw [hnext] at heq
      exact hnd.1 (by simp [List.mem_of_mem_head? heq])
    refine ⟨?_, ?_, ih hrest hnd.2 (by simp) fun x hx => ?_⟩
    · rw [read_remove q b hnull (hl a (by simp)), if_neg hheld', hread]
    · rw [prev_remove q b hca, if_neg hnotc, hprev]
    · intro heq
      cases heq
      exact hnd.1 hx

theorem Holds.remove (h : q.Holds L) (ha : a ∈ L b) : (q.remove b a).Holds (Function.update L b ((L b).erase a)) := by
  obtain ⟨l₁, l₂, hL⟩ := List.append_of_mem ha
  have hnd := h.nodup b
  have hchain := h.chain b
  have herase : (L b).erase a = l₁ ++ l₂ := by
    have hnot : a ∉ l₁ := by
      rw [hL, List.nodup_append] at hnd
      exact fun hmem => hnd.2.2 a hmem a List.mem_cons_self rfl
    rw [hL, List.erase_append_right _ hnot, List.erase_cons_head]
  rw [hL] at hchain hnd
  obtain ⟨hheld, hnext⟩ := hchain.links
  have hsub : ∀ b' x, x ∈ Function.update L b ((L b).erase a) b' → x ∈ L b' := by
    intro b' x hx
    by_cases hb : b' = b
    · subst hb
      rw [Function.update_self] at hx
      exact List.mem_of_mem_erase hx
    · rwa [Function.update_of_ne hb] at hx
  refine ⟨fun b' => ?_, fun b' => ?_, fun b₁ b₂ x h₁ h₂ => h.apart b₁ b₂ x (hsub b₁ x h₁) (hsub b₂ x h₂)⟩
  · by_cases hb : b' = b
    · subst hb
      rw [Function.update_self, herase]
      exact hchain.remove hnd (by simp) (by simp)
    · -- nothing of another queue is written
      rw [Function.update_of_ne hb]
      refine (h.chain b').congr ?_ ?_ fun x hx => ?_
      · have hne : q.prev a ≠ .head b' := by
          rcases hheld with heq | ⟨x, -, heq⟩
          · rw [heq]
            simpa using Ne.symm hb
          · simp [heq]
        rw [read, first_remove, if_neg hne]
        rfl
      · simp [last_remove, hb]
      · have hnot : x ∉ l₁ ++ a :: l₂ := by
          intro hmem
          exact hb (h.apart b' b x hx (hL ▸ hmem))
        have hxa : x ≠ a := fun heq => hnot (by simp [heq])
        have hprev : q.prev a ≠ .next x := by
          rcases hheld with heq | ⟨y, hy, heq⟩
          · simp [heq]
          · intro hyx
            rw [heq] at hyx
            cases hyx
            exact hnot (by simp [hy])
        have hsome : q.next a ≠ some x := by
          intro heq
          rw [hnext] at heq
          exact hnot (by simp [List.mem_of_mem_head? heq])
        rw [next_remove q b hxa, prev_remove q b hxa, if_neg hprev, if_neg hsome]
        simp
  · by_cases hb : b' = b
    · subst hb
      rw [Function.update_self]
      exact (h.nodup b').erase a
    · rw [Function.update_of_ne hb]
      exact h.nodup b'

end Remove

end TailQueues
end Cedos
