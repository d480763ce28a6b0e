import Cedos.Lib.TailQueue
import Mathlib.Data.List.Perm.Subperm
import Mathlib.Data.List.Range
import Mathlib.Algebra.Order.Ring.Int
import Mathlib.Tactic.Ring

/-!
# Pools of items

Items are allocated in batches and never returned to the system: those not in use wait in a free list, which is
a tail queue with a count. An item is the address `calloc` gave out, and the addresses below `brk` are all
there are.
-/

namespace Cedos

/-- The free list with its count, and the addresses that have been given out. -/
structure ItemPool where
  free : TailQueues ℕ Unit
  count : ℤ
  brk : ℕ

namespace ItemPool

def empty : ItemPool := ⟨.init, 0, 0⟩

/-- An item goes to the head of the free list. -/
def put (p : ItemPool) (a : ℕ) : ItemPool := { p with free := p.free.insertHead () a, count := p.count + 1 }

def allocate (p : ItemPool) : ItemPool := { p with brk := p.brk + 1 }.put p.brk

/-- An item is taken off the free list. -/
def take (p : ItemPool) (a : ℕ) : ItemPool := { p with free := p.free.remove () a, count := p.count - 1 }

/-- A batch is allocated if no item is free. -/
def refill (batch : ℕ) (p : ItemPool) : ItemPool :=
  match p.free.first () with
  | none => allocate^[batch] p
  | some _ => p

/-- The first free item, after a batch has been allocated if there was none. -/
def get (batch : ℕ) (p : ItemPool) : ItemPool × Option ℕ :=
  let p := p.refill batch
  match p.free.first () with
  | none => (p, none)
  | some a => (p.take a, some a)

/-- The free list consists of these items, and they are counted. -/
structure Free (p : ItemPool) (F : List ℕ) : Prop where
  holds : p.free.Holds fun _ => F
  count : p.count = F.length
  below : ∀ a ∈ F, a < p.brk

namespace Free
variable {p : ItemPool} {F : List ℕ} {a : ℕ}

theorem empty : ItemPool.empty.Free [] := ⟨TailQueues.holds_init, rfl, by simp⟩

theorem nodup (h : p.Free F) : F.Nodup := h.holds.nodup ()

theorem first (h : p.Free F) : p.free.first () = F.head? := (h.holds.chain ()).read_eq

theorem put (h : p.Free F) (ha : a ∉ F) (hb : a < p.brk) : (p.put a).Free (a :: F) := by
  refine ⟨?_, ?_, ?_⟩
  · have hins := h.holds.insertHead (b := ()) (a := a) fun _ => ha
    have hL : (Function.update (fun _ => F) () (a :: F) : Unit → List ℕ) = fun _ => a :: F := by
      funext u
      rfl
    rw [hL] at hins
    exact hins
  · simp [ItemPool.put, h.count]
  · intro x hx
    rcases List.mem_cons.mp hx with rfl | hx
    · exact hb
    · exact h.below x hx

theorem take (h : p.Free (a :: F)) : (p.take a).Free F := by
  refine ⟨?_, ?_, ?_⟩
  · have hrem := h.holds.remove (b := ()) (a := a) List.mem_cons_self
    have hL : (Function.update (fun _ => a :: F) () ((a :: F).erase a) : Unit → List ℕ) = fun _ => F := by
      funext u
      exact List.erase_cons_head a F
    rw [hL] at hrem
    exact hrem
  · have hcount := h.count
    simp only [List.length_cons] at hcount
    simp only [ItemPool.take, hcount]
    push_cast
    ring
  · exact fun x hx => h.below x (List.mem_cons_of_mem a hx)

/-- A new item is free. -/
theorem allocate (h : p.Free F) : p.allocate.Free (p.brk :: F) := by
  have hnot : p.brk ∉ F := fun hmem => absurd (h.below _ hmem) (lt_irrefl _)
  have hwider : Free { p with brk := p.brk + 1 } F :=
    ⟨h.holds, h.count, fun x hx => (h.below x hx).trans (Nat.lt_succ_self _)⟩
  exact hwider.put hnot (Nat.lt_succ_self _)

theorem allocate_batch (h : p.Free F) (n : ℕ) : (ItemPool.allocate^[n] p).Free ((List.range' p.brk n).reverse ++ F) ∧
    (ItemPool.allocate^[n] p).brk = p.brk + n := by
  induction n with
  | zero => exact ⟨h, rfl⟩
  | succ n ih =>
    obtain ⟨hfree, hbrk⟩ := ih
    rw [Function.iterate_succ_apply']
    generalize ItemPool.allocate^[n] p = t at hfree hbrk
    refine ⟨?_, ?_⟩
    · have hone := hfree.allocate
      rw [hbrk] at hone
      rw [List.range'_concat, List.reverse_append]
      simpa using hone
    · change t.brk + 1 = _
      omega

/-- After it an item is free. -/
theorem refill (h : p.Free F) {batch : ℕ} (hpos : batch ≠ 0) : ∃ a F' n, (p.refill batch).Free (a :: F') ∧
    (p.refill batch).brk = p.brk + n ∧ (a :: F').Perm (List.range' p.brk n ++ F) ∧ (F ≠ [] → n = 0) := by
  cases F with
  | cons a F =>
    have hfirst : p.free.first () = some a := h.first
    rw [ItemPool.refill, hfirst]
    exact ⟨a, F, 0, h, rfl, by simp, fun _ => rfl⟩
  | nil =>
    have hfirst : p.free.first () = none := h.first
    obtain ⟨hfree, hbrk⟩ := h.allocate_batch batch
    rw [List.append_nil] at hfree
    rw [ItemPool.refill, hfirst]
    have hne : (List.range' p.brk batch).reverse ≠ [] := by
      rw [Ne, List.reverse_eq_nil_iff, List.range'_eq_nil_iff]
      exact hpos
    obtain ⟨a, F', hF⟩ := List.exists_cons_of_ne_nil hne
    rw [hF] at hfree
    refine ⟨a, F', batch, hfree, hbrk, ?_, fun hnil => absurd rfl hnil⟩
    rw [← hF, List.append_nil]
    exact List.reverse_perm _

/-- An item that was free or is new. -/
theorem get (h : p.Free F) {batch : ℕ} (hpos : batch ≠ 0) : ∃ p' a F' n, p.get batch = (p', some a) ∧ p'.Free F' ∧
    p'.brk = p.brk + n ∧ (a :: F').Perm (List.range' p.brk n ++ F) := by
  obtain ⟨a, F', n, hfree, hbrk, hperm, -⟩ := h.refill hpos
  have hfirst : (p.refill batch).free.first () = some a := hfree.first
  refine ⟨_, a, F', n, ?_, hfree.take, hbrk, hperm⟩
  rw [ItemPool.get]
  simp only [hfirst]

/-- The item is not free any more, and was not in use. -/
theorem get_perm (h : p.Free F) {n : ℕ} {F' : List ℕ} (hperm : (a :: F').Perm (List.range' p.brk n ++ F)) :
    (a :: F').Nodup ∧ ∀ b, b ∈ a :: F' ↔ (p.brk ≤ b ∧ b < p.brk + n) ∨ b ∈ F := by
  constructor
  · rw [hperm.nodup_iff, List.nodup_append]
    refine ⟨List.nodup_range', h.nodup, fun x hx y hy heq => ?_⟩
    have hx' := (List.mem_range'_1.mp hx).1
    have hy' := h.below y hy
    omega
  · intro b
    rw [hperm.mem_iff, List.mem_append, List.mem_range'_1]

end Free

/-- A list of different items is no longer than there are items. -/
theorem length_le_brk {as : List ℕ} {n : ℕ} (hnd : as.Nodup) (hbelow : ∀ a ∈ as, a < n) : as.length ≤ n := by
  have hsub : as ⊆ List.range n := fun a ha => List.mem_range.mpr (hbelow a ha)
  have hle := (List.subperm_of_subset hnd hsub).length_le
  rwa [List.length_range] at hle

end ItemPool
end Cedos
