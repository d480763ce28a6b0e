import Mathlib.Tactic

/-!
# Buffers that hold a window of a stream

A buffer is a function from offsets to values; what lies beyond the allocated
size is never consulted by a statement. `blit` and `move` are `memcpy` and
`memmove`, and `peek` reads a run of values back as a list.

`Holds m base S P` says that the buffer `m`, whose offset `0` stands for the stream
position `base`, agrees with the stream `S` on the positions `P`. A transport's send
and receive buffers are both such windows: values are copied in, the buffer slides,
and runs are read out, and each of those is one lemma below.
-/

namespace Cedos

universe u
variable {α : Type u}

/-- `memcpy (m + off, src, n)`. -/
def blit (m : ℕ → α) (off : ℕ) (src : ℕ → α) (n : ℕ) : ℕ → α := fun i =>
  if off ≤ i ∧ i < off + n then src (i - off) else m i

/-- `memmove (m + dst, m + src, n)`: the source is read before it is written. -/
def move (m : ℕ → α) (dst src n : ℕ) : ℕ → α :=
  blit m dst (fun i => m (src + i)) n

/-- The `n` values of `m` from offset `off` on. -/
def peek (m : ℕ → α) (off n : ℕ) : List α := (List.range n).map fun i => m (off + i)

section
variable (m : ℕ → α)

@[simp] theorem length_peek (off n : ℕ) : (peek m off n).length = n := by
  simp [peek]

theorem getElem_peek (off n i : ℕ) (hi : i < (peek m off n).length) : (peek m off n)[i] = m (off + i) := by
  simp [peek]

/-- Reading on from where a read stopped. -/
theorem peek_add (off n k : ℕ) : peek m off (n + k) = peek m off n ++ peek m (off + n) k := by
  simp only [peek, List.range_add, List.map_append, List.map_map]
  congr 1
  apply List.map_congr_left
  intro i _
  simp [Nat.add_assoc]

theorem take_peek_append (off : ℕ) {n k : ℕ} (h : n ≤ k) (l : List α) :
    (peek m off k ++ l).take n = peek m off n := by
  obtain ⟨k, rfl⟩ := Nat.exists_eq_add_of_le h
  rw [peek_add, List.append_assoc, List.take_left' (length_peek ..)]

theorem take_add_peek_append (off n k : ℕ) (l : List α) :
    (peek m off n ++ l).take (n + k) = peek m off n ++ l.take k := by
  rw [List.take_append, length_peek, List.take_of_length_le (by simp), Nat.add_sub_cancel_left]

end

theorem peek_congr {m m' : ℕ → α} {off off' n : ℕ}
    (h : ∀ i < n, m (off + i) = m' (off' + i)) : peek m off n = peek m' off' n := by
  apply List.map_congr_left
  intro i hi
  exact h i (List.mem_range.mp hi)

/-- Reading a list back from the function of its elements. -/
theorem peek_getD (l : List α) (d : α) : peek (fun i => l.getD i d) 0 l.length = l := by
  apply List.ext_getElem
  · simp
  · intro i h0 h1
    rw [getElem_peek, Nat.zero_add]
    simp [h1]

/-- The same for a part of the list. -/
theorem peek_getD_slice (l : List α) (d : α) {s n : ℕ} (h : s + n ≤ l.length) :
    peek (fun i => l.getD i d) s n = (l.drop s).take n := by
  apply List.ext_getElem
  · simp
    omega
  · intro i h0 h1
    have hi : s + i < l.length := by
      rw [length_peek] at h0
      omega
    rw [getElem_peek]
    simp [hi]

theorem blit_of_mem {m src : ℕ → α} {off n i : ℕ} (h0 : off ≤ i) (h1 : i < off + n) :
    blit m off src n i = src (i - off) := if_pos ⟨h0, h1⟩

theorem blit_of_notMem {m src : ℕ → α} {off n i : ℕ} (h : i < off ∨ off + n ≤ i) :
    blit m off src n i = m i := if_neg (by omega)

@[simp] theorem move_zero (m : ℕ → α) (dst src : ℕ) : move m dst src 0 = m := by
  funext i
  exact blit_of_notMem (by omega)

/-- The buffer `m`, whose offset `0` stands for position `base`, agrees with the
stream on the positions `P`. -/
def Holds (m : ℕ → α) (base : ℕ) (S : ℕ → α) (P : ℕ → Prop) : Prop :=
  ∀ p, P p → m (p - base) = S p

namespace Holds
variable {m src S : ℕ → α} {base : ℕ} {P Q : ℕ → Prop}

theorem mono (H : Holds m base S P) (h : ∀ p, Q p → P p) : Holds m base S Q :=
  fun p hp => H p (h p hp)

/-- Copying stream values in adds their positions. -/
theorem blit (H : Holds m base S P) (hb : ∀ p, P p → base ≤ p) {off n q : ℕ}
    (hoff : base + off = q) (hsrc : ∀ i < n, src i = S (q + i)) :
    Holds (blit m off src n) base S fun p => (q ≤ p ∧ p < q + n) ∨ P p := by
  intro p hp
  by_cases hin : q ≤ p ∧ p < q + n
  · have hidx : p - base - off < n := by omega
    rw [blit_of_mem (by omega) (by omega), hsrc _ hidx]
    congr 1
    omega
  · have hold : P p := hp.resolve_left hin
    have hbp := hb p hold
    rw [blit_of_notMem (by omega)]
    exact H p hold

/-- Sliding the buffer by `n` makes offset `0` stand for `base + n`; the positions
that stay must be among the `k` moved. -/
theorem slide (H : Holds m base S P) {n k : ℕ}
    (hk : ∀ p, P p → base + n ≤ p ∧ p < base + n + k) :
    Holds (move m 0 n k) (base + n) S P := by
  intro p hp
  have hrange := hk p hp
  rw [move, blit_of_mem (by omega) (by omega), ← H p hp]
  congr 1
  omega

/-- Reading a run of held positions yields the stream. -/
theorem peek_eq (H : Holds m base S P) {q n : ℕ} (hb : base ≤ q)
    (h : ∀ p, q ≤ p → p < q + n → P p) : peek m (q - base) n = peek S q n := by
  apply peek_congr
  intro i hi
  rw [← H (q + i) (h _ (by omega) (by omega))]
  congr 1
  omega

end Holds
end Cedos
