import Cedos.Lib.Bytes

/-!
# Words and bits in memory

A word in memory is a sequence of bytes in one of two orders, and a bit field shares its byte with
others. Writing and reading back is stated for both.
-/

namespace Cedos

/-! ## Lists in memory -/

/-- The bytes of `l` lie at offset `i`. -/
def LiesAt (m : ℕ → UInt8) (i : ℕ) (l : List UInt8) : Prop := ∀ j < l.length, m (i + j) = l.getD j 0

/-- Write the bytes of `l` at offset `i`. -/
def store (m : ℕ → UInt8) (i : ℕ) (l : List UInt8) : ℕ → UInt8 := blit m i (fun j => l.getD j 0) l.length

section Memory
variable {m m' : ℕ → UInt8} {i : ℕ} {l l' : List UInt8}

theorem LiesAt.left (h : LiesAt m i (l ++ l')) : LiesAt m i l := by
  intro j hj
  have hj' : j < (l ++ l').length := by simp; omega
  rw [h j hj', List.getD_eq_getElem?_getD, List.getElem?_append_left hj, ← List.getD_eq_getElem?_getD]

theorem LiesAt.right (h : LiesAt m i (l ++ l')) : LiesAt m (i + l.length) l' := by
  intro j hj
  have hj' : l.length + j < (l ++ l').length := by simp; omega
  rw [Nat.add_assoc, h _ hj', List.getD_eq_getElem?_getD, List.getElem?_append_right (by omega),
    Nat.add_sub_cancel_left, ← List.getD_eq_getElem?_getD]

theorem LiesAt.append (h : LiesAt m i l) (h' : LiesAt m (i + l.length) l') : LiesAt m i (l ++ l') := by
  intro j hj
  by_cases hlt : j < l.length
  · rw [h j hlt, List.getD_eq_getElem?_getD, List.getD_eq_getElem?_getD, List.getElem?_append_left hlt]
  · have hj' : j - l.length < l'.length := by simp at hj; omega
    have hat := h' (j - l.length) hj'
    rw [show i + l.length + (j - l.length) = i + j by omega] at hat
    rw [hat, List.getD_eq_getElem?_getD, List.getD_eq_getElem?_getD, List.getElem?_append_right (by omega)]

theorem LiesAt.peek (h : LiesAt m i l) : peek m i l.length = l := by
  refine Eq.trans (peek_congr fun j hj => ?_) (peek_getD l 0)
  simpa using h j hj

/-- Memory that agrees where the bytes lie. -/
theorem LiesAt.congr (h : LiesAt m i l) (hm : ∀ j < l.length, m' (i + j) = m (i + j)) : LiesAt m' i l := by
  intro j hj
  rw [hm j hj, h j hj]

theorem liesAt_store (m : ℕ → UInt8) (i : ℕ) (l : List UInt8) : LiesAt (store m i l) i l := by
  intro j hj
  rw [store, blit_of_mem (by omega) (by omega), Nat.add_sub_cancel_left]

theorem store_of_notMem {j : ℕ} (h : j < i ∨ i + l.length ≤ j) : store m i l j = m j :=
  blit_of_notMem h

/-- What is stored elsewhere leaves the bytes where they lie. -/
theorem LiesAt.store (h : LiesAt m i l) (k : ℕ) (x : List UInt8)
    (hk : i + l.length ≤ k ∨ k + x.length ≤ i) : LiesAt (store m k x) i l :=
  h.congr fun _ _ => store_of_notMem (by omega)

end Memory

/-! ## Words -/

/-- The order in which a host keeps the bytes of a word. -/
inductive ByteOrder
  | little
  | big
  deriving DecidableEq, Repr

namespace ByteOrder

def bytes16 (x : UInt16) : ByteOrder → List UInt8
  | little => [x.toUInt8, (x >>> 8).toUInt8]
  | big => [(x >>> 8).toUInt8, x.toUInt8]

def bytes32 (x : UInt32) : ByteOrder → List UInt8
  | little => [x.toUInt8, (x >>> 8).toUInt8, (x >>> 16).toUInt8, (x >>> 24).toUInt8]
  | big => [(x >>> 24).toUInt8, (x >>> 16).toUInt8, (x >>> 8).toUInt8, x.toUInt8]

/-- The word of 16 bits at offset `i`. -/
def word16 (m : ℕ → UInt8) (i : ℕ) : ByteOrder → UInt16
  | little => (m i).toUInt16 ||| ((m (i + 1)).toUInt16 <<< 8)
  | big => (m (i + 1)).toUInt16 ||| ((m i).toUInt16 <<< 8)

/-- The word of 32 bits at offset `i`. -/
def word32 (m : ℕ → UInt8) (i : ℕ) : ByteOrder → UInt32
  | little => (m i).toUInt32 ||| ((m (i + 1)).toUInt32 <<< 8) ||| ((m (i + 2)).toUInt32 <<< 16) |||
      ((m (i + 3)).toUInt32 <<< 24)
  | big => (m (i + 3)).toUInt32 ||| ((m (i + 2)).toUInt32 <<< 8) ||| ((m (i + 1)).toUInt32 <<< 16) |||
      ((m i).toUInt32 <<< 24)

variable {m : ℕ → UInt8} {i : ℕ}

@[simp] theorem length_bytes16 (x : UInt16) (o : ByteOrder) : (o.bytes16 x).length = 2 := by
  cases o <;> rfl

@[simp] theorem length_bytes32 (x : UInt32) (o : ByteOrder) : (o.bytes32 x).length = 4 := by
  cases o <;> rfl

/-- A word is made up of its bytes. -/
theorem or_bytes32 (x : UInt32) :
    x.toUInt8.toUInt32 ||| ((x >>> 8).toUInt8.toUInt32 <<< 8) |||
      ((x >>> 16).toUInt8.toUInt32 <<< 16) ||| ((x >>> 24).toUInt8.toUInt32 <<< 24) = x := by
  apply UInt32.toBitVec_inj.mp
  apply BitVec.eq_of_getLsbD_eq
  intro j hj
  simp only [UInt32.toBitVec_or, UInt32.toBitVec_shiftLeft, UInt8.toBitVec_toUInt32,
    UInt32.toBitVec_toUInt8, UInt32.toBitVec_shiftRight, BitVec.getLsbD_or]
  simp
  grind

theorem or_bytes16 (x : UInt16) : x.toUInt8.toUInt16 ||| ((x >>> 8).toUInt8.toUInt16 <<< 8) = x := by
  apply UInt16.toBitVec_inj.mp
  apply BitVec.eq_of_getLsbD_eq
  intro j hj
  simp only [UInt16.toBitVec_or, UInt16.toBitVec_shiftLeft, UInt8.toBitVec_toUInt16,
    UInt16.toBitVec_toUInt8, UInt16.toBitVec_shiftRight, BitVec.getLsbD_or]
  simp
  grind

theorem word32_bytes32 {o : ByteOrder} {x : UInt32} (h : LiesAt m i (o.bytes32 x)) : o.word32 m i = x := by
  have h0 := h 0 (by simp)
  have h1 := h 1 (by simp)
  have h2 := h 2 (by simp)
  have h3 := h 3 (by simp)
  cases o <;>
  · simp only [bytes32, Nat.add_zero, List.getD_cons_zero, List.getD_cons_succ] at h0 h1 h2 h3
    rw [word32, h0, h1, h2, h3]
    exact or_bytes32 x

theorem word16_bytes16 {o : ByteOrder} {x : UInt16} (h : LiesAt m i (o.bytes16 x)) : o.word16 m i = x := by
  have h0 := h 0 (by simp)
  have h1 := h 1 (by simp)
  cases o <;>
  · simp only [bytes16, Nat.add_zero, List.getD_cons_zero, List.getD_cons_succ] at h0 h1
    rw [word16, h0, h1]
    exact or_bytes16 x

theorem word32_congr {m' : ℕ → UInt8} {i' : ℕ} (o : ByteOrder) (h : ∀ j < 4, m (i + j) = m' (i' + j)) :
    o.word32 m i = o.word32 m' i' := by
  have h0 := h 0 (by omega)
  simp only [Nat.add_zero] at h0
  cases o <;> simp only [word32, h0, h 1 (by omega), h 2 (by omega), h 3 (by omega)]

theorem word16_congr {m' : ℕ → UInt8} {i' : ℕ} (o : ByteOrder) (h : ∀ j < 2, m (i + j) = m' (i' + j)) :
    o.word16 m i = o.word16 m' i' := by
  have h0 := h 0 (by omega)
  simp only [Nat.add_zero] at h0
  cases o <;> simp only [word16, h0, h 1 (by omega)]

end ByteOrder

/-! ## Bit fields -/

def bitAt (b : UInt8) (i : ℕ) : Bool := b.toBitVec.getLsbD i

/-- Write bit `i` of a byte. -/
def setBit (b : UInt8) (i : ℕ) (v : Bool) : UInt8 :=
  if v then b ||| (1 <<< UInt8.ofNat i) else b &&& ~~~(1 <<< UInt8.ofNat i)

/-- The lower half of a byte. -/
def lowOf (b : UInt8) : ℕ := (b &&& 15).toNat

/-- Write the lower half of a byte. -/
def setLow (b : UInt8) (n : ℕ) : UInt8 := (b &&& 240) ||| UInt8.ofNat (n % 16)

theorem bitAt_setBit (b : UInt8) {i j : ℕ} (v : Bool) (hi : i < 8) (hj : j < 8) :
    bitAt (setBit b i v) j = if i = j then v else bitAt b j := by
  have hmask : (1 <<< UInt8.ofNat i : UInt8).toBitVec.getLsbD j = decide (i = j) := by
    interval_cases i <;> interval_cases j <;> decide
  cases v with
  | false =>
    have hnot : (~~~(1 <<< UInt8.ofNat i) : UInt8).toBitVec.getLsbD j = !decide (i = j) := by
      rw [UInt8.toBitVec_not, BitVec.getLsbD_not, hmask]
      simp [hj]
    simp only [bitAt, setBit, Bool.false_eq_true, if_false, UInt8.toBitVec_and, BitVec.getLsbD_and, hnot]
    by_cases h : i = j <;> simp [h]
  | true =>
    simp only [bitAt, setBit, if_true, UInt8.toBitVec_or, BitVec.getLsbD_or, hmask]
    by_cases h : i = j <;> simp [h]

theorem bitAt_setLow (b : UInt8) (n : ℕ) {j : ℕ} (h0 : 4 ≤ j) (hj : j < 8) : bitAt (setLow b n) j = bitAt b j := by
  have hhigh : (240 : UInt8).toBitVec.getLsbD j = true := by
    interval_cases j <;> decide
  have hlow : (UInt8.ofNat (n % 16)).toBitVec.getLsbD j = false := by
    have hn : n % 16 < 16 := Nat.mod_lt _ (by omega)
    generalize n % 16 = r at hn
    interval_cases r <;> interval_cases j <;> decide
  simp only [bitAt, setLow, UInt8.toBitVec_or, UInt8.toBitVec_and, BitVec.getLsbD_or, BitVec.getLsbD_and,
    hhigh, hlow, Bool.and_true, Bool.or_false]

@[simp] theorem lowOf_setLow (b : UInt8) (n : ℕ) : lowOf (setLow b n) = n % 16 := by
  have hlow : (setLow b n) &&& 15 = UInt8.ofNat (n % 16) := by
    have hn : n % 16 < 16 := Nat.mod_lt _ (by omega)
    have hr : UInt8.ofNat (n % 16) &&& 15 = UInt8.ofNat (n % 16) := by
      generalize n % 16 = r at hn
      interval_cases r <;> decide
    have hz : (240 &&& 15 : UInt8) = 0 := by decide
    apply UInt8.toBitVec_inj.mp
    apply BitVec.eq_of_getLsbD_eq
    intro j hj
    have hr' := congrArg (fun b => b.toBitVec.getLsbD j) hr
    have hz' := congrArg (fun b => b.toBitVec.getLsbD j) hz
    simp only [UInt8.toBitVec_and, BitVec.getLsbD_and] at hr' hz'
    simp only [setLow, UInt8.toBitVec_and, UInt8.toBitVec_or, BitVec.getLsbD_and, BitVec.getLsbD_or,
      Bool.and_or_distrib_right, Bool.and_assoc, hz', hr']
    simp
  rw [lowOf, hlow]
  simp
  omega
end Cedos
