import Mathlib.Data.Nat.Digits.Lemmas
import Mathlib.Tactic

/-!
# JSON texts

Arrays of flat objects: the values are strings and integers. A text is a sequence of UTF-16 units.
Writing is without white space, and reading stops at the end of what it has been asked for, so that a
text can be followed by anything.
-/

namespace Cedos.Json

/-- A sequence of UTF-16 units. -/
abbrev Units := List UInt16

/-- A value. -/
inductive Scalar
  | str (s : Units)
  | num (n : ℤ)
  deriving DecidableEq, Repr

abbrev Member := Units × Scalar

/-- Something that can be read is followed by a unit that is not part of a number. -/
def Delimited (t : Units) : Prop := ∀ c ∈ t.head?, ¬(c = 45 ∨ (48 ≤ c ∧ c ≤ 57))

/-- What `write` writes, `read` reads, up to a delimiter. -/
def RoundTrips {α : Type*} (write : α → Units) (read : Units → Option (α × Units)) : Prop :=
  ∀ a rest, Delimited rest → read (write a ++ rest) = some (a, rest)

/-! ## Strings -/

/-- A hexadecimal digit. -/
def hex (n : ℕ) : UInt16 := if n < 10 then UInt16.ofNat (48 + n) else UInt16.ofNat (87 + n)

/-- The value of a hexadecimal digit. -/
def unhex (c : UInt16) : ℕ := if c < 58 then c.toNat - 48 else c.toNat - 87

/-- The control characters with an escape of their own. -/
def shortEscapes : List (UInt16 × UInt16) := [(9, 116), (8, 98), (10, 110), (13, 114), (12, 102)]

/-- A character of a string. -/
def escape (c : UInt16) : Units :=
  if c = 34 ∨ c = 92 ∨ c = 47 then [92, c]
  else match shortEscapes.lookup c with
    | some k => [92, k]
    | none =>
      if c < 32 then [92, 117, 48, 48, hex (c.toNat / 16), hex (c.toNat % 16)] else [c]

def quote (s : Units) : Units := 34 :: (s.flatMap escape ++ [34])

def readChar : Units → Option (UInt16 × Units)
  | [] => none
  | c :: t =>
    if c ≠ 92 then some (c, t)
    else match t with
      | 117 :: a :: b :: c :: d :: t =>
        some (UInt16.ofNat (((unhex a * 16 + unhex b) * 16 + unhex c) * 16 + unhex d), t)
      | k :: t => some (((shortEscapes.find? (·.2 = k)).map Prod.fst).getD k, t)
      | [] => none

/-- The characters up to the closing quote; there are not more of them than units in the first
argument. -/
def readChars : Units → Units → Option (Units × Units)
  | [], _ => none
  | _ :: n, t =>
    if t.head? = some 34 then some ([], t.tail)
    else match readChar t with
      | none => none
      | some (c, t) => (readChars n t).map fun r => (c :: r.1, r.2)

def readString (t : Units) : Option (Units × Units) :=
  if t.head? = some 34 then readChars t t.tail else none

theorem escape_cases (c : UInt16) :
    ((c = 34 ∨ c = 92 ∨ c = 47) ∧ escape c = [92, c]) ∨
    (∃ k, (c, k) ∈ shortEscapes ∧ escape c = [92, k]) ∨
    (c < 32 ∧ escape c = [92, 117, 48, 48, hex (c.toNat / 16), hex (c.toNat % 16)]) ∨
    (c ≠ 34 ∧ c ≠ 92 ∧ escape c = [c]) := by
  by_cases hquoted : c = 34 ∨ c = 92 ∨ c = 47
  · exact .inl ⟨hquoted, by simp [escape, hquoted]⟩
  · cases hshort : shortEscapes.lookup c with
    | some k =>
      refine .inr (.inl ⟨k, ?_, by simp [escape, hquoted, hshort]⟩)
      obtain ⟨l, r, hlr, -⟩ := List.lookup_eq_some_iff.mp hshort
      rw [hlr]
      simp
    | none =>
      by_cases hlow : c < 32
      · exact .inr (.inr (.inl ⟨hlow, by simp [escape, hquoted, hshort, hlow]⟩))
      · rw [not_or, not_or] at hquoted
        exact .inr (.inr (.inr ⟨hquoted.1, hquoted.2.1, by simp [escape, hquoted, hshort, hlow]⟩))

theorem unhex_hex : ∀ n < 16, unhex (hex n) = n := by decide

/-- A character is read back, and its text does not begin with a quote. -/
theorem readChar_escape (c : UInt16) (rest : Units) :
    readChar (escape c ++ rest) = some (c, rest) ∧ (escape c ++ rest).head? ≠ some 34 := by
  rcases escape_cases c with ⟨hc, he⟩ | ⟨k, hk, he⟩ | ⟨hc, he⟩ | ⟨hquote, hback, he⟩
  · rw [he]
    rcases hc with rfl | rfl | rfl
    · simp [readChar, shortEscapes]
    · simp [readChar, shortEscapes]
    · simp [readChar, shortEscapes]
  · rw [he]
    simp only [shortEscapes, List.mem_cons, Prod.mk.injEq, List.not_mem_nil, or_false] at hk
    rcases hk with ⟨rfl, rfl⟩ | ⟨rfl, rfl⟩ | ⟨rfl, rfl⟩ | ⟨rfl, rfl⟩ | ⟨rfl, rfl⟩
    all_goals simp [readChar, shortEscapes]
  · have hlt : c.toNat < 32 := by simpa [UInt16.lt_iff_toNat_lt] using hc
    rw [he]
    simp only [List.cons_append, readChar, List.nil_append]
    rw [unhex_hex _ (by omega), unhex_hex _ (by omega)]
    have hzero : unhex 48 = 0 := by decide
    have hvalue : ((unhex 48 * 16 + unhex 48) * 16 + c.toNat / 16) * 16 + c.toNat % 16 = c.toNat := by
      rw [hzero]
      omega
    simp [hvalue]
  · rw [he]
    simp [readChar, hquote, hback]

theorem readChars_escape (s rest : Units) {n : Units} (hn : s.length < n.length) :
    readChars n (s.flatMap escape ++ 34 :: rest) = some (s, rest) := by
  induction s generalizing n with
  | nil =>
    cases n with
    | nil => simp at hn
    | cons _ n => simp [readChars]
  | cons c s ih =>
    cases n with
    | nil => simp at hn
    | cons _ n =>
      obtain ⟨hread, hhead⟩ := readChar_escape c (s.flatMap escape ++ 34 :: rest)
      rw [List.flatMap_cons, List.append_assoc, readChars, if_neg hhead, hread]
      simp [ih (by simpa using hn)]

theorem length_le_escape (s : Units) : s.length ≤ (s.flatMap escape).length := by
  induction s with
  | nil => simp
  | cons c s ih =>
    have hpos : 1 ≤ (escape c).length := by
      rcases escape_cases c with ⟨-, he⟩ | ⟨k, -, he⟩ | ⟨-, he⟩ | ⟨-, -, he⟩
      all_goals simp [he]
    simp only [List.length_cons, List.flatMap_cons, List.length_append]
    omega

theorem readString_quote (s rest : Units) : readString (quote s ++ rest) = some (s, rest) := by
  have hlen := length_le_escape s
  have hquote : quote s ++ rest = 34 :: (s.flatMap escape ++ 34 :: rest) := by simp [quote]
  rw [hquote, readString, if_pos (by simp), List.tail_cons]
  apply readChars_escape
  simp only [List.length_cons, List.length_append]
  omega

/-! ## Numbers -/

def digits (n : ℕ) : Units :=
  if n = 0 then [48] else (Nat.digits 10 n).reverse.map fun d => UInt16.ofNat (48 + d)

/-- A number. -/
def decimal (n : ℤ) : Units := if n < 0 then 45 :: digits n.natAbs else digits n.natAbs

def undigits (t : Units) : ℕ := Nat.ofDigits 10 (t.map fun c => c.toNat - 48).reverse

/-- The units that can be part of a number. -/
def isNumeric (c : UInt16) : Bool := c = 45 ∨ (48 ≤ c ∧ c ≤ 57)

def readNumber (t : Units) : Option (ℤ × Units) :=
  let ds := t.takeWhile isNumeric
  if ds = [] then none
  else if ds.head? = some 45 then some (-(undigits ds.tail : ℤ), t.dropWhile isNumeric)
  else some ((undigits ds : ℤ), t.dropWhile isNumeric)

theorem digit_spec : ∀ d < 10, (UInt16.ofNat (48 + d)).toNat - 48 = d ∧
    isNumeric (UInt16.ofNat (48 + d)) = true ∧ UInt16.ofNat (48 + d) ≠ 45 := by decide

theorem undigits_digits (n : ℕ) : undigits (digits n) = n := by
  by_cases h : n = 0
  · subst h
    decide
  · have hmap : ((digits n).map fun c => c.toNat - 48) = (Nat.digits 10 n).reverse := by
      rw [digits, if_neg h, List.map_map]
      conv_rhs => rw [← List.map_id (Nat.digits 10 n).reverse]
      apply List.map_congr_left
      intro d hd
      exact (digit_spec d (Nat.digits_lt_base (by norm_num) (by simpa using hd))).1
    rw [undigits, hmap, List.reverse_reverse, Nat.ofDigits_digits]

theorem mem_digits {n : ℕ} {c : UInt16} (h : c ∈ digits n) : isNumeric c = true ∧ c ≠ 45 := by
  by_cases hn : n = 0
  · have hc : c = 48 := by simpa [digits, hn] using h
    subst hc
    decide
  · rw [digits, if_neg hn, List.mem_map] at h
    obtain ⟨d, hd, rfl⟩ := h
    exact (digit_spec d (Nat.digits_lt_base (by norm_num) (by simpa using hd))).2

theorem digits_ne_nil (n : ℕ) : digits n ≠ [] := by
  by_cases hn : n = 0
  · simp [digits, hn]
  · simp [digits, hn, Nat.digits_ne_nil_iff_ne_zero]

theorem mem_decimal {n : ℤ} {c : UInt16} (h : c ∈ decimal n) : isNumeric c = true := by
  by_cases hneg : n < 0
  · rw [decimal, if_pos hneg, List.mem_cons] at h
    rcases h with rfl | h
    · decide
    · exact (mem_digits h).1
  · rw [decimal, if_neg hneg] at h
    exact (mem_digits h).1

theorem readNumber_decimal : RoundTrips decimal readNumber := by
  intro n rest hrest
  have hall : ∀ c ∈ decimal n, isNumeric c = true := fun c hc => mem_decimal hc
  have hstop : ∀ c ∈ rest.head?, isNumeric c = false := by
    intro c hc
    simpa [isNumeric] using hrest c hc
  have hnil : rest.takeWhile isNumeric = [] ∧ rest.dropWhile isNumeric = rest := by
    cases rest with
    | nil => simp
    | cons c rest => simp [hstop c (by simp)]
  have htake : (decimal n ++ rest).takeWhile isNumeric = decimal n := by
    rw [List.takeWhile_append_of_pos hall, hnil.1, List.append_nil]
  have hdrop : (decimal n ++ rest).dropWhile isNumeric = rest := by
    rw [List.dropWhile_append_of_pos hall, hnil.2]
  rw [readNumber, htake, hdrop]
  by_cases hneg : n < 0
  · simp [decimal, hneg, undigits_digits, abs_of_neg hneg]
  · have hhead : (digits n.natAbs).head? ≠ some 45 := by
      intro hc
      exact (mem_digits (List.mem_of_mem_head? hc)).2 rfl
    simp [decimal, hneg, digits_ne_nil, hhead, undigits_digits, abs_of_nonneg (not_lt.mp hneg)]

/-! ## Values, objects and arrays -/

/-- A value. -/
def scalar : Scalar → Units
  | .str s => quote s
  | .num n => decimal n

/-- A value: a string if it begins with a quote, else a number. -/
def readScalar (t : Units) : Option (Scalar × Units) :=
  if t.head? = some 34 then (readString t).map fun r => (.str r.1, r.2)
  else (readNumber t).map fun r => (.num r.1, r.2)

theorem readScalar_scalar : RoundTrips scalar readScalar := by
  intro v rest hrest
  cases v with
  | str s =>
    have hhead : (quote s ++ rest).head? = some 34 := by simp [quote]
    rw [scalar, readScalar, if_pos hhead, readString_quote]
    rfl
  | num n =>
    have hhead : (decimal n ++ rest).head? ≠ some 34 := by
      intro hc
      have hne : decimal n ≠ [] := by
        by_cases hneg : n < 0
        · simp [decimal, hneg]
        · simpa [decimal, hneg] using digits_ne_nil _
      rw [List.head?_append_of_ne_nil _ hne] at hc
      have hnum := mem_decimal (List.mem_of_mem_head? hc)
      simp [isNumeric] at hnum
    rw [scalar, readScalar, if_neg hhead, readNumber_decimal n rest hrest]
    rfl

def member (m : Member) : Units := quote m.1 ++ 58 :: scalar m.2

def readMember (t : Units) : Option (Member × Units) :=
  match readString t with
  | some (key, 58 :: t) => (readScalar t).map fun r => ((key, r.1), r.2)
  | _ => none

theorem readMember_member : RoundTrips member readMember := by
  intro m rest hrest
  have htext : member m ++ rest = quote m.1 ++ (58 :: (scalar m.2 ++ rest)) := by simp [member]
  rw [htext, readMember, readString_quote]
  simp [readScalar_scalar m.2 rest hrest]

section Sequences
variable {α : Type*}

/-- A sequence of at least one, between brackets of which the first has been written. -/
def items (close : UInt16) (write : α → Units) : α → List α → Units
  | a, [] => write a ++ [close]
  | a, b :: l => write a ++ 44 :: items close write b l

/-- A sequence between brackets. -/
def sequence (opening close : UInt16) (write : α → Units) : List α → Units
  | [] => [opening, close]
  | a :: l => opening :: items close write a l

/-- Reading after the first bracket; there are not more elements than units in the first list. -/
def readItems (close : UInt16) (read : Units → Option (α × Units)) : Units → Units → Option (List α × Units)
  | [], _ => none
  | _ :: n, t =>
    match read t with
    | none => none
    | some (_, []) => none
    | some (a, c :: t) =>
      if c = close then some ([a], t)
      else if c = 44 then (readItems close read n t).map fun r => (a :: r.1, r.2)
      else none

/-- A sequence between brackets. -/
def readSequence (opening close : UInt16) (read : Units → Option (α × Units)) (t : Units) :
    Option (List α × Units) :=
  match t with
  | c :: d :: t =>
    if c ≠ opening then none
    else if d = close then some ([], t)
    else readItems close read (d :: t) (d :: t)
  | _ => none

variable {write : α → Units} {read : Units → Option (α × Units)} { opening close : UInt16}

theorem readItems_items (h : RoundTrips write read) (hclose : Delimited [close]) (hne : close ≠ 44)
    (a : α) (l : List α) (rest : Units) {n : Units} (hn : l.length < n.length) :
    readItems close read n (items close write a l ++ rest) = some (a :: l, rest) := by
  induction l generalizing a n with
  | nil =>
    cases n with
    | nil => simp at hn
    | cons _ n =>
      have hread := h a (close :: rest) (by simpa [Delimited] using hclose)
      simp [items, readItems, hread]
  | cons b l ih =>
    cases n with
    | nil => simp at hn
    | cons _ n =>
      have hread := h a (44 :: (items close write b l ++ rest)) (by simp [Delimited])
      have hrec := ih b (n := n) (by simpa using hn)
      simp [items, readItems, hread, Ne.symm hne, hrec]

theorem length_lt_items (close : UInt16) (a : α) (l : List α) : l.length < (items close write a l).length := by
  induction l generalizing a with
  | nil => simp [items]
  | cons b l ih =>
    have hrec := ih b
    simp only [items, List.length_cons, List.length_append]
    omega

/-- A sequence is read back, whatever follows it. -/
theorem readSequence_sequence (h : RoundTrips write read) (hclose : Delimited [close]) (hne : close ≠ 44)
    (hstart : ∀ a, ∃ c t, write a = c :: t ∧ c ≠ close) (l : List α) (rest : Units) :
    readSequence opening close read (sequence opening close write l ++ rest) = some (l, rest) := by
  cases l with
  | nil => simp [sequence, readSequence]
  | cons a l =>
    have hitems := fun n hn => readItems_items h hclose hne a l rest (n := n) hn
    have hlen : l.length < (items close write a l).length := length_lt_items close a l
    obtain ⟨c, t, hwrite, hc⟩ : ∃ c t, items close write a l = c :: t ∧ c ≠ close := by
      obtain ⟨c, t, hwrite, hc⟩ := hstart a
      cases l with
      | nil => exact ⟨c, t ++ [close], by simp [items, hwrite], hc⟩
      | cons b l => exact ⟨c, t ++ 44 :: items close write b l, by simp [items, hwrite], hc⟩
    rw [hwrite] at hitems hlen
    rw [sequence, hwrite, List.cons_append, List.cons_append, readSequence, if_neg (by simp), if_neg hc]
    apply hitems
    simp only [List.length_cons, List.length_append] at hlen ⊢
    omega

end Sequences

def object (o : List Member) : Units := sequence 123 125 member o

def readObject (t : Units) : Option (List Member × Units) := readSequence 123 125 readMember t

theorem readObject_object (o : List Member) (rest : Units) : readObject (object o ++ rest) = some (o, rest) := by
  apply readSequence_sequence readMember_member
  · simp [Delimited]
  · decide
  · intro m
    exact ⟨34, _, rfl, by decide⟩

def array (a : List (List Member)) : Units := sequence 91 93 object a

def readArray (t : Units) : Option (List (List Member) × Units) := readSequence 91 93 readObject t

/-- What is written is read back, whatever follows it. -/
theorem readArray_array (a : List (List Member)) (rest : Units) : readArray (array a ++ rest) = some (a, rest) := by
  apply readSequence_sequence fun o rest _ => readObject_object o rest
  · simp [Delimited]
  · decide
  · intro o
    cases o with
    | nil => exact ⟨123, _, rfl, by decide⟩
    | cons m o => exact ⟨123, _, rfl, by decide⟩

example : readArray [91, 123, 34, 97, 34, 58, 34, 98, 92, 34, 34, 44, 34, 99, 34, 58, 45, 49, 50, 125, 93, 0] =
    some ([[([97], .str [98, 34]), ([99], .num (-12))]], [0]) := by
  decide +kernel

end Cedos.Json
