import Cedos.ReadyCast.Flow

/-!
# HTTP responses

A response is a status line, header lines, an empty line and a body. Each line ends with `\r\n` or
with `\n` alone, and the body is any sequence of bytes.

`endOfHeader` looks for an empty line of either kind. In the text of a header it finds the one that
ends it, and not before the header is complete. It looks for `\n\n` first, and in everything that has
been read: behind a header that ends with `\r\n` it can be misled by the body.
-/

namespace Cedos.ReadyCast

/-- The end of a line. -/
inductive Eol
  | lf
  | crlf
  deriving DecidableEq, Repr

def Eol.bytes : Eol → List UInt8
  | .lf => [10]
  | .crlf => [13, 10]

/-- A line that is not empty. -/
structure HeaderLine where
  content : List UInt8
  eol : Eol
  noLF : 10 ∉ content
  nonempty : content ≠ []
  nonblank : ¬(content = [13] ∧ eol = .lf)

def HeaderLine.bytes (l : HeaderLine) : List UInt8 := l.content ++ l.eol.bytes

def digit (a : Fin 10) : UInt8 := UInt8.ofNat (48 + a)

theorem toUInt16_digit : ∀ a : Fin 10, (digit a).toUInt16 = UInt16.ofNat (48 + a) := by decide

/-- A response: `HTTP/1.0` or `HTTP/1.1`, blanks, a status of three digits, and the rest of the status
line; header lines; the end of the empty line; the body. -/
structure Response where
  minor : Bool
  blanks : ℕ
  status : Fin 10 × Fin 10 × Fin 10
  reason : List UInt8
  statusEol : Eol
  lines : List HeaderLine
  blank : Eol
  body : List UInt8
  noLF : 10 ∉ reason

namespace Response

/-- The status line up to the status. -/
def statusBytes (r : Response) : List UInt8 :=
  [72, 84, 84, 80, 47, 49, 46] ++ [if r.minor then 49 else 48] ++ List.replicate r.blanks 32 ++
    [digit r.status.1, digit r.status.2.1, digit r.status.2.2]

def code (r : Response) : ℕ := 100 * r.status.1 + 10 * r.status.2.1 + r.status.2.2

theorem noLF_statusBytes (r : Response) : 10 ∉ r.statusBytes := by
  have hdigit : ∀ a : Fin 10, 10 ≠ digit a := by decide
  have hminor : (10 : UInt8) ≠ if r.minor then 49 else 48 := by
    cases r.minor <;> decide
  simp [statusBytes, hdigit, hminor]

def statusLine (r : Response) : HeaderLine where
  content := r.statusBytes ++ r.reason
  eol := r.statusEol
  noLF := by simp [r.noLF_statusBytes, r.noLF]
  nonempty := by simp [statusBytes]
  nonblank := by simp [statusBytes]

/-- The lines before the empty one. -/
def head (r : Response) : List UInt8 := (r.statusLine :: r.lines).flatMap HeaderLine.bytes

/-- The header with its empty line. -/
def header (r : Response) : List UInt8 := r.head ++ r.blank.bytes

def bytes (r : Response) : List UInt8 := r.header ++ r.body

/-- The header is in ASCII. -/
def Ascii (r : Response) : Prop := ∀ x ∈ r.header, x < 128

instance (r : Response) : Decidable r.Ascii := List.decidableBAll (· < 128) r.header

end Response

/-! ## Where a header ends -/

/-- No empty line begins inside. -/
def NoBlank (t : List UInt8) : Prop :=
  ∀ j : ℕ, t[j]? = some 10 → t[j + 1]? ≠ some 10 ∧ ¬(t[j + 1]? = some 13 ∧ t[j + 2]? = some 10)

/-- It does not begin with an empty line. -/
def StartsNonblank (t : List UInt8) : Prop :=
  t[0]? ≠ some 10 ∧ ¬(t[0]? = some 13 ∧ t[1]? = some 10)

section Lines
variable {t : List UInt8}

theorem noBlank_line (l : HeaderLine) (h : NoBlank t) (hs : StartsNonblank t) :
    NoBlank (l.bytes ++ t) ∧ StartsNonblank (l.bytes ++ t) := by
  have hcontent : ∀ j, j < l.content.length → (l.bytes ++ t)[j]? ≠ some 10 := by
    intro j hj heq
    rw [HeaderLine.bytes, List.append_assoc, List.getElem?_append_left hj] at heq
    exact l.noLF (List.mem_of_getElem? heq)
  have hrest : ∀ j, (l.bytes ++ t)[l.bytes.length + j]? = t[j]? := by
    intro j
    rw [List.getElem?_append_right (by omega), Nat.add_sub_cancel_left]
  constructor
  · intro j hj
    by_cases hlt : j < l.content.length
    · exact absurd hj (hcontent j hlt)
    · by_cases hend : l.bytes.length ≤ j
      · obtain ⟨k, rfl⟩ : ∃ k, j = l.bytes.length + k := ⟨j - l.bytes.length, by omega⟩
        rw [hrest] at hj
        simp only [Nat.add_assoc, hrest]
        exact h k hj
      · -- the end of the line
        have hlast : j + 1 = l.bytes.length := by
          rw [HeaderLine.bytes, List.append_assoc, List.getElem?_append_right (by omega)] at hj
          rw [HeaderLine.bytes, List.length_append] at hend ⊢
          cases heol : l.eol with
          | lf =>
            simp only [heol, Eol.bytes, List.length_singleton] at hend ⊢
            omega
          | crlf =>
            simp only [heol, Eol.bytes, List.length_cons, List.length_nil] at hend ⊢
            by_contra hne
            have hzero : j - l.content.length = 0 := by omega
            simp [hzero, heol, Eol.bytes] at hj
        have h0 := hrest 0
        have h1 := hrest 1
        rw [← hlast] at h0 h1
        rw [show j + 1 + 0 = j + 1 by omega] at h0
        rw [show j + 1 + 1 = j + 2 by omega] at h1
        rw [h0, h1]
        exact hs
  · have hpos := List.length_pos_iff.mpr l.nonempty
    refine ⟨hcontent 0 hpos, ?_⟩
    rintro ⟨h0, h1⟩
    cases hc : l.content with
    | nil => exact l.nonempty hc
    | cons c cs =>
      cases cs with
      | nil =>
        cases heol : l.eol with
        | lf =>
          simp [HeaderLine.bytes, hc] at h0
          exact l.nonblank ⟨by rw [hc, h0], heol⟩
        | crlf => simp [HeaderLine.bytes, hc, heol, Eol.bytes] at h1
      | cons d cs => exact hcontent 1 (by simp [hc]) h1

theorem noBlank_lines (ls : List HeaderLine) :
    NoBlank (ls.flatMap HeaderLine.bytes) ∧ StartsNonblank (ls.flatMap HeaderLine.bytes) := by
  induction ls with
  | nil =>
    constructor
    · intro j hj
      simp at hj
    · simp [StartsNonblank]
  | cons l ls ih => exact noBlank_line l ih.1 ih.2

theorem lines_end {ls : List HeaderLine} (hne : ls ≠ []) :
    ∃ u, ls.flatMap HeaderLine.bytes = u ++ [10] := by
  rcases List.eq_nil_or_concat ls with rfl | ⟨ls, l, rfl⟩
  · simp at hne
  · have hline : ∃ v, l.bytes = v ++ [10] := by
      cases heol : l.eol with
      | lf => exact ⟨l.content, by rw [HeaderLine.bytes, heol]; rfl⟩
      | crlf => exact ⟨l.content ++ [13], by rw [HeaderLine.bytes, heol]; simp [Eol.bytes]⟩
    obtain ⟨v, hv⟩ := hline
    exact ⟨ls.flatMap HeaderLine.bytes ++ v, by simp [hv]⟩

end Lines

/-- Bytes as characters. -/
def ascii (bs : List UInt8) : Text := bs.map UInt8.toUInt16

@[simp] theorem length_ascii (bs : List UInt8) : (ascii bs).length = bs.length := by
  simp [ascii]

theorem getElem?_ascii (bs : List UInt8) (j : ℕ) (k : UInt8) : (ascii bs)[j]? = some k.toUInt16 ↔ bs[j]? = some k := by
  have hinj : ∀ b : UInt8, b.toUInt16 = k.toUInt16 ↔ b = k := by
    intro b
    rw [← UInt16.toNat_inj, ← UInt8.toNat_inj]
    simp
  simp [ascii, hinj]

namespace Response
variable (r : Response)

/-- An empty line that ends with `\n` is the last of the header. -/
theorem header_lf {j : ℕ} (h0 : r.header[j]? = some 10) (h1 : r.header[j + 1]? = some 10) :
    j + 2 = r.header.length := by
  have hno : NoBlank r.head := (noBlank_lines _).1
  have hlen : r.header.length = r.head.length + r.blank.bytes.length := List.length_append
  by_cases hlt : j + 1 < r.head.length
  · rw [header, List.getElem?_append_left (by omega)] at h0
    rw [header, List.getElem?_append_left hlt] at h1
    exact absurd h1 (hno j h0).1
  · rw [header, List.getElem?_append_right (by omega)] at h1
    have hin := (List.getElem?_eq_some_iff.mp h1).1
    cases hb : r.blank with
    | lf =>
      simp only [hb, Eol.bytes, List.length_singleton] at hin hlen
      omega
    | crlf =>
      simp only [hb, Eol.bytes, List.length_cons, List.length_nil] at hin hlen
      by_cases hat : j + 1 = r.head.length
      · simp [hb, Eol.bytes, hat] at h1
      · rw [header, List.getElem?_append_right (by omega)] at h0
        have hzero : j - r.head.length = 0 := by omega
        simp [hb, Eol.bytes, hzero] at h0

/-- An empty line that ends with `\r\n` is the last of the header. -/
theorem header_crlf {j : ℕ} (h0 : r.header[j]? = some 10) (h1 : r.header[j + 1]? = some 13)
    (h2 : r.header[j + 2]? = some 10) : j + 3 = r.header.length := by
  have hno : NoBlank r.head := (noBlank_lines _).1
  have hlen : r.header.length = r.head.length + r.blank.bytes.length := List.length_append
  by_cases hlt : j + 2 < r.head.length
  · rw [header, List.getElem?_append_left (by omega)] at h0 h1 h2
    exact absurd ⟨h1, h2⟩ (hno j h0).2
  · rw [header, List.getElem?_append_right (by omega)] at h2
    have hin := (List.getElem?_eq_some_iff.mp h2).1
    cases hb : r.blank with
    | lf =>
      -- the line before it ends with a line feed
      simp only [hb, Eol.bytes, List.length_singleton] at hin hlen
      obtain ⟨u, hu⟩ := lines_end (List.cons_ne_nil r.statusLine r.lines)
      have hu' : r.head = u ++ [10] := hu
      have hlast : j + 1 = u.length := by
        rw [hu', List.length_append, List.length_singleton] at hin hlt
        omega
      rw [header, List.getElem?_append_left (by rw [hu']; simp; omega), hu', hlast] at h1
      simp at h1
    | crlf =>
      simp only [hb, Eol.bytes, List.length_cons, List.length_nil] at hin hlen
      by_cases hat : j + 2 = r.head.length
      · simp [hb, Eol.bytes, hat] at h2
      · omega

theorem header_ends : ∃ j : ℕ, r.header[j]? = some 10 ∧
    (r.header[j + 1]? = some 10 ∨ r.header[j + 1]? = some 13 ∧ r.header[j + 2]? = some 10) := by
  obtain ⟨u, hu⟩ := lines_end (List.cons_ne_nil r.statusLine r.lines)
  have hu' : r.head = u ++ [10] := hu
  refine ⟨u.length, ?_⟩
  cases hb : r.blank with
  | lf => simp [header, hu', hb, Eol.bytes]
  | crlf => simp [header, hu', hb, Eol.bytes]

/-- The search finds nothing in a header that is not complete. -/
theorem endOfHeader_take_header {n : ℕ} (hn : n < r.header.length) : endOfHeader (ascii (r.header.take n)) = none := by
  have htake : ∀ (j : ℕ) (k : UInt8), (ascii (r.header.take n))[j]? = some k.toUInt16 →
      r.header[j]? = some k ∧ j < n := by
    intro j k hj
    rw [getElem?_ascii] at hj
    have hlt := (List.getElem?_eq_some_iff.mp hj).1
    rw [List.length_take] at hlt
    rw [List.getElem?_take_of_lt (by omega)] at hj
    exact ⟨hj, by omega⟩
  have hlf : indexOf [10, 10] (ascii (r.header.take n)) = none := by
    rw [indexOf_eq_none_iff (by simp)]
    intro j hj
    rw [pair_prefix_drop_iff] at hj
    have h0 := htake j 10 hj.1
    have h1 := htake (j + 1) 10 hj.2
    have hend := r.header_lf h0.1 h1.1
    omega
  have hcrlf : indexOf [10, 13, 10] (ascii (r.header.take n)) = none := by
    rw [indexOf_eq_none_iff (by simp)]
    intro j hj
    rw [triple_prefix_drop_iff] at hj
    have h0 := htake j 10 hj.1
    have h1 := htake (j + 1) 13 hj.2.1
    have h2 := htake (j + 2) 10 hj.2.2
    have hend := r.header_crlf h0.1 h1.1 h2.1
    omega
  simp [endOfHeader, hlf, hcrlf]

/-- A search that has succeeded succeeds in a longer text, though perhaps elsewhere. -/
theorem endOfHeader_append_none {t u : Text} (h : endOfHeader (t ++ u) = none) : endOfHeader t = none := by
  have hlf : indexOf [10, 10] t = none := by
    cases hi : indexOf [10, 10] t with
    | none => rfl
    | some i => simp [endOfHeader, indexOf_append (by simp) hi] at h
  have hcrlf : indexOf [10, 13, 10] t = none := by
    cases hi : indexOf [10, 13, 10] t with
    | none => rfl
    | some i =>
      cases hj : indexOf [10, 10] (t ++ u) with
      | none => simp [endOfHeader, hj, indexOf_append (by simp) hi] at h
      | some j => simp [endOfHeader, hj] at h
  simp [endOfHeader, hlf, hcrlf]

/-- In a complete header the search finds the end of the header or, in what follows, a later place. -/
theorem endOfHeader_header_append (u : Text) :
    ∃ e, endOfHeader (ascii r.header ++ u) = some e ∧ r.header.length ≤ e ∧ e ≤ r.header.length + u.length := by
  have hin : ∀ (j : ℕ) (k : UInt8), j < r.header.length →
      ((ascii r.header ++ u)[j]? = some k.toUInt16 ↔ r.header[j]? = some k) := by
    intro j k hj
    rw [List.getElem?_append_left (by simpa using hj), getElem?_ascii]
  have htotal : (ascii r.header ++ u).length = r.header.length + u.length := by simp
  cases hlf : indexOf [10, 10] (ascii r.header ++ u) with
  | some i =>
    have hle := add_length_le_of_indexOf (by simp) hlf
    have hat := ((indexOf_eq_some_iff (by simp)).mp hlf).1
    rw [pair_prefix_drop_iff] at hat
    refine ⟨i + 2, by simp [endOfHeader, hlf], ?_, by simpa [htotal] using hle⟩
    by_contra hlt
    have hend := r.header_lf ((hin i 10 (by omega)).mp hat.1) ((hin (i + 1) 10 (by omega)).mp hat.2)
    omega
  | none =>
    rw [indexOf_eq_none_iff (by simp)] at hlf
    cases hcrlf : indexOf [10, 13, 10] (ascii r.header ++ u) with
    | some i =>
      have hle := add_length_le_of_indexOf (by simp) hcrlf
      have hat := ((indexOf_eq_some_iff (by simp)).mp hcrlf).1
      rw [triple_prefix_drop_iff] at hat
      have hnone : indexOf [10, 10] (ascii r.header ++ u) = none :=
        (indexOf_eq_none_iff (by simp)).mpr hlf
      refine ⟨i + 3, by simp [endOfHeader, hnone, hcrlf], ?_, by simpa [htotal] using hle⟩
      by_contra hlt
      have hend := r.header_crlf ((hin i 10 (by omega)).mp hat.1)
        ((hin (i + 1) 13 (by omega)).mp hat.2.1) ((hin (i + 2) 10 (by omega)).mp hat.2.2)
      omega
    | none =>
      rw [indexOf_eq_none_iff (by simp)] at hcrlf
      obtain ⟨j, h0, hends⟩ := r.header_ends
      have hj0 := (List.getElem?_eq_some_iff.mp h0).1
      rcases hends with h1 | ⟨h1, h2⟩
      · have hj1 := (List.getElem?_eq_some_iff.mp h1).1
        exact absurd (pair_prefix_drop_iff.mpr ⟨(hin j 10 hj0).mpr h0, (hin (j + 1) 10 hj1).mpr h1⟩)
          (hlf j)
      · have hj1 := (List.getElem?_eq_some_iff.mp h1).1
        have hj2 := (List.getElem?_eq_some_iff.mp h2).1
        exact absurd (triple_prefix_drop_iff.mpr
          ⟨(hin j 10 hj0).mpr h0, (hin (j + 1) 13 hj1).mpr h1, (hin (j + 2) 10 hj2).mpr h2⟩)
          (hcrlf j)

/-! ## The status -/

theorem statusBytes_prefix_header : r.statusBytes <+: r.header := by
  simp [header, head, statusLine, HeaderLine.bytes]

theorem statusBytes_ascii : ∀ x ∈ r.statusBytes, x < 128 := by
  have hdigit : ∀ a : Fin 10, digit a < 128 := by decide
  have hminor : (if r.minor then 49 else 48 : UInt8) < 128 := by
    cases r.minor <;> decide
  simp only [statusBytes, List.mem_append, List.mem_cons, List.mem_replicate, List.not_mem_nil, or_false]
  intro x hx
  rcases hx with ((hx | hx) | hx) | hx
  · rcases hx with rfl | rfl | rfl | rfl | rfl | rfl | rfl <;> decide
  · rw [hx]
    exact hminor
  · rw [hx.2]
    decide
  · rcases hx with rfl | rfl | rfl
    · exact hdigit _
    · exact hdigit _
    · exact hdigit _

theorem dropWhile_blanks (n : ℕ) (t : Text) : (List.replicate n 32 ++ t).dropWhile (· = 32) = t.dropWhile (· = 32) := by
  induction n with
  | zero => simp
  | succ n ih => simp [List.replicate_succ, ih]

theorem firstLine_of_status {t : Text} (ht : ascii r.statusBytes <+: t) (hlf : 10 ∈ t) :
    ∃ k v, indexOf [10] t = some k ∧ t.take k = ascii r.statusBytes ++ v := by
  obtain ⟨u, rfl⟩ := ht
  cases hk : indexOf [10] (ascii r.statusBytes ++ u) with
  | none =>
    rw [indexOf_eq_none_iff (by simp)] at hk
    obtain ⟨j, hj⟩ := List.mem_iff_getElem?.mp hlf
    exact absurd (singleton_prefix_drop_iff.mpr hj) (hk j)
  | some k =>
    have hat := ((indexOf_eq_some_iff (by simp)).mp hk).1
    rw [singleton_prefix_drop_iff] at hat
    have hge : (ascii r.statusBytes).length ≤ k := by
      by_contra hlt
      rw [List.getElem?_append_left (by omega)] at hat
      exact r.noLF_statusBytes (List.mem_of_getElem? ((getElem?_ascii _ k 10).mp hat))
    refine ⟨k, u.take (k - (ascii r.statusBytes).length), rfl, ?_⟩
    rw [List.take_append, List.take_of_length_le hge]

/-- The status of a header that begins with the status line. -/
theorem parseStatusLine_of_status (p : Platform) {t : Text} (ht : ascii r.statusBytes <+: t)
    (hlf : 10 ∈ t) : parseStatusLine p t = .ok r.code := by
  obtain ⟨k, v, hk, hline⟩ := r.firstLine_of_status ht hlf
  have hdigit : ∀ a : Fin 10, ¬(digit a).toUInt16 = 32 := by decide
  have hparse := p.parseInt_digits r.status.1 r.status.2.1 r.status.2.2
  simp only [← toUInt16_digit] at hparse
  have hstatus : ascii r.statusBytes ++ v = http1 ++ ((if r.minor then 49 else 48 : UInt8).toUInt16 ::
      (List.replicate r.blanks 32 ++ ((digit r.status.1).toUInt16 :: (digit r.status.2.1).toUInt16 ::
        (digit r.status.2.2).toUInt16 :: v))) := by
    simp [ascii, statusBytes, http1, Text.of]
  have hzero : indexOf http1 (ascii r.statusBytes ++ v) = some 0 := by
    rw [indexOf_eq_some_iff (by simp [http1, Text.of]), hstatus]
    simp
  have hrest : ((ascii r.statusBytes ++ v).drop (http1.length + 1)).dropWhile (· = 32) =
      (digit r.status.1).toUInt16 :: (digit r.status.2.1).toUInt16 :: (digit r.status.2.2).toUInt16 :: v := by
    rw [hstatus, ← List.drop_drop, List.drop_left, List.drop_one, List.tail_cons, dropWhile_blanks]
    simp [hdigit]
  have hminor : (ascii r.statusBytes ++ v)[http1.length]? = some (if r.minor then 49 else 48 : UInt8).toUInt16 := by
    rw [hstatus]
    simp
  simp only [parseStatusLine, hk, hline, hzero, hrest, hminor]
  cases r.minor <;> simp [hparse, code]

theorem lf_of_endOfHeader {t : Text} {e : ℕ} (he : endOfHeader t = some e) :
    ∃ i < e, t[i]? = some 10 := by
  cases hi : indexOf [10, 10] t with
  | some i =>
    have hat := ((indexOf_eq_some_iff (by simp)).mp hi).1
    have hei : i + 2 = e := by simpa [endOfHeader, hi] using he
    exact ⟨i, by omega, (pair_prefix_drop_iff.mp hat).1⟩
  | none =>
    obtain ⟨i, hk, hei⟩ : ∃ i, indexOf [10, 13, 10] t = some i ∧ i + 3 = e := by
      simpa [endOfHeader, hi] using he
    have hat := ((indexOf_eq_some_iff (by simp)).mp hk).1
    exact ⟨i, by omega, (triple_prefix_drop_iff.mp hat).1⟩

theorem parseStatusLine_found (p : Platform) {t : Text} {e : ℕ} (ht : ascii r.statusBytes <+: t)
    (he : endOfHeader t = some e) : parseStatusLine p (t.take e) = .ok r.code := by
  obtain ⟨i, hlt, hi⟩ := lf_of_endOfHeader he
  have hge : (ascii r.statusBytes).length ≤ i := by
    by_contra hbefore
    obtain ⟨u, rfl⟩ := ht
    rw [List.getElem?_append_left (by omega)] at hi
    exact r.noLF_statusBytes (List.mem_of_getElem? ((getElem?_ascii _ i 10).mp hi))
  apply r.parseStatusLine_of_status p
  · rw [List.prefix_take_iff]
    exact ⟨ht, by omega⟩
  · apply List.mem_of_getElem? (i := i)
    rw [List.getElem?_take_of_lt hlt, hi]

end Response

end Cedos.ReadyCast
