import Cedos.ReadyCast.Flow

/-!
# Fields of a response header

`parseField` looks for the name of a field anywhere in the header, and takes what follows it up to one
character before the end of that line. This is the value of the field if the name occurs first at the
beginning of a line, and that line ends with `\r\n`.

The search is compared with a reading of the header line by line.
-/

namespace Cedos.ReadyCast

/-! ## Lines -/

/-- The lines of a text, without the `\n` at their ends. -/
def headerLines : Text → List Text
  | [] => []
  | a :: t =>
    if a = 10 then [] :: headerLines t
    else match headerLines t with
      | [] => [[a]]
      | l :: ls => (a :: l) :: ls

/-- A line without the `\r` at its end. -/
def chomp (l : Text) : Text := if l.getLast? = some 13 then l.dropLast else l

/-- The value of a field: the rest of the first line that begins with its name. -/
def fieldValue (header field : Text) : Option Text :=
  ((headerLines header).find? fun l => decide (field <+: l)).map fun l => chomp (l.drop field.length)

/-- What follows the name in a line that contains it. -/
def restOf (field l : Text) : Option Text := (indexOf field l).map fun i => l.drop (i + field.length)

/-- The first line that contains the name. -/
def firstWith (header field : Text) : Option Text :=
  (headerLines header).find? fun l => (indexOf field l).isSome

/-- What `parseField` makes of it. -/
def cutEnd (r : Text) : Option Text := if r = [] then none else some r.dropLast

/-- The name occurs in no line, or the first line that contains it begins with it and ends with `\r\n`.
If that line does not begin with the name, then what `parseField` takes from it must happen to be
right: nothing if no line begins with the name, else the value and one character more. -/
def Legible (header field : Text) : Prop :=
  ∀ l ∈ firstWith header field, if field <+: l then (l.drop field.length).getLast? = some 13
    else match fieldValue header field with
      | none => restOf field l = some []
      | some v => ∃ x, restOf field l = some (v ++ [x])

/-- The names that `run` looks for. -/
def fieldNames : List Text := [httpContLength, httpContBytes, httpContRange, httpLocation]

section Lines
variable {l u t field : Text}

theorem headerLines_append (hl : 10 ∉ l) : headerLines (l ++ 10 :: u) = l :: headerLines u := by
  induction l with
  | nil => simp [headerLines]
  | cons a l ih =>
    rw [List.mem_cons, not_or] at hl
    simp [headerLines, Ne.symm hl.1, ih hl.2]

/-- A text that ends with `\n` is made of lines. -/
theorem lines_induction {P : Text → Prop} (hnil : P [])
    (hline : ∀ l u, 10 ∉ l → P u → P (l ++ 10 :: u)) (ht : ∀ a ∈ t.getLast?, a = 10) : P t := by
  induction hn : t.length using Nat.strong_induction_on generalizing t with
  | h n ih =>
    cases hlast : t.getLast? with
    | none => exact List.getLast?_eq_none_iff.mp hlast ▸ hnil
    | some a =>
      obtain rfl := ht a hlast
      obtain ⟨l, u, rfl, hl⟩ := List.eq_append_cons_of_mem (List.mem_of_getLast? hlast)
      refine hline l u hl (ih u.length (by simp [← hn]; omega) (fun b hb => ?_) rfl)
      refine ht b ?_
      rw [List.getLast?_append_of_ne_nil _ (by simp)]
      exact List.mem_getLast?_cons hb

section
variable (hne : field ≠ [])
include hne

/-- A name that is not in the first line is looked for in the rest. -/
theorem indexOf_line_append (hfield : 10 ∉ field) (h : indexOf field l = none) :
    indexOf field (l ++ 10 :: u) = (indexOf field u).map (· + (l.length + 1)) := by
  have hno (l : Text) (hpre : ¬field <+: l) : ¬field <+: l ++ 10 :: u := by
    intro hpre'
    rcases le_total field.length l.length with hle | hlt
    · exact hpre (List.prefix_of_prefix_length_le hpre' (List.prefix_append _ _) hle)
    · have hline : l <+: field := List.prefix_of_prefix_length_le (List.prefix_append _ _) hpre' hlt
      obtain ⟨v, rfl⟩ := hline
      cases v with
      | nil => exact hpre (by simp)
      | cons b v =>
        rw [List.prefix_append_right_inj, List.cons_prefix_cons] at hpre'
        exact hfield (by simp [hpre'.1])
  induction l with
  | nil =>
    have hpre : ¬field <+: 10 :: u := hno [] (by simpa using hne)
    simp [indexOf, hpre]
  | cons a l ih =>
    simp only [indexOf] at h
    split_ifs at h with hpre
    have hrest := ih (by simpa using h)
    have hpre' := hno (a :: l) hpre
    rw [List.cons_append] at hpre' ⊢
    rw [indexOf, if_neg hpre', hrest, Option.map_map]
    simp [Function.comp_def, Nat.add_assoc]

/-- The name is in the first line. -/
theorem parseField_of_rest (hl : 10 ∉ l) {r : Text} (h : restOf field l = some r) :
    parseField (l ++ 10 :: u) field = cutEnd r := by
  obtain ⟨i, hi, rfl⟩ := Option.map_eq_some_iff.mp h
  have hlen := add_length_le_of_indexOf hne hi
  have hrest : 10 ∉ l.drop (i + field.length) := fun hmem => hl (List.mem_of_mem_drop hmem)
  have hcut : (l ++ 10 :: u).take (l.length - 1) = l.take (l.length - 1) :=
    List.take_append_of_le_length (by omega)
  simp only [parseField, indexOf_append hne hi, indexFrom, List.drop_append_of_le_length hlen,
    indexOf_singleton_append hrest, Option.map_some, List.length_drop, Nat.sub_add_cancel hlen, hcut, cutEnd,
    List.drop_eq_nil_iff, List.dropLast_eq_take, List.drop_take]
  by_cases hend : l.length ≤ i + field.length
  · -- nothing is left of the line
    rw [if_pos (Nat.lt_succ_of_le hend), if_pos hend]
  · have hlast : l.length - 1 - (i + field.length) = l.length - (i + field.length) - 1 := by omega
    rw [if_neg (by omega), if_neg hend, hlast]

/-- The name is not in the first line. -/
theorem parseField_line_append (hfield : 10 ∉ field) (h : indexOf field l = none) :
    parseField (l ++ 10 :: u) field = parseField u field := by
  have hdrop (j : ℕ) : (l ++ 10 :: u).drop (j + (l.length + 1)) = u.drop j := by
    have hgone : l.drop (j + (l.length + 1)) = [] := List.drop_eq_nil_of_le (by omega)
    have hrest : j + (l.length + 1) - l.length = j + 1 := by omega
    rw [List.drop_append, hgone, hrest, List.drop_succ_cons, List.nil_append]
  simp only [parseField, indexOf_line_append hne hfield h]
  cases indexOf field u with
  | none => rfl
  | some i =>
    have hpick : i + (l.length + 1) + field.length = i + field.length + (l.length + 1) := by omega
    simp only [Option.map_some, indexFrom, hpick, hdrop, List.drop_take]
    cases indexOf [10] (u.drop (i + field.length)) with
    | none => rfl
    | some k =>
      simp only [Option.map_some]
      by_cases hk : k = 0
      · rw [if_pos (by omega), if_pos (by omega)]
      · have hlast : k + (i + field.length + (l.length + 1)) - 1 - (i + field.length + (l.length + 1)) =
            k + (i + field.length) - 1 - (i + field.length) := by omega
        rw [if_neg (by omega), if_neg (by omega), hlast]

/-- `parseField` reads the first line that contains the name. -/
theorem parseField_eq (hfield : 10 ∉ field) (ht : ∀ a ∈ t.getLast?, a = 10) :
    parseField t field = ((firstWith t field).bind (restOf field)).bind cutEnd := by
  refine lines_induction (P := fun t =>
    parseField t field = ((firstWith t field).bind (restOf field)).bind cutEnd) ?_ ?_ ht
  · simp [parseField, firstWith, headerLines, indexOf, hne]
  · intro l u hl ih
    simp only [firstWith, headerLines_append hl, List.find?_cons]
    cases hi : indexOf field l with
    | none =>
      rw [parseField_line_append hne hfield hi, ih]
      rfl
    | some i =>
      have hrest : restOf field l = some (l.drop (i + field.length)) := by simp [restOf, hi]
      rw [parseField_of_rest hne hl hrest]
      simp [hrest]

/-- A line that begins with the name contains it, at the beginning. -/
theorem indexOf_eq_zero (h : field <+: l) : indexOf field l = some 0 :=
  (indexOf_eq_some_iff hne).mpr ⟨h, fun _ hj => absurd hj (Nat.not_lt_zero _)⟩

/-- If no line contains the name, then none begins with it. -/
theorem fieldValue_of_firstWith_none (h : firstWith t field = none) : fieldValue t field = none := by
  rw [firstWith, List.find?_eq_none] at h
  rw [fieldValue, Option.map_eq_none_iff, List.find?_eq_none]
  intro l hl hpre
  exact h l hl (by simp [indexOf_eq_zero hne (of_decide_eq_true hpre)])

/-- If the first line that contains the name begins with it, then it gives the value. -/
theorem fieldValue_of_firstWith (h : firstWith t field = some l) (hpre : field <+: l) :
    fieldValue t field = some (chomp (l.drop field.length)) := by
  obtain ⟨-, before, after, hlines, hnot⟩ := List.find?_eq_some_iff_append.mp h
  have hfirst : (headerLines t).find? (fun l => decide (field <+: l)) = some l := by
    refine List.find?_eq_some_iff_append.mpr ⟨decide_eq_true hpre, before, after, hlines, fun m hm => ?_⟩
    have hno := hnot m hm
    by_contra hyes
    have hm' : field <+: m := by simpa using hyes
    simp [indexOf_eq_zero hne hm'] at hno
  simp [fieldValue, hfirst]

end

theorem cutEnd_eq_chomp_iff {r : Text} : cutEnd r = some (chomp r) ↔ r.getLast? = some 13 := by
  unfold cutEnd chomp
  constructor
  · intro h
    by_contra hlast
    rw [if_neg hlast] at h
    split_ifs at h with hr
    have hlen := congrArg List.length (Option.some.inj h)
    have hpos := List.length_pos_iff.mpr hr
    rw [List.length_dropLast] at hlen
    omega
  · intro hlast
    have hr : r ≠ [] := by
      rintro rfl
      cases hlast
    rw [if_neg hr, if_pos hlast]

theorem cutEnd_eq_none_iff {r : Text} : cutEnd r = none ↔ r = [] := by
  simp [cutEnd]

theorem cutEnd_eq_some_iff {r v : Text} : cutEnd r = some v ↔ ∃ x, r = v ++ [x] := by
  unfold cutEnd
  constructor
  · intro h
    split_ifs at h with hr
    obtain rfl := Option.some.inj h
    exact ⟨r.getLast hr, (List.dropLast_append_getLast hr).symm⟩
  · rintro ⟨x, rfl⟩
    simp

end Lines

/-- A header that `run` accepts ends with `\n`. -/
theorem getLast?_of_endOfHeader {t : Text} {e : ℕ} (he : endOfHeader t = some e) :
    ∀ a ∈ (t.take e).getLast?, a = 10 := by
  have hlast {n : ℕ} (hn : t[n]? = some 10) : (t.take (n + 1)).getLast? = some 10 := by
    simp [List.take_add_one, hn]
  have hfound : (t.take e).getLast? = some 10 := by
    unfold endOfHeader at he
    split at he
    next i hi =>
      obtain rfl := Option.some.inj he
      exact hlast (pair_prefix_drop_iff.mp ((indexOf_eq_some_iff (by decide)).mp hi).1).2
    next hnone =>
      obtain ⟨i, hi, rfl⟩ := Option.map_eq_some_iff.mp he
      exact hlast (triple_prefix_drop_iff.mp ((indexOf_eq_some_iff (by decide)).mp hi).1).2.2
  intro a ha
  rw [hfound] at ha
  exact (Option.some.inj ha).symm

/-- `parseField` finds the value of a field, or that there is none, just in the legible headers. -/
theorem parseField_eq_fieldValue_iff (t : Text) (e : ℕ) (he : endOfHeader t = some e) (field : Text)
    (hfield : field ∈ fieldNames) :
    parseField (t.take e) field = fieldValue (t.take e) field ↔ Legible (t.take e) field := by
  have hne : field ≠ [] := by
    rintro rfl
    revert hfield
    decide
  have hlf : 10 ∉ field := by
    have hall : ∀ f ∈ fieldNames, 10 ∉ f := by decide
    exact hall field hfield
  rw [parseField_eq hne hlf (getLast?_of_endOfHeader he), Legible]
  cases hfirst : firstWith (t.take e) field with
  | none => simp [fieldValue_of_firstWith_none hne hfirst]
  | some l =>
    by_cases hpre : field <+: l
    · have hrest : restOf field l = some (l.drop field.length) := by
        simp [restOf, indexOf_eq_zero hne hpre]
      simp [fieldValue_of_firstWith hne hfirst hpre, hrest, hpre, cutEnd_eq_chomp_iff]
    · have hsome : (indexOf field l).isSome := List.find?_some (p := fun l => (indexOf field l).isSome) hfirst
      obtain ⟨i, hi⟩ := Option.isSome_iff_exists.mp hsome
      have hrest : restOf field l = some (l.drop (i + field.length)) := by simp [restOf, hi]
      cases hvalue : fieldValue (t.take e) field with
      | none => simp [hrest, hpre, cutEnd_eq_none_iff]
      | some v => simp [hrest, hpre, cutEnd_eq_some_iff]

/-- `HTTP/1.1 200 OK`, more lines, `Content-Length: 5` and the empty line, with the given line ends. -/
def sampleHeader (more eol : Text) : Text :=
  http1 ++ [49, 32, 50, 48, 48, 32, 79, 75] ++ eol ++ more ++ (httpContLength ++ [53] ++ eol) ++ eol

theorem sampleHeader_crlf_legible :
    let h := sampleHeader [] [13, 10]
    parseField h httpContLength = some [53] ∧ Legible h httpContLength := by
  have hvalue : parseField (sampleHeader [] [13, 10]) httpContLength = some [53] := by decide
  exact ⟨hvalue, (parseField_eq_fieldValue_iff (sampleHeader [] [13, 10]) 38 (by decide) httpContLength
    (by decide)).mp (by decide)⟩

/-- If the lines end with `\n`, then the last digit is lost; and `X-Content-Length: 7` hides the
field. -/
theorem parseField_ne_fieldValue :
    let h := sampleHeader [] [10]
    let h' := sampleHeader ([88, 45] ++ httpContLength ++ [55, 13, 10]) [13, 10]
    (endOfHeader h = some h.length ∧ parseField h httpContLength = some [] ∧ fieldValue h httpContLength = some [53]) ∧
    endOfHeader h' = some h'.length ∧ parseField h' httpContLength = some [55] ∧
      fieldValue h' httpContLength = some [53] := by
  decide

end Cedos.ReadyCast
