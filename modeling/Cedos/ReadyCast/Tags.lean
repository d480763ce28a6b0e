import Cedos.ReadyCast.Flow

/-!
# Tags in descriptions

`endElement` of `XMLParser` and of `XMLRefresh` takes the tags out of the description of an item: a
loop cuts the text from the first `<` to the next `>`. The guard of the loop takes a `<` at the very
beginning for none, so a description that begins with a tag keeps all its tags.
-/

namespace Cedos.ReadyCast

/-- A round of the loop; `none` if it breaks. -/
def stripStep (description : Text) : Option Text :=
  match indexOf [60] description with
  | none => none
  | some start =>
    match indexFrom [62] description start with
    | none => none
    | some stop =>
      if 0 < start ∧ 0 < stop then some (description.take start ++ description.drop (stop + 1)) else none

/-- At most so many rounds. -/
def stripRounds : ℕ → Text → Text
  | 0, s => s
  | n + 1, s =>
    match stripStep s with
    | none => s
    | some s => stripRounds n s

/-- The loop. Each round makes the text shorter, so there are enough rounds (`stripTags_spec`). -/
def stripTags (s : Text) : Text := stripRounds s.length s

/-- A part `<...>` is cut. -/
def CutSpan (s t : Text) : Prop := ∃ u v w, 62 ∉ v ∧ s = u ++ 60 :: (v ++ 62 :: w) ∧ t = u ++ w

/-- What the loop is for. -/
structure Stripped (s t : Text) : Prop where
  /-- the rounds lead to `t`, and the next one breaks -/
  rounds : Relation.ReflTransGen (fun s s' => stripStep s = some s') s t
  ends : stripStep t = none
  /-- only parts `<...>` are taken out -/
  cuts : Relation.ReflTransGen CutSpan s t
  /-- no `<` is followed by a `>` -/
  clean : ∀ i j : ℕ, i < j → t[i]? = some 60 → t[j]? ≠ some 62

section Strip
variable {s t : Text}

/-- A text has no `<`, or no `>` after the first one, or a part to be cut. -/
theorem tag_cases (s : Text) :
    60 ∉ s ∨ (∃ u w, 60 ∉ u ∧ 62 ∉ w ∧ s = u ++ 60 :: w) ∨
      ∃ u v w, 60 ∉ u ∧ 62 ∉ v ∧ s = u ++ 60 :: (v ++ 62 :: w) := by
  by_cases hopen : 60 ∈ s
  · obtain ⟨u, r, rfl, hu⟩ := List.eq_append_cons_of_mem hopen
    by_cases hclose : 62 ∈ r
    · obtain ⟨v, w, rfl, hv⟩ := List.eq_append_cons_of_mem hclose
      exact .inr (.inr ⟨u, v, w, hu, hv, rfl⟩)
    · exact .inr (.inl ⟨u, r, hu, hclose, rfl⟩)
  · exact .inl hopen

theorem stripStep_of_not_mem (h : 60 ∉ s) : stripStep s = none := by
  simp [stripStep, indexOf_singleton_eq_none_iff.mpr h]

section
variable {u v w : Text}

theorem stripStep_unclosed (hu : 60 ∉ u) (hw : 62 ∉ w) : stripStep (u ++ 60 :: w) = none := by
  have hno : indexOf [62] (60 :: w) = none := indexOf_singleton_eq_none_iff.mpr (by simp [hw])
  simp [stripStep, indexOf_singleton_append hu, indexFrom, hno]

theorem stripStep_tag (hu : 60 ∉ u) (hv : 62 ∉ v) :
    stripStep (u ++ 60 :: (v ++ 62 :: w)) = if u = [] then none else some (u ++ w) := by
  have hstop : indexOf [62] (60 :: (v ++ 62 :: w)) = some (v.length + 1) :=
    indexOf_singleton_append (t := 60 :: v) (by simp [hv])
  have hrest : (u ++ 60 :: (v ++ 62 :: w)).drop (v.length + 1 + u.length + 1) = w := by
    have happ : u ++ 60 :: (v ++ 62 :: w) = u ++ 60 :: v ++ [62] ++ w := by simp
    rw [happ]
    exact List.drop_left' (by simp; omega)
  simp only [stripStep, indexOf_singleton_append hu, indexFrom, List.drop_left, hstop, Option.map_some,
    List.take_left, hrest]
  cases u with
  | nil => simp
  | cons a u => simp

end

/-- A round that does not break makes the text shorter, cuts a part, and keeps the first character. -/
theorem stripStep_spec (h : stripStep s = some t) :
    t.length < s.length ∧ CutSpan s t ∧ t.head? = s.head? ∧ s.head? ≠ some 60 := by
  rcases tag_cases s with hno | ⟨u, w, hu, hw, rfl⟩ | ⟨u, v, w, hu, hv, rfl⟩
  · rw [stripStep_of_not_mem hno] at h
    cases h
  · rw [stripStep_unclosed hu hw] at h
    cases h
  · rw [stripStep_tag hu hv] at h
    split_ifs at h with hnil
    obtain rfl := Option.some.inj h
    cases u with
    | nil => exact absurd rfl hnil
    | cons a u =>
      have ha : a ≠ 60 := fun ha => hu (by simp [ha])
      exact ⟨by simp; omega, ⟨a :: u, v, w, hv, rfl, rfl⟩, rfl, by simpa using ha⟩

/-- If a text does not begin with `<`, then the loop breaks only when no tag is left. -/
theorem clean_of_stripStep_none (h : stripStep t = none) (hhead : t.head? ≠ some 60) (i j : ℕ) (hij : i < j)
    (hi : t[i]? = some 60) : t[j]? ≠ some 62 := by
  rcases tag_cases t with hno | ⟨u, w, hu, hw, rfl⟩ | ⟨u, v, w, hu, hv, rfl⟩
  · exact absurd (List.mem_of_getElem? hi) hno
  · have hfirst : u.length ≤ i := by
      by_contra hlt
      rw [List.getElem?_append_left (by omega)] at hi
      exact hu (List.mem_of_getElem? hi)
    obtain ⟨k, rfl⟩ : ∃ k, j = u.length + (k + 1) := ⟨j - u.length - 1, by omega⟩
    intro hj
    rw [List.getElem?_append_right (by omega), Nat.add_sub_cancel_left, List.getElem?_cons_succ] at hj
    exact hw (List.mem_of_getElem? hj)
  · rw [stripStep_tag hu hv] at h
    split_ifs at h with hnil
    simp [hnil] at hhead

theorem stripRounds_spec (n : ℕ) (h : s.length ≤ n) :
    Relation.ReflTransGen (fun s s' => stripStep s = some s') s (stripRounds n s) ∧
      stripStep (stripRounds n s) = none := by
  induction n generalizing s with
  | zero =>
    obtain rfl := List.length_eq_zero_iff.mp (Nat.le_zero.mp h)
    exact ⟨.refl, rfl⟩
  | succ n ih =>
    simp only [stripRounds]
    cases hstep : stripStep s with
    | none => exact ⟨.refl, hstep⟩
    | some t =>
      obtain ⟨hrounds, hends⟩ := ih (s := t) (by have := (stripStep_spec hstep).1; omega)
      exact ⟨.head hstep hrounds, hends⟩

/-- The loop ends, with `stripTags s`. -/
theorem stripTags_spec (s : Text) : Relation.ReflTransGen (fun s s' => stripStep s = some s') s (stripTags s) ∧
    stripStep (stripTags s) = none :=
  stripRounds_spec s.length le_rfl

/-- The guard takes a `<` at the beginning for none. -/
theorem stripTags_of_head (h : s.head? = some 60) : stripTags s = s := by
  rcases (stripTags_spec s).1.cases_head with hsame | ⟨t, hstep, -⟩
  · exact hsame.symm
  · exact absurd h (stripStep_spec hstep).2.2.2

theorem head?_of_rounds (h : Relation.ReflTransGen (fun s s' => stripStep s = some s') s t) : t.head? = s.head? := by
  induction h with
  | refl => rfl
  | tail _ hstep ih => rw [(stripStep_spec hstep).2.2.1, ih]

end Strip

/-- The loop does what it is for, unless the description begins with `<` and has a `>`. -/
theorem stripped_iff (s : Text) : Stripped s (stripTags s) ↔ ¬(s.head? = some 60 ∧ 62 ∈ s) := by
  obtain ⟨hrounds, hends⟩ := stripTags_spec s
  have hcuts : Relation.ReflTransGen CutSpan s (stripTags s) :=
    Relation.ReflTransGen.mono (fun _ _ hstep => (stripStep_spec hstep).2.1) _ _ hrounds
  by_cases hhead : s.head? = some 60
  · have hsame := stripTags_of_head hhead
    rw [hsame] at hrounds hends hcuts ⊢
    constructor
    · rintro h ⟨-, hclose⟩
      obtain ⟨j, hj⟩ := List.mem_iff_getElem?.mp hclose
      have hzero : s[0]? = some 60 := by rwa [← List.head?_eq_getElem?]
      have hpos : 0 < j := by
        rcases Nat.eq_zero_or_pos j with rfl | hpos
        · rw [hzero] at hj
          cases hj
        · exact hpos
      exact h.clean 0 j hpos hzero hj
    · intro h
      refine ⟨hrounds, hends, hcuts, fun i j _ _ hj => ?_⟩
      exact h ⟨hhead, List.mem_of_getElem? hj⟩
  · have hhead' : (stripTags s).head? ≠ some 60 := by rwa [head?_of_rounds hrounds]
    refine ⟨fun _ hbad => hhead hbad.1, fun _ => ⟨hrounds, hends, hcuts, ?_⟩⟩
    exact clean_of_stripStep_none hends hhead'

/-- A description that begins with a tag keeps its tags. -/
theorem stripTags_begins_with_tag :
    let s : Text := .of "<b>a</b>"
    stripTags s = s ∧ ¬Stripped s (stripTags s) := by
  refine ⟨by decide, fun h => ?_⟩
  have hclean := h.clean 0 2 (by decide) (by decide)
  exact hclean (by decide)

end Cedos.ReadyCast
