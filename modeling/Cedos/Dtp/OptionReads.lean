import Cedos.Dtp.Dispatch
import Cedos.Dtp.Options

/-!
# What the option parsers read

`DTPGetOption` and `DTPParseOption` trust the data offset and the sizes in the list. They are not told
how long the datagram is, and an option with a value they know is copied whole, whatever is left of the
list. `HandleRSTPacket` gives `DTPGetOption` no place for a deadline, and a deadline is written all the
same.

`DTPGetOption` returns `TRUE` to all its callers. It compares the pointer it was given with `NULL`,
not whether it has found a host ID, so without that option the callers go on with a buffer nothing has
been written to.
-/

namespace Cedos.Dtp

open DtpContext

/-! ## The walk and its reads -/

/-- The bytes a parser reads at an option: the code, and unless this is all there is the size and as much
of the value as `value` says. -/
def readWidth (m : ℕ → UInt8) (value : UInt8 → UInt8 → ℕ) (i : ℕ) : ℕ :=
  if m i = optEol ∨ m i = optNop then 1 else 2 + value (m i) (m (i + 1))

/-- `walkOptions` with the places that are read, in their order. -/
def walkLog {σ : Type} (m : ℕ → UInt8) (visit : σ → UInt8 → UInt8 → ℕ → Except ParseFault σ)
    (value : UInt8 → UInt8 → ℕ) : ℕ → ℕ → ℤ → σ → List ℕ × Except ParseFault σ
  | 0, _, _, _ => ([], .error .spin)
  | fuel + 1, i, len, s =>
    if len ≤ 0 then ([], .ok s)
    else
      let here := List.range' i (readWidth m value i)
      if m i = optEol then (here, .ok s)
      else if m i = optNop then
        let r := walkLog m visit value fuel (i + 1) (len - 1) s
        (here ++ r.1, r.2)
      else
        match visit s (m i) (m (i + 1)) (i + 2) with
        | .error e => (here, .error e)
        | .ok s =>
          let r := walkLog m visit value fuel (i + (m (i + 1)).toNat) (len - (m (i + 1)).toNat) s
          (here ++ r.1, r.2)

section Walk
variable {σ : Type} {m : ℕ → UInt8} {visit : σ → UInt8 → UInt8 → ℕ → Except ParseFault σ}
variable {value : UInt8 → UInt8 → ℕ} {fuel i j : ℕ} {len : ℤ} {s : σ}

theorem snd_walkLog (value : UInt8 → UInt8 → ℕ) (fuel i : ℕ) (len : ℤ) (s : σ) :
    (walkLog m visit value fuel i len s).2 = walkOptions m visit fuel i len s := by
  induction fuel generalizing i len s with
  | zero => rfl
  | succ fuel ih =>
    simp only [walkLog, walkOptions]
    split_ifs
    · rfl
    · rfl
    · exact ih _ _ _
    · cases visit s (m i) (m (i + 1)) (i + 2) with
      | error e => rfl
      | ok s' => exact ih _ _ _

/-- Neither the end of the list nor a NOP. -/
def OptionSized (m : ℕ → UInt8) (i : ℕ) : Prop := m i ≠ optEol ∧ m i ≠ optNop

theorem walkLog_nop (hlen : ¬len ≤ 0) (hnop : m i = optNop) :
    walkLog m visit value (fuel + 1) i len s = (List.range' i (readWidth m value i) ++
        (walkLog m visit value fuel (i + optSize m i) (len - optSize m i) s).1,
        (walkLog m visit value fuel (i + optSize m i) (len - optSize m i) s).2) := by
  have hne : optNop ≠ optEol := by decide
  simp only [walkLog, hlen, hnop, hne, optSize_nop hnop, if_true, if_false, Nat.cast_one]

/-- One round over an option that is taken. -/
theorem walkLog_sized (hlen : ¬len ≤ 0) (hi : OptionSized m i) {s' : σ}
    (hv : visit s (m i) (m (i + 1)) (i + 2) = .ok s') :
    walkLog m visit value (fuel + 1) i len s = (List.range' i (readWidth m value i) ++
        (walkLog m visit value fuel (i + optSize m i) (len - optSize m i) s').1,
        (walkLog m visit value fuel (i + optSize m i) (len - optSize m i) s').2) := by
  simp only [walkLog, hlen, hi.1, hi.2, hv, optSize_sized hi.2, if_false]

/-- A walk reads only at the positions it comes to. -/
theorem mem_walkLog (hi : WalkReaches (atEol m) (optSize m) len i)
    (hj : j ∈ (walkLog m visit value fuel i (len - i) s).1) :
    ∃ p, WalkReaches (atEol m) (optSize m) len p ∧ (p : ℤ) < len ∧ p ≤ j ∧ j < p + readWidth m value p := by
  induction fuel generalizing i s with
  | zero => cases hj
  | succ fuel ih =>
    by_cases hlen : len - i ≤ 0
    · simp [walkLog, hlen] at hj
    · have hlt : (i : ℤ) < len := by omega
      have hhere : j ∈ List.range' i (readWidth m value i) →
          ∃ p, WalkReaches (atEol m) (optSize m) len p ∧ (p : ℤ) < len ∧ p ≤ j ∧ j < p + readWidth m value p := by
        intro hmem
        obtain ⟨hle, hlt'⟩ := List.mem_range'_1.mp hmem
        exact ⟨i, hi, hlt, hle, hlt'⟩
      have hmove : len - i - optSize m i = len - (i + optSize m i : ℕ) := by push_cast; ring
      by_cases heol : m i = optEol
      · simp only [walkLog, hlen, heol, if_true, if_false] at hj
        exact hhere hj
      · have hgo : atEol m i = false := by simpa [atEol] using heol
        by_cases hnop : m i = optNop
        · rw [walkLog_nop hlen hnop, hmove] at hj
          rcases List.mem_append.mp hj with hj | hj
          · exact hhere hj
          · exact ih (hi.next hlt hgo) hj
        · cases hv : visit s (m i) (m (i + 1)) (i + 2) with
          | error e =>
            simp only [walkLog, hlen, heol, hnop, hv, if_false] at hj
            exact hhere hj
          | ok s' =>
            rw [walkLog_sized hlen ⟨heol, hnop⟩ hv, hmove] at hj
            rcases List.mem_append.mp hj with hj | hj
            · exact hhere hj
            · exact ih (hi.next hlt hgo) hj

/-- The walk from the start comes to every position that can be reached, unless an option on the way is
not taken; `P` is what the state of the parser satisfies. -/
theorem walkLog_reaches (value : UInt8 → UInt8 → ℕ) {P : σ → Prop}
    (hP : ∀ s c z j s', P s → visit s c z j = .ok s' → P s')
    (hi : WalkReaches (atEol m) (optSize m) len i) (s₀ : σ) (h₀ : P s₀) :
    (∃ n s, P s ∧ ∀ fuel, ∃ pre, walkLog m visit value (fuel + n) 0 len s₀ =
        (pre ++ (walkLog m visit value fuel i (len - i) s).1, (walkLog m visit value fuel i (len - i) s).2)) ∨
      ∃ n s p e, visit s (m p) (m (p + 1)) (p + 2) = .error e ∧ (walkLog m visit value n 0 len s₀).2 = .error e := by
  induction hi with
  | start => exact Or.inl ⟨0, s₀, h₀, fun fuel => ⟨[], by simp⟩⟩
  | @next i hi hlt hgo ih =>
    rcases ih with ⟨n, s, hs, hrun⟩ | hfail
    · have hlen : ¬len - i ≤ 0 := by omega
      have heol : m i ≠ optEol := by simpa [atEol] using hgo
      have hmove : len - i - optSize m i = len - (i + optSize m i : ℕ) := by push_cast; ring
      have hround : ∀ s', (∀ fuel, walkLog m visit value (fuel + 1) i (len - i) s =
          (List.range' i (readWidth m value i) ++
            (walkLog m visit value fuel (i + optSize m i) (len - i - optSize m i) s').1,
            (walkLog m visit value fuel (i + optSize m i) (len - i - optSize m i) s').2)) →
          ∀ fuel, ∃ pre, walkLog m visit value (fuel + (n + 1)) 0 len s₀ =
            (pre ++ (walkLog m visit value fuel (i + optSize m i) (len - (i + optSize m i : ℕ)) s').1,
              (walkLog m visit value fuel (i + optSize m i) (len - (i + optSize m i : ℕ)) s').2) := by
        intro s' hone fuel
        obtain ⟨pre, hpre⟩ := hrun (fuel + 1)
        refine ⟨pre ++ List.range' i (readWidth m value i), ?_⟩
        rw [show fuel + (n + 1) = fuel + 1 + n by omega, hpre, hone, hmove, List.append_assoc]
      by_cases hnop : m i = optNop
      · exact Or.inl ⟨n + 1, s, hs, hround s fun fuel => walkLog_nop hlen hnop⟩
      · cases hv : visit s (m i) (m (i + 1)) (i + 2) with
        | error e =>
          obtain ⟨pre, hpre⟩ := hrun 1
          refine Or.inr ⟨1 + n, s, i, e, hv, ?_⟩
          rw [hpre]
          simp only [walkLog, hlen, heol, hnop, hv, if_false]
        | ok s' =>
          exact Or.inl ⟨n + 1, s', hP _ _ _ _ _ hs hv, hround s' fun fuel => walkLog_sized hlen ⟨heol, hnop⟩ hv⟩
    · exact Or.inr hfail

/-- A walk that fails is still running, or an option it has come to is not taken. -/
theorem walkOptions_error {P : σ → Prop} (hP : ∀ s c z j s', P s → visit s c z j = .ok s' → P s')
    (hi : WalkReaches (atEol m) (optSize m) len i) (hs : P s) {e : ParseFault}
    (h : walkOptions m visit fuel i (len - i) s = .error e) :
    e = .spin ∨ ∃ p s, WalkReaches (atEol m) (optSize m) len p ∧ (p : ℤ) < len ∧ OptionSized m p ∧ P s ∧
      visit s (m p) (m (p + 1)) (p + 2) = .error e := by
  induction fuel generalizing i s with
  | zero =>
    simp only [walkOptions, Except.error.injEq] at h
    exact Or.inl h.symm
  | succ fuel ih =>
    simp only [walkOptions] at h
    split_ifs at h with hlen heol hnop
    · have hgo : atEol m i = false := by simpa [atEol] using heol
      refine ih (hi.next (by omega) hgo) hs ?_
      rw [optSize_nop hnop]
      push_cast
      rwa [← sub_sub]
    · have hgo : atEol m i = false := by simpa [atEol] using heol
      cases hv : visit s (m i) (m (i + 1)) (i + 2) with
      | error e' =>
        simp only [hv, Except.error.injEq] at h
        exact Or.inr ⟨i, s, hi, by omega, ⟨heol, hnop⟩, hs, h ▸ hv⟩
      | ok s' =>
        simp only [hv] at h
        refine ih (hi.next (by omega) hgo) (hP _ _ _ _ _ hs hv) ?_
        rw [optSize_sized hnop]
        push_cast
        rwa [← sub_sub]

/-- What is read where the walk comes to. -/
theorem mem_walkLog_here (hlen : 0 < len) (hle : i ≤ j) (hlt : j < i + readWidth m value i) :
    j ∈ (walkLog m visit value 1 i len s).1 := by
  have hmem : j ∈ List.range' i (readWidth m value i) := List.mem_range'_1.mpr ⟨hle, hlt⟩
  have hpos : ¬len ≤ 0 := by omega
  by_cases heol : m i = optEol
  · simpa only [walkLog, hpos, heol, if_true, if_false] using hmem
  · by_cases hnop : m i = optNop
    · rw [walkLog_nop hpos hnop]
      exact List.mem_append_left _ hmem
    · cases hv : visit s (m i) (m (i + 1)) (i + 2) with
      | error e => simpa only [walkLog, hpos, heol, hnop, hv, if_false] using hmem
      | ok s' =>
        rw [walkLog_sized hpos ⟨heol, hnop⟩ hv]
        exact List.mem_append_left _ hmem

end Walk

/-! ## The two parsers -/

/-- A call of one of the parsers, with what its output pointers point to. -/
inductive ParserCall
  | getOption (hid : List UInt8) (deadline : Option UInt32)
  | parseOption (scale : UInt8) (port : UInt16)

/-- The bytes `DTPGetOption` copies from an option of this code and size. -/
def getValueLen (opcode opsize : UInt8) : ℕ :=
  if opcode = optHostId ∧ opsize = olenHostId then sha1DigestLength
  else if opcode = optDeadline ∧ opsize = olenDeadline then 4
  else 0

/-- The bytes `DTPParseOption` copies from an option of this code and size. -/
def parseValueLen (opcode opsize : UInt8) : ℕ :=
  if opcode = optWinScale ∧ opsize = olenWinScale then 1
  else if opcode = optPort ∧ opsize = olenPort then 2
  else 0

/-- There is an option of this code and size before the end of the list. -/
def Datagram.HasOption (d : Datagram) (code size : UInt8) : Prop :=
  ∃ i, d.OptionAt i ∧ d.opts i = code ∧ d.opts (i + 1) = size

/-- Every option of the list, as far as it is read, ends by the end of the datagram and of the list. -/
def Datagram.OptionsEnd (d : Datagram) (value : UInt8 → UInt8 → ℕ) : Prop :=
  ∀ i, WalkReaches (atEol d.opts) (optSize d.opts) (optLen d) i → (i : ℤ) < optLen d →
    hdrSize + i + readWidth d.opts value i ≤ min d.len (getHeaderLen d)

/-- A list whose options state sizes of two bytes and more and end by the data offset. -/
def Datagram.OptionsWellFormed (d : Datagram) : Prop :=
  ∀ i, d.OptionAt i → 2 ≤ (d.opts (i + 1)).toNat ∧ (i : ℤ) + (d.opts (i + 1)).toNat ≤ optLen d

namespace ParserCall

/-- The bytes it copies from an option. -/
def valueLen : ParserCall → UInt8 → UInt8 → ℕ
  | getOption _ _ => getValueLen
  | parseOption _ _ => parseValueLen

/-- The places of the option list it reads in so many rounds. -/
def reads (d : Datagram) (fuel : ℕ) : ParserCall → List ℕ
  | getOption hid deadline =>
    (walkLog d.opts (getVisit .little d.opts) getValueLen fuel 0 (optLen d) (hid, deadline)).1
  | parseOption scale port =>
    (walkLog d.opts (parseVisit .little d.opts) parseValueLen fuel 0 (optLen d) (scale, port)).1

/-- It writes through a null pointer within so many rounds. -/
def nullWrites (d : Datagram) (fuel : ℕ) : ParserCall → Prop
  | getOption hid deadline => getOptionLoop d.opts fuel 0 (optLen d) hid deadline = .error .nullWrite
  | parseOption scale port => parseOptionLoop d.opts fuel 0 (optLen d) scale port = .error .nullWrite

/-- All it reads lies in the datagram and in its option list, and it writes through no null pointer. -/
structure Inside (call : ParserCall) (d : Datagram) : Prop where
  reads : ∀ fuel, ∀ j ∈ call.reads d fuel, hdrSize + j < d.len ∧ hdrSize + j < getHeaderLen d
  writes : ∀ fuel, ¬call.nullWrites d fuel

/-- There is no deadline for a null pointer. -/
def DeadlineTaken (d : Datagram) : ParserCall → Prop
  | getOption _ deadline => deadline.isSome ∨ ¬d.HasOption optDeadline olenDeadline
  | parseOption _ _ => True

end ParserCall

section Calls
variable {σ : Type} {d : Datagram} {visit : σ → UInt8 → UInt8 → ℕ → Except ParseFault σ}
variable {value : UInt8 → UInt8 → ℕ} {s₀ : σ}

/-- If no option on the way is refused, the reads are those at the positions the walk can come to. -/
theorem reads_inside_iff {bound : ℕ}
    (hok : ∀ n e, (walkLog d.opts visit value n 0 (optLen d) s₀).2 = .error e → e = .spin)
    (hspin : ∀ s c z j, visit s c z j ≠ .error .spin) :
    (∀ fuel, ∀ j ∈ (walkLog d.opts visit value fuel 0 (optLen d) s₀).1, hdrSize + j < bound) ↔
      ∀ i, WalkReaches (atEol d.opts) (optSize d.opts) (optLen d) i → (i : ℤ) < optLen d →
        hdrSize + i + readWidth d.opts value i ≤ bound := by
  constructor
  · intro h i hi hlt
    have hwidth : 0 < readWidth d.opts value i := by
      rw [readWidth]
      split_ifs <;> omega
    have hany : ∀ s c z j s', True → visit s c z j = .ok s' → True := fun _ _ _ _ _ _ _ => trivial
    rcases walkLog_reaches value hany hi s₀ trivial with ⟨n, s, -, hrun⟩ | ⟨n, s, p, e, hv, he⟩
    · obtain ⟨pre, hpre⟩ := hrun 1
      have hlast : i + (readWidth d.opts value i - 1) ∈
          (walkLog d.opts visit value (1 + n) 0 (optLen d) s₀).1 := by
        rw [hpre]
        exact List.mem_append_right _ (mem_walkLog_here (by omega) (by omega) (by omega))
      have hbound := h _ _ hlast
      omega
    · have hspun := hok n e he
      exact absurd (hspun ▸ hv) (hspin s _ _ _)
  · intro h fuel j hj
    obtain ⟨p, hp, hlt, hle, hwidth⟩ :=
      mem_walkLog (i := 0) WalkReaches.start (by simpa using hj)
    have hend := h p hp hlt
    omega

/-- `DTPGetOption` refuses a deadline for a null pointer, and nothing else. -/
theorem getVisit_error {m : ℕ → UInt8} {s : List UInt8 × Option UInt32} {c z : UInt8} {j : ℕ} {e : ParseFault}
    (h : getVisit .little m s c z j = .error e) : e = .nullWrite ∧ c = optDeadline ∧ z = olenDeadline ∧ s.2 = none := by
  simp only [getVisit] at h
  split_ifs at h with hhost hdead
  cases hs : s.2 with
  | none =>
    simp only [hs, Except.error.injEq] at h
    exact ⟨h.symm, hdead.1, hdead.2, rfl⟩
  | some x => simp [hs] at h

theorem isSome_getVisit {m : ℕ → UInt8} {s s' : List UInt8 × Option UInt32} {c z : UInt8} {j : ℕ}
    (h : getVisit .little m s c z j = .ok s') : s'.2.isSome = s.2.isSome := by
  simp only [getVisit] at h
  split_ifs at h
  · cases h
    rfl
  · cases hs : s.2 with
    | none => simp [hs] at h
    | some x =>
      simp only [hs, Except.ok.injEq] at h
      rw [← h]
      rfl
  · cases h
    rfl

/-- The null pointer is written through if and only if there is a deadline for it. -/
theorem nullWrite_iff (hid : List UInt8) (deadline : Option UInt32) :
    (∃ fuel, getOptionLoop d.opts fuel 0 (optLen d) hid deadline = .error .nullWrite) ↔
      deadline = none ∧ d.HasOption optDeadline olenDeadline := by
  have hkeep : ∀ (s : List UInt8 × Option UInt32) (c z : UInt8) (j : ℕ) (s' : List UInt8 × Option UInt32),
      s.2.isSome = deadline.isSome → getVisit .little d.opts s c z j = .ok s' → s'.2.isSome = deadline.isSome := by
    intro s c z j s' hs hv
    rw [isSome_getVisit hv, hs]
  constructor
  · rintro ⟨fuel, h⟩
    rw [getOptionLoop_eq d.opts fuel 0 (optLen d) (hid, deadline)] at h
    rcases walkOptions_error (P := fun s : List UInt8 × Option UInt32 => s.2.isSome = deadline.isSome)
      hkeep WalkReaches.start rfl
      (by simpa using h) with hspin | ⟨p, s, hp, hlt, hsized, hs, hv⟩
    · cases hspin
    · obtain ⟨-, hcode, hsize, hnone⟩ := getVisit_error hv
      rw [hnone] at hs
      exact ⟨Option.isSome_eq_false_iff.mp hs.symm |> Option.isNone_iff_eq_none.mp, p, ⟨hp, hlt, hsized⟩, hcode, hsize⟩
  · rintro ⟨rfl, i, ⟨hi, hlt, hsized⟩, hcode, hsize⟩
    rcases walkLog_reaches getValueLen hkeep hi (hid, none) rfl with
      ⟨n, s, hs, hrun⟩ | ⟨n, s, p, e, hv, he⟩
    · obtain ⟨pre, hpre⟩ := hrun 1
      have hnone : s.2 = none := by simpa using hs
      refine ⟨1 + n, ?_⟩
      rw [getOptionLoop_eq d.opts _ 0 (optLen d) (hid, none), ← snd_walkLog getValueLen, hpre]
      have hlen : ¬optLen d - i ≤ 0 := by omega
      have hv : getVisit .little d.opts s (d.opts i) (d.opts (i + 1)) (i + 2) = .error .nullWrite := by
        have hother : optDeadline ≠ optHostId := by decide
        simp [getVisit, hcode, hsize, hother, hnone]
      simp only [walkLog, hlen, hsized.1, hsized.2, hv, if_false]
    · refine ⟨n, ?_⟩
      rw [getOptionLoop_eq d.opts _ 0 (optLen d) (hid, none), ← snd_walkLog getValueLen, he, (getVisit_error hv).1]

theorem parseVisit_ne_error {m : ℕ → UInt8} (s : UInt8 × UInt16) (c z : UInt8) (j : ℕ) (e : ParseFault) :
    parseVisit .little m s c z j ≠ .error e := by
  obtain ⟨s', hs'⟩ := parseVisit_ok m .little s c z j
  simp [hs']

theorem parseOptionLoop_error {fuel : ℕ} {scale : UInt8} {port : UInt16} {e : ParseFault}
    (h : parseOptionLoop d.opts fuel 0 (optLen d) scale port = .error e) : e = .spin := by
  rw [parseOptionLoop_eq d.opts fuel 0 (optLen d) (scale, port)] at h
  rcases walkOptions_error (P := fun _ => True) (fun _ _ _ _ _ _ _ => trivial) WalkReaches.start trivial
    (by simpa using h) with hspin | ⟨p, s, -, -, -, -, hv⟩
  · exact hspin
  · exact absurd hv (parseVisit_ne_error s _ _ _ e)

theorem spin_of_ne_nullWrite {e : ParseFault} (h : e ≠ .nullWrite) : e = .spin := by
  cases e with
  | spin => rfl
  | nullWrite => exact absurd rfl h

namespace ParserCall
variable {call : ParserCall}

theorem writes_iff : (∀ fuel, ¬call.nullWrites d fuel) ↔ call.DeadlineTaken d := by
  cases call with
  | getOption hid deadline =>
    have hiff := nullWrite_iff (d := d) hid deadline
    simp only [nullWrites, DeadlineTaken, ← not_exists, hiff]
    cases deadline <;> simp
  | parseOption scale port =>
    simp only [nullWrites, DeadlineTaken, iff_true]
    intro fuel h
    cases parseOptionLoop_error h

theorem reads_iff (hw : ∀ fuel, ¬call.nullWrites d fuel) {bound : ℕ} :
    (∀ fuel, ∀ j ∈ call.reads d fuel, hdrSize + j < bound) ↔
      ∀ i, WalkReaches (atEol d.opts) (optSize d.opts) (optLen d) i → (i : ℤ) < optLen d →
        hdrSize + i + readWidth d.opts call.valueLen i ≤ bound := by
  cases call with
  | getOption hid deadline =>
    refine reads_inside_iff (fun n e he => spin_of_ne_nullWrite ?_) (getVisit_ne_spin .little)
    rintro rfl
    rw [snd_walkLog, ← getOptionLoop_eq d.opts n 0 (optLen d) (hid, deadline)] at he
    exact hw n he
  | parseOption scale port =>
    refine reads_inside_iff (fun n e he => ?_) (fun s c z j => parseVisit_ne_error s c z j .spin)
    rw [snd_walkLog, ← parseOptionLoop_eq d.opts n 0 (optLen d) (scale, port)] at he
    exact parseOptionLoop_error he

/-- A call stays inside if and only if the options it comes to do, and no deadline is written through a
null pointer. -/
theorem inside_iff : call.Inside d ↔ d.OptionsEnd call.valueLen ∧ call.DeadlineTaken d := by
  constructor
  · rintro ⟨hreads, hwrites⟩
    refine ⟨fun i hi hlt => ?_, writes_iff.mp hwrites⟩
    have hlen := (reads_iff hwrites).mp (fun fuel j hj => (hreads fuel j hj).1) i hi hlt
    have hdoff := (reads_iff hwrites).mp (fun fuel j hj => (hreads fuel j hj).2) i hi hlt
    exact le_min hlen hdoff
  · rintro ⟨hend, htaken⟩
    have hwrites := writes_iff.mpr htaken
    have hlen := (reads_iff hwrites).mpr fun i hi hlt => (hend i hi hlt).trans (min_le_left _ _)
    have hdoff := (reads_iff hwrites).mpr fun i hi hlt => (hend i hi hlt).trans (min_le_right _ _)
    exact ⟨fun fuel j hj => ⟨hlen fuel j hj, hdoff fuel j hj⟩, hwrites⟩

end ParserCall

end Calls

/-! ## The calls of `OnReadEvent` -/

namespace ReadLoop

/-- The calls of `HandleSYNPacket`: the options are parsed for a new context only. -/
def synCalls (sock : ℕ) (r : ReadLoop) (a : Arrival) : List ParserCall :=
  let env := a.env.synEnv (r.node.ctx sock)
  .getOption env.hid (some 0) :: match dtpGetOption a.d env.hid (some 0) with
    | .error _ => []
    | .ok _ =>
      if (r.node.byFlowID a.d.hdr.fid).isNone && env.room && a.env.fresh.isSome
      then [.parseOption env.fresh.sendWindowScale a.addr.port] else []

/-- The calls of `HandleSYNACKPacket`: the options are parsed once the key has been decrypted. -/
def synAckCalls (k : Crypto) (sock : ℕ) (r : ReadLoop) (a : Arrival) : List ParserCall :=
  let c := r.node.ctx sock
  if c.state = .synSent then
    .getOption a.env.hid (some 0) :: match dtpGetOption a.d a.env.hid (some 0) with
      | .error _ => []
      | .ok _ =>
        if (k.decrypt (peek a.d.body 0 rsaLen)).isSome
        then [.parseOption c.sendWindowScale a.addr.port] else []
  else []

/-- The calls made for one datagram; `HandleRSTPacket` has no use for a deadline. -/
def parserCalls (k : Crypto) (isListen : Bool) (sock : ℕ) (r : ReadLoop) (a : Arrival) :
    List ParserCall :=
  if a.d.hdr.syn then if isListen then r.synCalls sock a else r.synAckCalls k sock a
  else match r.lookup isListen sock a.d.hdr.fid with
    | none => []
    | some _ => if a.d.hdr.rst then [.getOption a.env.hid none] else []

end ReadLoop

/-- The condition on a datagram: what `DTPGetOption` reads of its options ends in time, and also what
`DTPParseOption` reads of them, unless an empty option keeps the first parser from returning. An RST
names no deadline. -/
structure Datagram.OptionsInside (d : Datagram) : Prop where
  get : d.hdr.syn = true ∨ d.hdr.rst = true → d.OptionsEnd getValueLen
  parse : d.hdr.syn = true → (∀ i, d.OptionAt i → d.opts (i + 1) ≠ 0) → d.OptionsEnd parseValueLen
  rst : d.hdr.syn = false → d.hdr.rst = true → ¬d.HasOption optDeadline olenDeadline

section Datagrams
variable {d : Datagram}

/-- `DTPGetOption` with a place for the deadline returns if and only if no option is empty. -/
theorem get_returns_iff (hid : List UInt8) (deadline : UInt32) :
    (∃ x, dtpGetOption d hid (some deadline) = .ok x) ↔ ∀ i, d.OptionAt i → d.opts (i + 1) ≠ 0 := by
  rw [← (parsers_return_iff d hid deadline 0 0).1]
  cases hget : dtpGetOption d hid (some deadline) with
  | ok x => simp
  | error e =>
    have hnull : e ≠ .nullWrite := by
      rintro rfl
      have hsome := (nullWrite_iff (d := d) _ _).mp ⟨_, hget⟩
      exact absurd hsome.1 (by simp)
    simp [spin_of_ne_nullWrite hnull]

section Faults
variable {e : ParseFault} {hid : List UInt8}

/-- `DTPParseOption` returns where `DTPGetOption` has. -/
theorem parse_returns {deadline : UInt32} {x : List UInt8 × Option UInt32}
    (hget : dtpGetOption d hid (some deadline) = .ok x) (scale : UInt8) (port : UInt16) :
    ∃ y, dtpParseOption d scale port = .ok y := by
  have hsized := (get_returns_iff hid deadline).mp ⟨x, hget⟩
  cases hres : dtpParseOption d scale port with
  | ok y => exact ⟨y, rfl⟩
  | error e =>
    rw [parseOptionLoop_error hres] at hres
    exact absurd hres ((parsers_return_iff d hid deadline scale port).2.mpr hsized)

theorem bind_error_iff {α β : Type} {m : Except ParseFault α} {f : α → Except ParseFault β}
    (hf : ∀ x, m = .ok x → ∃ y, f x = .ok y) : m >>= f = .error e ↔ m = .error e := by
  cases m with
  | error e' => simp [bind, Except.bind]
  | ok x =>
    obtain ⟨y, hy⟩ := hf x rfl
    simp [bind, Except.bind, hy]

theorem handleSYNPacket_error_iff (rsa : Rsa) (env : SynEnv) (flow : Option DtpContext) (addr : SockAddr) :
    handleSYNPacket rsa env flow d addr = .error e ↔ dtpGetOption d env.hid (some 0) = .error e := by
  refine bind_error_iff fun x hget => ?_
  obtain ⟨y, hy⟩ := parse_returns hget env.fresh.sendWindowScale addr.port
  cases flow with
  | some c => exact ⟨_, rfl⟩
  | none =>
    simp only [hy]
    split_ifs <;> exact ⟨_, rfl⟩

theorem handleSYNACKPacket_error_iff (rsa : Rsa) (c : DtpContext) (addr : SockAddr) :
    c.handleSYNACKPacket rsa d addr hid = .error e ↔
      c.state = .synSent ∧ dtpGetOption d hid (some 0) = .error e := by
  rw [DtpContext.handleSYNACKPacket]
  split_ifs with hs
  · simp only [hs, true_and]
    refine bind_error_iff fun x hget => ?_
    obtain ⟨y, hy⟩ := parse_returns hget c.sendWindowScale addr.port
    simp only [hy]
    split <;> exact ⟨_, rfl⟩
  · simp [hs, pure, Except.pure]

theorem handleRSTPacket_error_iff (c : DtpContext) (fid : UInt32) :
    c.handleRSTPacket d hid fid = .error e ↔ dtpGetOption d hid none = .error e := by
  refine bind_error_iff fun x _ => ?_
  dsimp only
  split_ifs <;> exact ⟨_, rfl⟩

/-- Of the calls for a SYN only the first can be stopped. -/
theorem getOption_mem_iff {calls : List ParserCall} (h : ∀ hid' deadline, .getOption hid' deadline ∉ calls) :
    (∃ hid' deadline, .getOption hid' deadline ∈ ParserCall.getOption hid (some 0) :: calls ∧
      dtpGetOption d hid' deadline = .error e) ↔ dtpGetOption d hid (some 0) = .error e := by
  simp [h]

/-- `OnReadEvent` is stopped by a datagram just when one of these calls is. -/
theorem ReadLoop.receive_error_iff {k : Crypto} {isListen : Bool} {sock : ℕ} {r : ReadLoop} {a : Arrival} :
    r.receive k isListen sock a = .error e ↔ ∃ hid deadline,
      .getOption hid deadline ∈ r.parserCalls k isListen sock a ∧ dtpGetOption a.d hid deadline = .error e := by
  rw [ReadLoop.receive, parserCalls]
  by_cases hsyn : a.d.hdr.syn = true
  · rw [if_pos hsyn, if_pos hsyn]
    cases isListen with
    | true =>
      refine Iff.trans (Iff.trans (bind_error_iff fun x _ => ?_) (handleSYNPacket_error_iff ..))
        (getOption_mem_iff fun _ _ => ?_).symm
      · cases x with
        | known c => cases r.node.byFlowID a.d.hdr.fid <;> exact ⟨_, rfl⟩
        | refused => exact ⟨_, rfl⟩
        | created c => cases a.env.fresh <;> exact ⟨_, rfl⟩
      · cases dtpGetOption a.d (a.env.synEnv (r.node.ctx sock)).hid (some 0) <;> simp
    | false =>
      have hctx : (r.modify sock fun c => c.assert a.d.hdr.ack).node.ctx sock =
          (r.node.ctx sock).assert a.d.hdr.ack := Function.update_self ..
      simp only [receiveSYNACK, synAckCalls, hctx, Bool.false_eq_true, if_false]
      refine (Iff.trans (bind_error_iff fun x _ => ?_) (handleSYNACKPacket_error_iff ..)).trans ?_
      · split_ifs <;> exact ⟨_, rfl⟩
      · by_cases hs : (r.node.ctx sock).state = .synSent
        · rw [if_pos hs, getOption_mem_iff fun _ _ => ?_]
          · exact and_iff_right hs
          · cases dtpGetOption a.d a.env.hid (some 0) <;> simp
        · rw [if_neg hs]
          exact iff_of_false (fun h => hs h.1) (by simp)
  · rw [if_neg hsyn, if_neg hsyn, receiveFound, find]
    cases r.lookup isListen sock a.d.hdr.fid with
    | none => simp [pure, Except.pure]
    | some s =>
      by_cases hrst : a.d.hdr.rst = true
      · simp only [hrst, if_true]
        refine Iff.trans ((bind_error_iff fun x _ => ⟨_, rfl⟩).trans (handleRSTPacket_error_iff ..)) ?_
        simp
      · simp [hrst, pure, Except.pure]

end Faults

/-- The parsers stay inside a SYN for all that its handlers call. -/
theorem inside_syn {hid : List UInt8} {P : Prop} [Decidable P] {scale : UInt8} {port : UInt16}
    (hsyn : d.hdr.syn = true) (h : d.OptionsInside) :
    ∀ call ∈ ParserCall.getOption hid (some 0) :: (match dtpGetOption d hid (some 0) with
      | .error _ => []
      | .ok _ => if P then [ParserCall.parseOption scale port] else []), call.Inside d := by
  intro call hcall
  rcases List.mem_cons.mp hcall with rfl | hcall
  · exact ParserCall.inside_iff.mpr ⟨h.get (Or.inl hsyn), Or.inl rfl⟩
  · cases hget : dtpGetOption d hid (some 0) with
    | error e => simp [hget] at hcall
    | ok x =>
      simp only [hget] at hcall
      split_ifs at hcall
      · rw [List.mem_singleton.mp hcall]
        exact ParserCall.inside_iff.mpr ⟨h.parse hsyn ((get_returns_iff _ _).mp ⟨x, hget⟩), trivial⟩
      · cases hcall

/-- A host with one listening socket and no connections. -/
def listeningNode : Node where
  ctx := fun _ => { dtpCreateContext with state := .listen, backlog := 8 }
  flowMap := []

/-- What that host contributes. -/
def listeningEnv : ReadEnv where
  fresh := some (1, dtpCreateContext)
  hid := []
  key := []
  pad := 0
  rnd := 1
  fid := 0

/-- In every call of a parser that `OnReadEvent` makes for a datagram, all reads are inside the datagram and
the option list and nothing is written through a null pointer, if and only if the options of the datagram
end in time. -/
theorem option_reads_inside_iff (d : Datagram) :
    (∀ k isListen sock (r : ReadLoop) addr env, ∀ call ∈ r.parserCalls k isListen sock ⟨d, addr, env⟩,
      call.Inside d) ↔ d.OptionsInside := by
  constructor
  · intro h
    have hlisten := h sampleCrypto true 0 ⟨listeningNode, none, 0, none⟩ default listeningEnv
    have hclient := h sampleCrypto false 0 ⟨listeningNode, none, 0, none⟩ default listeningEnv
    refine ⟨?_, ?_, ?_⟩
    · intro hflag
      by_cases hsyn : d.hdr.syn = true
      · have hcall := hlisten (.getOption [] (some 0)) (by
          simp only [ReadLoop.parserCalls, hsyn, if_true, ReadLoop.synCalls]
          exact List.mem_cons_self)
        exact (ParserCall.inside_iff.mp hcall).1
      · have hrst : d.hdr.rst = true := hflag.resolve_left hsyn
        have hcall := hclient (.getOption [] none) (by
          simp [ReadLoop.parserCalls, hsyn, hrst, ReadLoop.lookup, listeningEnv])
        exact (ParserCall.inside_iff.mp hcall).1
    · intro hsyn hsizes
      obtain ⟨x, hget⟩ := (get_returns_iff (d := d) [] 0).mpr hsizes
      have hcall := hlisten (.parseOption dtpCreateContext.sendWindowScale (default : SockAddr).port) (by
        have hfree : listeningNode.byFlowID d.hdr.fid = none := rfl
        have hroom : (listeningEnv.synEnv (listeningNode.ctx 0)).room = true := by decide
        have hhid : (listeningEnv.synEnv (listeningNode.ctx 0)).hid = [] := rfl
        have hfresh : listeningEnv.fresh.isSome = true := rfl
        simp only [ReadLoop.parserCalls, hsyn, if_true, ReadLoop.synCalls, hhid, hget, hfree, hroom, hfresh,
          Option.isNone_none, Bool.and_self]
        exact List.mem_cons_of_mem _ (List.mem_singleton_self _))
      exact (ParserCall.inside_iff.mp hcall).1
    · intro hsyn hrst
      have hcall := hclient (.getOption [] none) (by
        simp [ReadLoop.parserCalls, hsyn, hrst, ReadLoop.lookup, listeningEnv])
      simpa [ParserCall.DeadlineTaken] using (ParserCall.inside_iff.mp hcall).2
  · intro h k isListen sock r addr env call hcall
    simp only [ReadLoop.parserCalls] at hcall
    by_cases hsyn : d.hdr.syn = true
    · rw [if_pos hsyn] at hcall
      split_ifs at hcall
      · exact inside_syn hsyn h call hcall
      · simp only [ReadLoop.synAckCalls] at hcall
        by_cases hstate : (r.node.ctx sock).state = .synSent
        · rw [if_pos hstate] at hcall
          exact inside_syn hsyn h call hcall
        · rw [if_neg hstate] at hcall
          cases hcall
    · rw [if_neg hsyn] at hcall
      cases hfound : r.lookup isListen sock d.hdr.fid with
      | none => simp [hfound] at hcall
      | some s =>
        simp only [hfound] at hcall
        split_ifs at hcall with hrst
        · rw [List.mem_singleton.mp hcall]
          exact ParserCall.inside_iff.mpr
            ⟨h.get (Or.inr hrst), Or.inr (h.rst (Bool.eq_false_of_not_eq_true hsyn) hrst)⟩
        · cases hcall

/-- A SYN of twenty bytes that claims twenty-four for its header. -/
def shortSYN : Datagram where
  hdr := { syn := true, fid := 7, seq := 0, ackSeq := 0, doff := 6, windowSize := 0 }
  len := 20
  opts := fun _ => 0
  body := fun _ => 0

/-- An RST of twenty-eight bytes with a deadline. -/
def deadlineRST : Datagram where
  hdr := { rst := true, fid := 7, seq := 0, ackSeq := 0, doff := 7, windowSize := 0 }
  len := 28
  opts := fun i => if i = 0 then optDeadline else if i = 1 then olenDeadline else 0
  body := fun _ => 0

/-- The listening socket reads the code of an option behind the end of the SYN, and any other socket writes
through a null pointer on the RST. -/
theorem option_reads_outside :
    (∃ call ∈ ReadLoop.parserCalls ⟨⟨fun _ _ _ _ => none, fun _ => none⟩, fun _ _ => []⟩ true 0
        ⟨listeningNode, none, 0, none⟩ ⟨shortSYN, default, listeningEnv⟩,
      0 ∈ call.reads shortSYN 1 ∧ ¬hdrSize + 0 < shortSYN.len) ∧
    ∃ call ∈ ReadLoop.parserCalls ⟨⟨fun _ _ _ _ => none, fun _ => none⟩, fun _ _ => []⟩ false 0
        ⟨listeningNode, none, 0, none⟩ ⟨deadlineRST, default, listeningEnv⟩,
      call.nullWrites deadlineRST 1 := by
  refine ⟨⟨.getOption [] (some 0), ?_, ?_, by decide⟩, .getOption [] none, ?_, ?_⟩
  · simp only [ReadLoop.parserCalls, shortSYN, if_true, ReadLoop.synCalls]
    exact List.mem_cons_self
  · decide
  · simp [ReadLoop.parserCalls, deadlineRST, ReadLoop.lookup, listeningEnv]
  · rfl

end Datagrams

/-! ## Finding the host ID -/

/-- `DTPGetOption` with what it returns; either pointer may be null. -/
def getOptionResult (d : Datagram) (hostID : Option (List UInt8)) (deadline : Option UInt32) :
    Except ParseFault (Bool × Option (List UInt8) × Option UInt32) :=
  (dtpGetOption d (hostID.getD []) deadline).map fun r => (hostID.isSome, hostID.map fun _ => r.1, r.2)

/-- An option that holds a host ID is at this place. -/
def IsHostID (m : ℕ → UInt8) (i : ℕ) : Prop := m i = optHostId ∧ m (i + 1) = olenHostId

instance decidableIsHostID (m : ℕ → UInt8) (i : ℕ) : Decidable (IsHostID m i) :=
  inferInstanceAs (Decidable (_ ∧ _))

/-- The host-ID buffer after the options at these places. -/
def hostIDAfter (m : ℕ → UInt8) (ps : List ℕ) (hid : List UInt8) : List UInt8 :=
  ps.foldl (fun hid p => if IsHostID m p then peek m (p + 2) sha1DigestLength else hid) hid

/-- The places of the options, in their order, and of the end of the list if this is how it ends. -/
def Datagram.optionPlaces (d : Datagram) : List ℕ :=
  (walkVisits (atEol d.opts) (optSize d.opts) ((optLen d).toNat + 1) 0 (optLen d)).filter
    fun i => d.opts i ≠ optNop

section HostID
variable {m : ℕ → UInt8} {d : Datagram} {hid : List UInt8} {deadline : Option UInt32}

/-- A walk that ends is a fold over the options it visits. -/
theorem walkOptions_eq_foldlM {σ : Type} {visit : σ → UInt8 → UInt8 → ℕ → Except ParseFault σ}
    {fuel i : ℕ} {len : ℤ} (h : walkEnds (atEol m) (optSize m) fuel i len = true) (s : σ) :
    walkOptions m visit fuel i len s =
      ((walkVisits (atEol m) (optSize m) fuel i len).filter fun j => m j ≠ optNop).foldlM
        (fun s j => visit s (m j) (m (j + 1)) (j + 2)) s := by
  induction fuel generalizing i len s with
  | zero => simp [walkEnds] at h
  | succ fuel ih =>
    simp only [walkOptions, walkVisits]
    by_cases hlen : len ≤ 0
    · simp [hlen, pure, Except.pure]
    · by_cases heol : m i = optEol
      · have hstop : atEol m i = true := by simp [atEol, heol]
        simp [hlen, heol, hstop, pure, Except.pure]
      · have hgo : atEol m i = false := by simpa [atEol] using heol
        rw [walkEnds_round hlen heol] at h
        simp only [hlen, heol, hgo, Bool.false_eq_true, or_self, if_false]
        by_cases hnop : m i = optNop
        · rw [optSize_nop hnop] at h ⊢
          simp only [hnop, if_true]
          rw [List.filter_cons_of_neg (by simp [hnop])]
          exact ih h s
        · rw [optSize_sized hnop] at h ⊢
          simp only [hnop, if_false]
          rw [List.filter_cons_of_pos (by simp [hnop]), List.foldlM_cons]
          cases visit s (m i) (m (i + 1)) (i + 2) with
          | error e => rfl
          | ok s' => exact ih h s'

theorem foldlM_getVisit (ps : List ℕ) (deadline : Option UInt32) :
    ∃ x : Option UInt32, ∀ hid, ps.foldlM (fun s j => getVisit .little m s (m j) (m (j + 1)) (j + 2)) (hid, deadline) =
        if deadline = none ∧ ∃ p ∈ ps, m p = optDeadline ∧ m (p + 1) = olenDeadline
        then .error .nullWrite else .ok (hostIDAfter m ps hid, x) := by
  induction ps generalizing deadline with
  | nil => exact ⟨deadline, fun hid => by simp [hostIDAfter, pure, Except.pure]⟩
  | cons p ps ih =>
    have hother : optHostId ≠ optDeadline := by decide
    by_cases hhost : m p = optHostId ∧ m (p + 1) = olenHostId
    · obtain ⟨x, hfold⟩ := ih deadline
      refine ⟨x, fun hid => ?_⟩
      have hv : getVisit .little m (hid, deadline) (m p) (m (p + 1)) (p + 2) =
          .ok (peek m (p + 2) sha1DigestLength, deadline) := if_pos hhost
      have hafter : hostIDAfter m (p :: ps) hid = hostIDAfter m ps (peek m (p + 2) sha1DigestLength) := by
        have hat : IsHostID m p := hhost
        rw [hostIDAfter, List.foldl_cons, if_pos hat]
        rfl
      rw [List.foldlM_cons, hv, hafter]
      simp only [List.exists_mem_cons_iff, hhost.1, hother, false_and, false_or]
      exact hfold _
    · have hafter : ∀ hid, hostIDAfter m (p :: ps) hid = hostIDAfter m ps hid := by
        intro hid
        have hat : ¬IsHostID m p := hhost
        rw [hostIDAfter, List.foldl_cons, if_neg hat]
        rfl
      by_cases hdead : m p = optDeadline ∧ m (p + 1) = olenDeadline
      · cases deadline with
        | none =>
          refine ⟨none, fun hid => ?_⟩
          have hv : getVisit .little m (hid, none) (m p) (m (p + 1)) (p + 2) = .error .nullWrite := by
            rw [getVisit, if_neg hhost, if_pos hdead]
          rw [List.foldlM_cons, hv, if_pos ⟨rfl, p, by simp, hdead⟩]
          rfl
        | some y =>
          obtain ⟨x, hfold⟩ := ih (some (ByteOrder.little.word32 m (p + 2)))
          refine ⟨x, fun hid => ?_⟩
          have hv : getVisit .little m (hid, some y) (m p) (m (p + 1)) (p + 2) =
              .ok (hid, some (ByteOrder.little.word32 m (p + 2))) := by
            rw [getVisit, if_neg hhost, if_pos hdead]
          have hrest := hfold hid
          rw [if_neg (by simp)] at hrest
          rw [List.foldlM_cons, hv, hafter, if_neg (by simp)]
          exact hrest
      · obtain ⟨x, hfold⟩ := ih deadline
        refine ⟨x, fun hid => ?_⟩
        have hv : getVisit .little m (hid, deadline) (m p) (m (p + 1)) (p + 2) = .ok (hid, deadline) := by
          rw [getVisit, if_neg hhost, if_neg hdead]
        rw [List.foldlM_cons, hv, hafter]
        simp only [List.exists_mem_cons_iff, hdead, false_or]
        exact hfold hid

/-- Without a host ID the buffer stays as it was. -/
theorem hostIDAfter_of_none {ps : List ℕ} (h : ∀ p ∈ ps, ¬IsHostID m p) : hostIDAfter m ps hid = hid := by
  induction ps generalizing hid with
  | nil => rfl
  | cons p ps ih =>
    rw [hostIDAfter, List.foldl_cons, if_neg (h p (by simp))]
    exact ih fun q hq => h q (by simp [hq])

/-- With one the buffer holds it, whatever it held before. -/
theorem hostIDAfter_of_mem {ps : List ℕ} (h : ∃ p ∈ ps, IsHostID m p) :
    ∃ p ∈ ps, IsHostID m p ∧ ∀ hid, hostIDAfter m ps hid = peek m (p + 2) sha1DigestLength := by
  induction ps with
  | nil => simp at h
  | cons q ps ih =>
    by_cases hlater : ∃ p ∈ ps, IsHostID m p
    · obtain ⟨p, hp, hhost, heq⟩ := ih hlater
      exact ⟨p, by simp [hp], hhost, fun hid => heq _⟩
    · have hq : IsHostID m q := by
        obtain ⟨p, hp, hhost⟩ := h
        rcases List.mem_cons.mp hp with rfl | hp
        · exact hhost
        · exact absurd ⟨p, hp, hhost⟩ hlater
      refine ⟨q, by simp, hq, fun hid => ?_⟩
      rw [hostIDAfter, List.foldl_cons, if_pos hq]
      exact hostIDAfter_of_none fun p hp hhost => hlater ⟨p, hp, hhost⟩

theorem walkEnds_of_wellFormed (hwf : d.OptionsWellFormed) :
    ∃ fuel, walkEnds (atEol d.opts) (optSize d.opts) fuel 0 (optLen d) = true := by
  rw [walkEnds_iff_size_ne_zero]
  intro i hi hzero
  have hsize := (hwf i hi).1
  rw [hzero] at hsize
  simp at hsize

theorem mem_optionPlaces_of_ends
    (hends : ∃ fuel, walkEnds (atEol d.opts) (optSize d.opts) fuel 0 (optLen d) = true) {i : ℕ} :
    i ∈ d.optionPlaces ↔ d.OptionAt i := by
  rw [Datagram.optionPlaces, List.mem_filter, mem_walkVisits_toNat hends]
  simp [Datagram.OptionAt, atEol, and_assoc]

theorem mem_optionPlaces (hwf : d.OptionsWellFormed) {i : ℕ} : i ∈ d.optionPlaces ↔ d.OptionAt i :=
  mem_optionPlaces_of_ends (walkEnds_of_wellFormed hwf)

theorem optionsWellFormed_of_places
    (hends : walkEnds (atEol d.opts) (optSize d.opts) ((optLen d).toNat + 1) 0 (optLen d) = true)
    (h : ∀ i ∈ d.optionPlaces, 2 ≤ (d.opts (i + 1)).toNat ∧ (i : ℤ) + (d.opts (i + 1)).toNat ≤ optLen d) :
    d.OptionsWellFormed :=
  fun i hi => h i ((mem_optionPlaces_of_ends ⟨_, hends⟩).mpr hi)

theorem hasOption_iff (hwf : d.OptionsWellFormed) {code size : UInt8} :
    d.HasOption code size ↔ ∃ p ∈ d.optionPlaces, d.opts p = code ∧ d.opts (p + 1) = size := by
  simp only [Datagram.HasOption, mem_optionPlaces hwf]

theorem dtpGetOption_wellFormed (hwf : d.OptionsWellFormed) (deadline : Option UInt32) :
    ∃ x, ∀ hid, (deadline = none ∧ d.HasOption optDeadline olenDeadline →
        dtpGetOption d hid deadline = .error .nullWrite) ∧ (¬(deadline = none ∧ d.HasOption optDeadline olenDeadline) →
        dtpGetOption d hid deadline = .ok (hostIDAfter d.opts d.optionPlaces hid, x)) := by
  obtain ⟨x, hfold⟩ := foldlM_getVisit (m := d.opts) d.optionPlaces deadline
  refine ⟨x, fun hid => ?_⟩
  have hget : dtpGetOption d hid deadline = d.optionPlaces.foldlM
      (fun s j => getVisit .little d.opts s (d.opts j) (d.opts (j + 1)) (j + 2)) (hid, deadline) := by
    rw [dtpGetOption, getOptionLoop_eq d.opts _ 0 (optLen d) (hid, deadline),
      walkOptions_eq_foldlM (walkEnds_toNat (walkEnds_of_wellFormed hwf))]
    rfl
  rw [hget, hfold hid, hasOption_iff hwf]
  exact ⟨fun h => if_pos h, fun h => if_neg h⟩

end HostID

/-- `DTPGetOption` returns, and it returns `TRUE` if and only if there is a host ID; then the buffer holds
one that is in the list. -/
def HostIDExact (d : Datagram) (hid : List UInt8) (deadline : Option UInt32) : Prop :=
  ∃ found hid' x, getOptionResult d (some hid) deadline = .ok (found, some hid', x) ∧
    (found = true ↔ d.HasOption optHostId olenHostId) ∧
    (found = true → ∃ i, d.OptionAt i ∧ IsHostID d.opts i ∧ hid' = peek d.opts (i + 2) sha1DigestLength)

/-- What the host-ID buffers of the three handlers hold before the options are parsed does not matter. -/
structure HostIDInitialised (d : Datagram) : Prop where
  syn : ∀ rsa (env : SynEnv) hid flow addr,
    handleSYNPacket rsa { env with hid := hid } flow d addr = handleSYNPacket rsa env flow d addr
  synAck : ∀ rsa (c : DtpContext) addr hid hid',
    c.handleSYNACKPacket rsa d addr hid = c.handleSYNACKPacket rsa d addr hid'
  rst : ∀ (c : DtpContext) hid hid' fid, c.handleRSTPacket d hid fid = c.handleRSTPacket d hid' fid

section Exact
variable {d : Datagram}

/-- With a host ID in the list the parser's result does not depend on the buffer. -/
theorem dtpGetOption_initialised (hwf : d.OptionsWellFormed) (h : d.HasOption optHostId olenHostId)
    (hid hid' : List UInt8) (deadline : Option UInt32) :
    dtpGetOption d hid deadline = dtpGetOption d hid' deadline := by
  obtain ⟨x, hget⟩ := dtpGetOption_wellFormed hwf deadline
  obtain ⟨p, -, -, heq⟩ := hostIDAfter_of_mem (m := d.opts) ((hasOption_iff hwf).mp h)
  by_cases hnull : deadline = none ∧ d.HasOption optDeadline olenDeadline
  · rw [(hget hid).1 hnull, (hget hid').1 hnull]
  · rw [(hget hid).2 hnull, (hget hid').2 hnull, heq hid, heq hid']

theorem hostIDInitialised_of_hasOption (hwf : d.OptionsWellFormed) (h : d.HasOption optHostId olenHostId) :
    HostIDInitialised d where
  syn rsa env hid flow addr := by
    simp only [handleSYNPacket, dtpGetOption_initialised hwf h hid env.hid]
  synAck rsa c addr hid hid' := by
    simp only [DtpContext.handleSYNACKPacket, dtpGetOption_initialised hwf h hid hid']
  rst c hid hid' fid := by
    simp only [DtpContext.handleRSTPacket, dtpGetOption_initialised hwf h hid hid']

/-- Without one, a client stores what was in its buffer. -/
theorem hasOption_of_initialised (hwf : d.OptionsWellFormed) (h : HostIDInitialised d) :
    d.HasOption optHostId olenHostId := by
  by_contra hnone
  obtain ⟨x, hget⟩ := dtpGetOption_wellFormed hwf (some 0)
  have hkeep : ∀ hid, hostIDAfter d.opts d.optionPlaces hid = hid := by
    intro hid
    refine hostIDAfter_of_none fun p hp hhost => hnone ?_
    exact ⟨p, (mem_optionPlaces hwf).mp hp, hhost⟩
  have hclient : ∀ hid, DtpContext.handleSYNACKPacket sampleCrypto.toRsa
      { dtpCreateContext with state := .synSent } d default hid =
      .ok (({ dtpCreateContext with state := .synSent } : DtpContext).noteHostID hid, false) := by
    intro hid
    have hget' := (hget hid).2 (by simp)
    rw [hkeep hid] at hget'
    simp [DtpContext.handleSYNACKPacket, sampleCrypto, hget', bind, Except.bind, pure, Except.pure]
  have hsame := h.synAck sampleCrypto.toRsa { dtpCreateContext with state := .synSent }
    default [] [0]
  rw [hclient, hclient] at hsame
  have hhost := congrArg (fun r => (r.toOption.map fun x => x.1.hostID)) hsame
  simp [Except.toOption, noteHostID] at hhost

/-- `DTPGetOption` on a well-formed list finds a host ID if and only if there is one, and what its callers
then compare and store is initialised, if and only if there is one; a deadline needs a pointer. -/
theorem host_id_exact_iff (d : Datagram) (hwf : d.OptionsWellFormed) :
    (∀ hid deadline, HostIDExact d hid deadline ↔ d.HasOption optHostId olenHostId ∧
      (deadline.isSome ∨ ¬d.HasOption optDeadline olenDeadline)) ∧
    (HostIDInitialised d ↔ d.HasOption optHostId olenHostId) := by
  refine ⟨fun hid deadline => ?_, hasOption_of_initialised hwf, hostIDInitialised_of_hasOption hwf⟩
  obtain ⟨x, hget⟩ := dtpGetOption_wellFormed hwf deadline
  by_cases hnull : deadline = none ∧ d.HasOption optDeadline olenDeadline
  · refine iff_of_false ?_ ?_
    · rintro ⟨found, hid', y, hres, -⟩
      simp [getOptionResult, (hget hid).1 hnull, Except.map] at hres
    · rintro ⟨-, hsome | hno⟩
      · simp [hnull.1] at hsome
      · exact hno hnull.2
  · have hres : getOptionResult d (some hid) deadline =
        .ok (true, some (hostIDAfter d.opts d.optionPlaces hid), x) := by
      simp only [getOptionResult, Option.getD_some, (hget hid).2 hnull, Except.map, Option.isSome_some, Option.map_some]
    have htaken : deadline.isSome ∨ ¬d.HasOption optDeadline olenDeadline := by
      cases deadline with
      | none => exact Or.inr fun hdead => hnull ⟨rfl, hdead⟩
      | some y => exact Or.inl rfl
    constructor
    · rintro ⟨found, hid', y, hres', hfound, -⟩
      rw [hres] at hres'
      simp only [Except.ok.injEq, Prod.mk.injEq] at hres'
      exact ⟨hfound.mp hres'.1.symm, htaken⟩
    · rintro ⟨hhost, -⟩
      obtain ⟨p, hp, hat, heq⟩ := hostIDAfter_of_mem (m := d.opts) ((hasOption_iff hwf).mp hhost)
      refine ⟨true, _, x, hres, iff_of_true rfl hhost, fun _ => ⟨p, (mem_optionPlaces hwf).mp hp, hat, heq hid⟩⟩

/-- A SYN with a host ID of twenty ones. -/
def hostSYN : Datagram :=
  mkDatagram (dtpAddOptionToHeader (dtpGenerateHeader 0 0 7 { syn := true } 0) optHostId
    (List.replicate 20 1)) []

theorem wellFormed_hostSYN : hostSYN.OptionsWellFormed :=
  optionsWellFormed_of_places (by decide) (by decide)

theorem host_id_exact_found : hostSYN.OptionsWellFormed ∧ HostIDExact hostSYN [] none ∧ HostIDInitialised hostSYN := by
  have hhost : hostSYN.HasOption optHostId olenHostId :=
    (hasOption_iff wellFormed_hostSYN).mpr (by decide)
  have hdead : ¬hostSYN.HasOption optDeadline olenDeadline := by
    rw [hasOption_iff wellFormed_hostSYN]
    decide
  obtain ⟨hexact, hinit⟩ := host_id_exact_iff hostSYN wellFormed_hostSYN
  exact ⟨wellFormed_hostSYN, (hexact [] none).mpr ⟨hhost, Or.inr hdead⟩, hinit.mpr hhost⟩

/-- A SYN without options. -/
def bareSYN : Datagram := mkDatagram (dtpGenerateHeader 0 0 7 { syn := true } 0) []

/-- Without an option `TRUE` is returned, with the buffer as it was, and the handlers go on with that. -/
theorem host_id_not_initialised : bareSYN.OptionsWellFormed ∧ ¬bareSYN.HasOption optHostId olenHostId ∧
    (∀ hid, getOptionResult bareSYN (some hid) (some 0) = .ok (true, some hid, some 0)) ∧
    ¬HostIDInitialised bareSYN := by
  have hwf : bareSYN.OptionsWellFormed := optionsWellFormed_of_places (by decide) (by decide)
  have hnone : ¬bareSYN.HasOption optHostId olenHostId := by
    rw [hasOption_iff hwf]
    decide
  exact ⟨hwf, hnone, fun hid => rfl, fun h => hnone (hasOption_of_initialised hwf h)⟩

end Exact

end Cedos.Dtp
