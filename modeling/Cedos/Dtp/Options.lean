import Cedos.Dtp.Packet
import Cedos.Lib.Tlv
import Cedos.Lib.Words

/-!
# The option list

`DTPGetOption` and `DTPParseOption` walk the same list and differ in the options they look
at. Both read the size of an option from the packet and move by it. A size of `0` keeps
them in place; without one they return after at most one round for each byte.

What `DTPAddOptionToHeader` has written, both read back.
-/

namespace Cedos.Dtp

/-! ## When the loops end -/

/-- The option list ends here. -/
def atEol (opts : ℕ → UInt8) (i : ℕ) : Bool := opts i == optEol

/-- How far both loops move: a NOP is one byte, any other option states its size. -/
def optSize (opts : ℕ → UInt8) (i : ℕ) : ℕ := if opts i = optNop then 1 else (opts (i + 1)).toNat

/-- An option that states its size begins at position `i` of the option list. -/
def Datagram.OptionAt (d : Datagram) (i : ℕ) : Prop :=
  WalkReaches (atEol d.opts) (optSize d.opts) (optLen d) i ∧ (i : ℤ) < optLen d ∧ d.opts i ≠ optEol ∧ d.opts i ≠ optNop

/-! ## One walk -/

/-- The walk of both parsers at offset `i` with `len` bytes left; `visit` is what a parser does with
the code, the size and the place of the value of an option. -/
def walkOptions {σ : Type} (m : ℕ → UInt8) (visit : σ → UInt8 → UInt8 → ℕ → Except ParseFault σ) :
    ℕ → ℕ → ℤ → σ → Except ParseFault σ
  | 0, _, _, _ => .error .spin
  | fuel + 1, i, len, s =>
    if len ≤ 0 then .ok s
    else if m i = optEol then .ok s
    else if m i = optNop then walkOptions m visit fuel (i + 1) (len - 1) s
    else
      match visit s (m i) (m (i + 1)) (i + 2) with
      | .error e => .error e
      | .ok s => walkOptions m visit fuel (i + (m (i + 1)).toNat) (len - (m (i + 1)).toNat) s

/-- The options `DTPGetOption` looks at; the pair is the host ID and what the deadline pointer points
to, if it is not null. -/
def getVisit (o : ByteOrder) (m : ℕ → UInt8) (s : List UInt8 × Option UInt32) (opcode opsize : UInt8)
    (i : ℕ) : Except ParseFault (List UInt8 × Option UInt32) :=
  if opcode = optHostId ∧ opsize = olenHostId then .ok (peek m i sha1DigestLength, s.2)
  else if opcode = optDeadline ∧ opsize = olenDeadline then
    match s.2 with
    | none => .error .nullWrite
    | some _ => .ok (s.1, some (o.word32 m i))
  else .ok s

/-- The options `DTPParseOption` looks at; the pair is the scale and the port. -/
def parseVisit (o : ByteOrder) (m : ℕ → UInt8) (s : UInt8 × UInt16) (opcode opsize : UInt8) (i : ℕ) :
    Except ParseFault (UInt8 × UInt16) :=
  if opcode = optWinScale ∧ opsize = olenWinScale then
    .ok (if m i ≤ maxWinscaleShift then m i else s.1, s.2)
  else if opcode = optPort ∧ opsize = olenPort then .ok (s.1, o.word16 m i)
  else .ok s

theorem getOptionLoop_eq (m : ℕ → UInt8) (fuel i : ℕ) (len : ℤ) (s : List UInt8 × Option UInt32) :
    getOptionLoop m fuel i len s.1 s.2 = walkOptions m (getVisit .little m) fuel i len s := by
  induction fuel generalizing i len s with
  | zero => rfl
  | succ fuel ih =>
    obtain ⟨hid, deadline⟩ := s
    simp only [getOptionLoop, walkOptions, getVisit]
    split_ifs
    · rfl
    · rfl
    · exact ih _ _ (_, _)
    · exact ih _ _ (_, _)
    · cases deadline with
      | none => rfl
      | some x => exact ih _ _ (_, _)
    · exact ih _ _ (_, _)

theorem parseOptionLoop_eq (m : ℕ → UInt8) (fuel i : ℕ) (len : ℤ) (s : UInt8 × UInt16) :
    parseOptionLoop m fuel i len s.1 s.2 = walkOptions m (parseVisit .little m) fuel i len s := by
  induction fuel generalizing i len s with
  | zero => rfl
  | succ fuel ih =>
    obtain ⟨scale, port⟩ := s
    simp only [parseOptionLoop, walkOptions, parseVisit]
    by_cases hscale : m i = optWinScale ∧ m (i + 1) = olenWinScale
    · simp only [hscale, and_self, if_true]
      split_ifs
      · rfl
      · rfl
      all_goals exact ih _ _ (_, _)
    · simp only [hscale, if_false]
      split_ifs
      · rfl
      · rfl
      all_goals exact ih _ _ (_, _)

section Loops
variable {σ : Type} {visit : σ → UInt8 → UInt8 → ℕ → Except ParseFault σ}
variable {opts : ℕ → UInt8} {fuel i : ℕ} {len : ℤ}

theorem walkEnds_round (hlen : ¬len ≤ 0) (heol : opts i ≠ optEol) : walkEnds (atEol opts) (optSize opts)
    (fuel + 1) i len = walkEnds (atEol opts) (optSize opts) fuel (i + optSize opts i) (len - optSize opts i) := by
  simp [walkEnds, hlen, atEol, heol]

theorem optSize_nop (h : opts i = optNop) : optSize opts i = 1 := if_pos h

theorem optSize_sized (h : opts i ≠ optNop) : optSize opts i = (opts (i + 1)).toNat := if_neg h

/-- A parser whose own work always comes to an end. -/
theorem walkOptions_ne_spin (hv : ∀ s c z j, visit s c z j ≠ .error .spin)
    (h : walkEnds (atEol opts) (optSize opts) fuel i len = true) (s : σ) :
    walkOptions opts visit fuel i len s ≠ .error .spin := by
  induction fuel generalizing i len s with
  | zero => simp [walkEnds] at h
  | succ fuel ih =>
    simp only [walkOptions]
    split_ifs with hlen heol hnop
    · simp
    · simp
    · rw [walkEnds_round hlen heol, optSize_nop hnop] at h
      exact ih h s
    · rw [walkEnds_round hlen heol, optSize_sized hnop] at h
      have hvisit := hv s (opts i) (opts (i + 1)) (i + 2)
      cases hres : visit s (opts i) (opts (i + 1)) (i + 2) with
      | error e => simpa [hres] using hvisit
      | ok s' => exact ih h s'

/-- A parser that takes every option, as long as `P` holds. -/
theorem walkOptions_spin {P : σ → Prop} (hv : ∀ s c z j, P s → ∃ s', visit s c z j = .ok s' ∧ P s')
    (h : walkEnds (atEol opts) (optSize opts) fuel i len = false) {s : σ} (hs : P s) :
    walkOptions opts visit fuel i len s = .error .spin := by
  induction fuel generalizing i len s with
  | zero => rfl
  | succ fuel ih =>
    simp only [walkOptions]
    split_ifs with hlen heol hnop
    · simp [walkEnds, hlen] at h
    · simp [walkEnds, atEol, heol] at h
    · rw [walkEnds_round hlen heol, optSize_nop hnop] at h
      exact ih h hs
    · rw [walkEnds_round hlen heol, optSize_sized hnop] at h
      obtain ⟨s', hres, hs'⟩ := hv s (opts i) (opts (i + 1)) (i + 2) hs
      rw [hres]
      exact ih h hs'

theorem getVisit_ne_spin (o : ByteOrder) (s : List UInt8 × Option UInt32) (c z : UInt8) (j : ℕ) :
    getVisit o opts s c z j ≠ .error .spin := by
  simp only [getVisit]
  split_ifs
  · simp
  · cases s.2 <;> simp
  · simp

theorem getVisit_some (o : ByteOrder) (s : List UInt8 × Option UInt32) (c z : UInt8) (j : ℕ)
    (hs : s.2.isSome) : ∃ s', getVisit o opts s c z j = .ok s' ∧ s'.2.isSome := by
  obtain ⟨deadline, hdl⟩ := Option.isSome_iff_exists.mp hs
  simp only [getVisit, hdl]
  split_ifs <;> simp [hdl]

theorem parseVisit_ok (opts : ℕ → UInt8) (o : ByteOrder) (s : UInt8 × UInt16) (c z : UInt8) (j : ℕ) :
    ∃ s', parseVisit o opts s c z j = .ok s' := by
  simp only [parseVisit]
  by_cases hscale : c = optWinScale ∧ z = olenWinScale
  · simp [hscale]
  · simp only [hscale, if_false]
    split_ifs <;> simp

theorem getOptionLoop_ne_spin (h : walkEnds (atEol opts) (optSize opts) fuel i len = true) (hid : List UInt8)
    (deadline : Option UInt32) : getOptionLoop opts fuel i len hid deadline ≠ .error .spin := by
  rw [getOptionLoop_eq opts fuel i len (hid, deadline)]
  exact walkOptions_ne_spin (getVisit_ne_spin .little) h (hid, deadline)

theorem getOptionLoop_spin (h : walkEnds (atEol opts) (optSize opts) fuel i len = false) (hid : List UInt8)
    (deadline : UInt32) : getOptionLoop opts fuel i len hid (some deadline) = .error .spin := by
  rw [getOptionLoop_eq opts fuel i len (hid, some deadline)]
  exact walkOptions_spin (P := fun s => s.2.isSome) (getVisit_some .little) h rfl

theorem parseOptionLoop_ne_spin (h : walkEnds (atEol opts) (optSize opts) fuel i len = true)
    (scale : UInt8) (port : UInt16) : parseOptionLoop opts fuel i len scale port ≠ .error .spin := by
  rw [parseOptionLoop_eq opts fuel i len (scale, port)]
  refine walkOptions_ne_spin (fun s c z j => ?_) h (scale, port)
  obtain ⟨s', hs'⟩ := parseVisit_ok opts .little s c z j
  simp [hs']

theorem parseOptionLoop_spin (h : walkEnds (atEol opts) (optSize opts) fuel i len = false)
    (scale : UInt8) (port : UInt16) : parseOptionLoop opts fuel i len scale port = .error .spin := by
  rw [parseOptionLoop_eq opts fuel i len (scale, port)]
  refine walkOptions_spin (P := fun _ => True) (fun s c z j _ => ?_) h trivial
  obtain ⟨s', hs'⟩ := parseVisit_ok opts .little s c z j
  exact ⟨s', hs', trivial⟩

end Loops

/-- The list has no empty option if and only if the walk over it ends. -/
theorem walkEnds_iff_size_ne_zero (d : Datagram) :
    (∃ fuel, walkEnds (atEol d.opts) (optSize d.opts) fuel 0 (optLen d) = true) ↔
      ∀ i, d.OptionAt i → d.opts (i + 1) ≠ 0 := by
  rw [walkEnds_iff]
  constructor
  · rintro h i ⟨hi, hlen, heol, hnop⟩ hzero
    refine h i hi hlen (by simpa [atEol] using heol) ?_
    simp [optSize, hnop, hzero]
  · intro h i hi hlen heol
    by_cases hnop : d.opts i = optNop
    · simp [optSize, hnop]
    · have hsize := h i ⟨hi, hlen, by simpa [atEol] using heol, hnop⟩
      simp only [optSize, hnop, if_false]
      intro hzero
      exact hsize (UInt8.toNat_inj.mp hzero)

/-- Both parsers return on a datagram, with and without a pointer for the deadline, if and
only if no option in its list has the size `0`. -/
theorem option_loops_end_iff (d : Datagram) (hid : List UInt8) (scale : UInt8) (port : UInt16) :
    ((∀ deadline, ∃ fuel, getOptionLoop d.opts fuel 0 (optLen d) hid deadline ≠ .error .spin) ∧
      ∃ fuel, parseOptionLoop d.opts fuel 0 (optLen d) scale port ≠ .error .spin) ↔
    ∀ i, d.OptionAt i → d.opts (i + 1) ≠ 0 := by
  rw [← walkEnds_iff_size_ne_zero]
  constructor
  · rintro ⟨-, fuel, hends⟩
    refine ⟨fuel, ?_⟩
    by_contra hstuck
    exact hends (parseOptionLoop_spin (Bool.eq_false_of_not_eq_true hstuck) scale port)
  · rintro ⟨fuel, hends⟩
    exact ⟨fun deadline => ⟨fuel, getOptionLoop_ne_spin hends hid deadline⟩,
      fuel, parseOptionLoop_ne_spin hends scale port⟩

/-- The rounds the model allows are enough: a parser that is still running after them never
returns. -/
theorem parsers_return_iff (d : Datagram) (hid : List UInt8) (deadline : UInt32) (scale : UInt8)
    (port : UInt16) :
    (dtpGetOption d hid (some deadline) ≠ .error .spin ↔ ∀ i, d.OptionAt i → d.opts (i + 1) ≠ 0) ∧
      (dtpParseOption d scale port ≠ .error .spin ↔ ∀ i, d.OptionAt i → d.opts (i + 1) ≠ 0) := by
  rw [← walkEnds_iff_size_ne_zero]
  refine ⟨⟨?_, ?_⟩, ?_, ?_⟩
  · intro hret
    refine ⟨(optLen d).toNat + 1, ?_⟩
    by_contra hstuck
    exact hret (getOptionLoop_spin (Bool.eq_false_of_not_eq_true hstuck) hid deadline)
  · intro hends
    exact getOptionLoop_ne_spin (walkEnds_toNat hends) hid (some deadline)
  · intro hret
    refine ⟨(optLen d).toNat + 1, ?_⟩
    by_contra hstuck
    exact hret (parseOptionLoop_spin (Bool.eq_false_of_not_eq_true hstuck) scale port)
  · intro hends
    exact parseOptionLoop_ne_spin (walkEnds_toNat hends) scale port

/-- A SYN of twenty-four bytes whose only option has code `5` and size `0`. -/
def emptyOptionSYN : Datagram where
  hdr := { syn := true, fid := 7, seq := 0, ackSeq := 0, doff := 6, windowSize := 0 }
  len := 24
  opts := fun i => if i = 0 then 5 else 0
  body := fun _ => 0

/-- Neither parser ever returns on it. -/
theorem empty_option_never_ends :
    (∀ fuel, getOptionLoop emptyOptionSYN.opts fuel 0 (optLen emptyOptionSYN) [] (some 0) = .error .spin) ∧
    ∀ fuel, parseOptionLoop emptyOptionSYN.opts fuel 0 (optLen emptyOptionSYN) 0 0 = .error .spin := by
  have hstuck : ∀ fuel, walkEnds (atEol emptyOptionSYN.opts) (optSize emptyOptionSYN.opts) fuel 0
      (optLen emptyOptionSYN) = false := by
    intro fuel
    have hzero : walkEnds (atEol emptyOptionSYN.opts) (optSize emptyOptionSYN.opts) fuel 0
        (optLen emptyOptionSYN - (0 : ℕ)) = false :=
      walkEnds_of_size_eq_zero (by decide) (by decide) (by decide) fuel
    simpa using hzero
  exact ⟨fun fuel => getOptionLoop_spin (hstuck fuel) [] 0, fun fuel => parseOptionLoop_spin (hstuck fuel) 0 0⟩

/-! ## Reading back what was written -/

section Memory
variable {m : ℕ → UInt8} {i : ℕ}

theorem word32_bytes32 {x : UInt32} (h : LiesAt m i (bytes32 x)) : word32 m i = x :=
  ByteOrder.word32_bytes32 (o := .little) h

end Memory

/-- An option: code and value. -/
structure Opt where
  code : UInt8
  value : List UInt8

/-- Its bytes, as `DTPAddOptionToHeader` writes them. -/
def Opt.bytes (o : Opt) : List UInt8 := o.code :: UInt8.ofNat (o.value.length + 2) :: o.value

def encodeOpts (os : List Opt) : List UInt8 := os.flatMap Opt.bytes

/-- An option with a size byte that says how long it is. -/
def Opt.Sized (o : Opt) : Prop :=
  o.code ≠ optEol ∧ o.code ≠ optNop ∧ o.value.length + 2 < 256

section Read
variable {m : ℕ → UInt8} {i : ℕ} {o : Opt}

theorem liesAt_opt (h : LiesAt m i o.bytes) :
    m i = o.code ∧ m (i + 1) = UInt8.ofNat (o.value.length + 2) ∧ LiesAt m (i + 2) o.value := by
  refine ⟨?_, ?_, ?_⟩
  · simpa [Opt.bytes] using h 0 (by simp [Opt.bytes])
  · simpa [Opt.bytes] using h 1 (by simp [Opt.bytes])
  · have hcons : o.bytes = [o.code, UInt8.ofNat (o.value.length + 2)] ++ o.value := rfl
    rw [hcons] at h
    exact h.right

theorem sizeByte_eq_iff (hs : o.Sized) {n : ℕ} (hn : n + 2 < 256) :
    UInt8.ofNat (o.value.length + 2) = UInt8.ofNat (n + 2) ↔ o.value.length = n := by
  have hlen := hs.2.2
  rw [← UInt8.toNat_inj, UInt8.toNat_ofNat_of_lt' (by omega), UInt8.toNat_ofNat_of_lt' (by omega)]
  omega

/-- One option of a parser that finds it where it lies. -/
theorem walkOptions_opt {σ : Type} {visit : σ → UInt8 → UInt8 → ℕ → Except ParseFault σ} {s s' : σ}
    (h : LiesAt m i o.bytes) (hs : o.Sized) (hv : visit s o.code (UInt8.ofNat (o.value.length + 2)) (i + 2) = .ok s')
    {len : ℤ} (hlen : 0 < len) (fuel : ℕ) : walkOptions m visit (fuel + 1) i len s =
    walkOptions m visit fuel (i + o.bytes.length) (len - o.bytes.length) s' := by
  obtain ⟨hcode, hsize, -⟩ := liesAt_opt h
  have hnat : (m (i + 1)).toNat = o.bytes.length := by
    rw [hsize, UInt8.toNat_ofNat_of_lt' (by have := hs.2.2; simpa using this)]
    simp [Opt.bytes]
  simp only [walkOptions, hcode, hs.1, hs.2.1, not_le.mpr hlen, if_false, hnat]
  rw [hsize, hv]

/-- A parser over a list of options and its padding; `P` is what its state satisfies between two of
them. -/
theorem walkOptions_encode {σ : Type} {visit : σ → UInt8 → UInt8 → ℕ → Except ParseFault σ}
    {step : σ → Opt → σ} {P : σ → Prop} (os : List Opt) (hs : ∀ o ∈ os, o.Sized)
    (hv : ∀ o ∈ os, ∀ s j, P s → LiesAt m j o.value →
      visit s o.code (UInt8.ofNat (o.value.length + 2)) j = .ok (step s o) ∧ P (step s o)) {len : ℤ}
    (h : LiesAt m i (encodeOpts os)) (hlen : ((encodeOpts os).length : ℤ) ≤ len)
    (hpad : (encodeOpts os).length < len → m (i + (encodeOpts os).length) = optEol) {fuel : ℕ}
    (hfuel : os.length < fuel) {s : σ} (hP : P s) :
    walkOptions m visit fuel i len s = .ok (os.foldl step s) := by
  obtain ⟨fuel, rfl⟩ : ∃ n, fuel = n + 1 := ⟨fuel - 1, by omega⟩
  induction os generalizing i len s fuel with
  | nil =>
    simp only [encodeOpts, List.flatMap_nil, List.length_nil, Nat.cast_zero, Nat.add_zero] at hpad
    by_cases hend : len ≤ 0
    · simp [walkOptions, hend]
    · simp [walkOptions, hend, hpad (not_le.mp hend)]
  | cons o os ih =>
    have hcons : encodeOpts (o :: os) = o.bytes ++ encodeOpts os := rfl
    have hsize : 0 < o.bytes.length := by simp [Opt.bytes]
    rw [hcons] at h hlen hpad
    simp only [List.length_append, Nat.cast_add] at hlen hpad
    obtain ⟨hstep, hP'⟩ := hv o List.mem_cons_self s (i + 2) hP (liesAt_opt h.left).2.2
    obtain ⟨fuel, rfl⟩ : ∃ n, fuel = n + 1 := ⟨fuel - 1, by simp at hfuel; omega⟩
    rw [walkOptions_opt h.left (hs o List.mem_cons_self) hstep (by omega)]
    refine ih (fun x hx => hs x (List.mem_cons_of_mem _ hx))
      (fun x hx => hv x (List.mem_cons_of_mem _ hx)) h.right (by omega) ?_ hP' fuel ?_
    · intro hlt
      rw [Nat.add_assoc]
      exact hpad (by omega)
    · simp at hfuel
      omega

/-- What `DTPGetOption` does with an option, on a host of either byte order. -/
def getStep (b : ByteOrder) (s : List UInt8 × Option UInt32) (o : Opt) : List UInt8 × Option UInt32 :=
  if o.code = optHostId ∧ o.value.length = sha1DigestLength then (o.value, s.2)
  else if o.code = optDeadline ∧ o.value.length = 4 then
    (s.1, s.2.map fun _ => b.word32 (fun i => o.value.getD i 0) 0)
  else s

/-- What `DTPParseOption` does with an option, on a host of either byte order. -/
def parseStep (b : ByteOrder) (r : UInt8 × UInt16) (o : Opt) : UInt8 × UInt16 :=
  if o.code = optWinScale ∧ o.value.length = 1 then
    (if o.value.getD 0 0 ≤ maxWinscaleShift then o.value.getD 0 0 else r.1, r.2)
  else if o.code = optPort ∧ o.value.length = 2 then (r.1, b.word16 (fun i => o.value.getD i 0) 0)
  else r

/-- A deadline option needs a pointer. -/
theorem getVisit_opt (b : ByteOrder) (hs : o.Sized) {s : List UInt8 × Option UInt32}
    (hptr : o.code = optDeadline → s.2.isSome) (hvalue : LiesAt m i o.value) :
    getVisit b m s o.code (UInt8.ofNat (o.value.length + 2)) i = .ok (getStep b s o) := by
  have hhost : UInt8.ofNat (o.value.length + 2) = olenHostId ↔ o.value.length = sha1DigestLength :=
    sizeByte_eq_iff hs (n := 20) (by omega)
  have hdead : UInt8.ofNat (o.value.length + 2) = olenDeadline ↔ o.value.length = 4 :=
    sizeByte_eq_iff hs (n := 4) (by omega)
  simp only [getVisit, getStep, hhost, hdead]
  split_ifs with h1 h2
  · rw [← h1.2, hvalue.peek]
  · obtain ⟨deadline, hdl⟩ := Option.isSome_iff_exists.mp (hptr h2.1)
    have hword : b.word32 m i = b.word32 (fun j => o.value.getD j 0) 0 := by
      refine b.word32_congr fun j hj => ?_
      rw [Nat.zero_add]
      exact hvalue j (by omega)
    simp [hdl, hword]
  · rfl

theorem parseVisit_opt (b : ByteOrder) (hs : o.Sized) {s : UInt8 × UInt16} (hvalue : LiesAt m i o.value) :
    parseVisit b m s o.code (UInt8.ofNat (o.value.length + 2)) i = .ok (parseStep b s o) := by
  have hscale : UInt8.ofNat (o.value.length + 2) = olenWinScale ↔ o.value.length = 1 :=
    sizeByte_eq_iff hs (n := 1) (by omega)
  have hport : UInt8.ofNat (o.value.length + 2) = olenPort ↔ o.value.length = 2 :=
    sizeByte_eq_iff hs (n := 2) (by omega)
  simp only [parseVisit, parseStep, hscale, hport]
  by_cases h1 : o.code = optWinScale ∧ o.value.length = 1
  · have hbyte : m i = o.value.getD 0 0 := by simpa using hvalue 0 (by omega)
    simp only [h1, and_self, if_true, hbyte]
  · simp only [h1, if_false]
    split_ifs with h2
    · have hword : b.word16 m i = b.word16 (fun j => o.value.getD j 0) 0 := by
        refine b.word16_congr fun j hj => ?_
        rw [Nat.zero_add]
        exact hvalue j (by omega)
      rw [hword]
    · rfl

@[simp] theorem isSome_getStep (b : ByteOrder) (s : List UInt8 × Option UInt32) :
    (getStep b s o).2.isSome = s.2.isSome := by
  simp only [getStep]
  split_ifs <;> simp

/-- Both loops over a list of options and its padding. -/
theorem option_loops_encode (os : List Opt) (hs : ∀ o ∈ os, o.Sized) {len : ℤ}
    (h : LiesAt m i (encodeOpts os)) (hlen : ((encodeOpts os).length : ℤ) ≤ len)
    (hpad : (encodeOpts os).length < len → m (i + (encodeOpts os).length) = optEol) {fuel : ℕ}
    (hfuel : os.length < fuel) (r : List UInt8 × UInt32) (t : UInt8 × UInt16) :
    getOptionLoop m fuel i len r.1 (some r.2) = .ok (os.foldl (getStep .little) (r.1, some r.2)) ∧
      parseOptionLoop m fuel i len t.1 t.2 = .ok (os.foldl (parseStep .little) t) := by
  constructor
  · rw [getOptionLoop_eq m fuel i len (r.1, some r.2)]
    refine walkOptions_encode (P := fun s => s.2.isSome) os hs (fun o ho s j hsome hvalue => ?_) h hlen
      hpad hfuel rfl
    exact ⟨getVisit_opt .little (hs o ho) (fun _ => hsome) hvalue, by simpa using hsome⟩
  · rw [parseOptionLoop_eq m fuel i len t]
    refine walkOptions_encode (P := fun _ => True) os hs (fun o ho s j _ hvalue => ?_) h hlen hpad hfuel
      trivial
    exact ⟨parseVisit_opt .little (hs o ho) hvalue, trivial⟩

end Read

/-! ## Whole headers -/

/-- A header that carries these options. -/
structure HdrBuf.Carries (h : HdrBuf) (os : List Opt) : Prop where
  opts : h.opts = encodeOpts os
  sized : ∀ o ∈ os, o.Sized
  wf : h.Wf

theorem carries_dtpGenerateHeader (seq ackSeq fid : UInt32) (flags : Flags) (win : UInt32) :
    (dtpGenerateHeader seq ackSeq fid flags win).Carries [] where
  opts := rfl
  sized := by simp
  wf := wf_dtpGenerateHeader seq ackSeq fid flags win

@[simp] theorem length_encodeOpts_append (os os' : List Opt) :
    (encodeOpts (os ++ os')).length = (encodeOpts os).length + (encodeOpts os').length := by
  simp [encodeOpts]

@[simp] theorem length_encodeOpts_singleton (code : UInt8) (value : List UInt8) :
    (encodeOpts [⟨code, value⟩]).length = value.length + 2 := by
  simp [encodeOpts, Opt.bytes]

/-- One round for each option is fewer than one for each byte. -/
theorem length_le_encodeOpts (os : List Opt) : os.length ≤ (encodeOpts os).length := by
  simp only [encodeOpts, List.length_flatMap]
  calc os.length = (os.map fun _ => 1).sum := by simp
    _ ≤ (os.map fun o => o.bytes.length).sum := List.sum_le_sum fun o _ => by simp [Opt.bytes]

theorem HdrBuf.Carries.add {h : HdrBuf} {os : List Opt} (hc : h.Carries os) (code : UInt8) (value : List UInt8)
    (hcode : code ≠ optEol ∧ code ≠ optNop) (hlen : (encodeOpts os).length + value.length ≤ 38) :
    (dtpAddOptionToHeader h code value).Carries (os ++ [⟨code, value⟩]) where
  opts := by
    simp [dtpAddOptionToHeader, hc.opts, encodeOpts, Opt.bytes]
  sized x hx := by
    rcases List.mem_append.mp hx with hx | hx
    · exact hc.sized x hx
    · rw [List.mem_singleton.mp hx]
      exact ⟨hcode.1, hcode.2, by simp only; omega⟩
  wf := wf_dtpAddOptionToHeader (by rw [hc.opts]; exact hlen)

theorem HdrBuf.Carries.addIf {h : HdrBuf} {os : List Opt} (hc : h.Carries os) (P : Prop)
    [Decidable P] (code : UInt8) (value : List UInt8) (hcode : code ≠ optEol ∧ code ≠ optNop)
    (hlen : (encodeOpts os).length + value.length ≤ 38) :
    (if P then dtpAddOptionToHeader h code value else h).Carries
      (os ++ if P then [⟨code, value⟩] else []) := by
  split_ifs
  · exact hc.add code value hcode hlen
  · simpa using hc

theorem parsers_mkDatagram {h : HdrBuf} {os : List Opt} (hc : h.Carries os) (payload : List UInt8) (hid : List UInt8)
    (deadline : UInt32) (scale : UInt8) (port : UInt16) : dtpGetOption (mkDatagram h payload) hid (some deadline) =
    .ok (os.foldl (getStep .little) (hid, some deadline)) ∧
    dtpParseOption (mkDatagram h payload) scale port = .ok (os.foldl (parseStep .little) (scale, port)) := by
  have hoff : optLen (mkDatagram h payload) = ((h.padded - hdrSize : ℕ) : ℤ) := by
    have hhdr : getHeaderLen (mkDatagram h payload) = h.padded := hc.wf
    have hle := hdrSize_le_padded h
    rw [optLen, hhdr]
    omega
  have hsize : (encodeOpts os).length ≤ h.padded - hdrSize ∧ h.size = hdrSize + (encodeOpts os).length := by
    have hopts : h.size = hdrSize + (encodeOpts os).length := by rw [HdrBuf.size, hc.opts]
    refine ⟨?_, hopts⟩
    rw [HdrBuf.padded, hopts, hdrSize]
    omega
  have hcount := length_le_encodeOpts os
  have hlies : LiesAt (mkDatagram h payload).opts 0 (encodeOpts os) := by
    intro j hj
    simp only [mkDatagram, hc.opts, Nat.zero_add, List.append_assoc]
    rw [List.getD_eq_getElem?_getD, List.getElem?_append_left hj, ← List.getD_eq_getElem?_getD]
  have hpad : ((encodeOpts os).length : ℤ) < optLen (mkDatagram h payload) →
      (mkDatagram h payload).opts (0 + (encodeOpts os).length) = optEol := by
    intro hlt
    rw [hoff] at hlt
    have hmore : 0 < h.padded - h.size := by omega
    simp only [mkDatagram, hc.opts, Nat.zero_add, List.append_assoc]
    rw [List.getD_eq_getElem?_getD, List.getElem?_append_right (Nat.le_refl _), Nat.sub_self,
      List.getElem?_append_left (by simpa using hmore)]
    simp [optEol, hmore]
  exact option_loops_encode os hc.sized hlies (by rw [hoff]; exact_mod_cast hsize.1) hpad
    (by rw [hoff, Int.toNat_natCast]; omega) (hid, deadline) (scale, port)

end Cedos.Dtp
