import Mathlib.Data.Finset.Card
import Mathlib.Algebra.Order.Group.Nat

/-!
# What `dtp_select` returns

The descriptor sets are split into DTP sockets and plain descriptors. The former are compared with
the pending bits, the latter handed to the `select` of the system, with the library's inner socket
added, through which an event on a DTP socket ends the wait. A wake-up without an event restores the
sets and waits again.

The sets are split and recombined by words, so the copies contain the descriptors of the last word
also at and above `nfds`. The result of the `select` after a pending event is not tested. And the
inner socket is added to a read set that is not given to `select` when the caller passes none, while
the loop before that looks into the caller's read set without a test.
-/

namespace Cedos.Dtp

/-- A bit array of descriptors. -/
abbrev FdSet := Finset ℕ

/-- What the `select` of the system finds: an error, or the descriptors that are ready. -/
inductive SelectOutcome
  | error
  | ready (r w : FdSet)
  deriving DecidableEq

/-- `select`: of the descriptors below `n`, the sets keep those that are ready, and these are
counted. After an error the sets are as before. -/
def select (n : ℕ) (r w : FdSet) : SelectOutcome → ℤ × FdSet × FdSet
  | .error => (-1, r, w)
  | .ready f g =>
    let r := r.filter fun x => x < n ∧ x ∈ f
    let w := w.filter fun x => x < n ∧ x ∈ g
    (r.card + w.card, r, w)

/-- The pending bits `g_rfds` and `g_wfds`. -/
structure PendingBits where
  read : FdSet
  write : FdSet

/-- One set of `DTPSelectCheckAnyPendingEvent`: the count, and the set without what is not pending. -/
def checkPending (n : ℕ) (s pending : FdSet) : ℕ × FdSet :=
  ((s.filter fun x => x < n ∧ x ∈ pending).card, s.filter fun x => x < n → x ∈ pending)

/-- `DTPSelectCheckAnyPendingEvent`. -/
def dtpSelectCheckAnyPendingEvent (n : ℕ) (r w : FdSet) (p : PendingBits) : ℕ × FdSet × FdSet :=
  ((checkPending n r p.read).1 + (checkPending n w p.write).1, (checkPending n r p.read).2,
    (checkPending n w p.write).2)

/-- The bits of the first `maxidx` words. -/
def wordBits (nfds : ℕ) : ℕ := 64 * ((nfds + 63) / 64)

/-- The arguments; `exceptfds` says that there is such a set. -/
structure SelectArgs where
  nfds : ℤ
  readfds : Option FdSet
  writefds : Option FdSet
  exceptfds : Bool

/-- What one turn of the loop meets: the outcome of `select`, whether the message is read from the
inner socket as a whole, and the pending bits after that. -/
structure SelectRound where
  outcome : SelectOutcome
  readOk : Bool
  pending : PendingBits

/-- What the call meets: the DTP sockets, the inner socket, the pending bits at the first check, the
outcome of the `select` that follows if there are some, and the turns of the loop if there are none. -/
structure SelectEnv where
  dtp : FdSet
  inner : ℕ
  pending : PendingBits
  first : SelectOutcome
  rounds : List SelectRound

/-- The result with the sets as they are then, the pending bits at the last check, and the outcome of
the last `select`. -/
structure SelectReturn where
  ret : ℤ
  readfds : Option FdSet
  writefds : Option FdSet
  found : PendingBits
  last : Option SelectOutcome

/-- How the call ends. -/
inductive SelectRun
  /-- it dereferences `NULL` -/
  | crashed
  | blocked
  | returned (r : SelectReturn)

/-- The local sets of `dtp_select`. -/
structure LocalSets where
  rdtp : FdSet
  wdtp : FdSet
  rtcp : FdSet
  wtcp : FdSet

namespace SelectArgs

/-- The first words of a set of the caller. -/
def words (a : SelectArgs) (s : Option FdSet) : FdSet := (s.getD ∅).filter (· < wordBits a.nfds.toNat)

/-- The caller's sets split by the DTP sockets. -/
def split (a : SelectArgs) (dtp : FdSet) : LocalSets where
  rdtp := a.words a.readfds ∩ dtp
  wdtp := a.words a.writefds ∩ dtp
  rtcp := a.words a.readfds \ dtp
  wtcp := a.words a.writefds \ dtp

/-- Write the first words of a set of the caller. -/
def write (a : SelectArgs) (new s : FdSet) : FdSet :=
  new.filter (· < wordBits a.nfds.toNat) ∪ s.filter (wordBits a.nfds.toNat ≤ ·)

def recombine (a : SelectArgs) (r w : FdSet) : Option FdSet × Option FdSet :=
  (a.readfds.map (a.write r), a.writefds.map (a.write w))

/-- The end of `dtp_select`; `count` is `count_dtp`, with `dtpHasAnyEvent` when it is positive. -/
def finish (a : SelectArgs) (l : LocalSets) (count : ℕ) (countTcp : ℤ) (found : PendingBits)
    (last : SelectOutcome) : SelectRun :=
  let out := if 0 < count then a.recombine (l.rdtp ∪ l.rtcp) (l.wdtp ∪ l.wtcp)
    else a.recombine l.rtcp l.wtcp
  .returned ⟨if 0 < count then count + countTcp else countTcp, out.1, out.2, found, some last⟩

/-- The loop, with the sets that are restored at each turn. -/
def loop (a : SelectArgs) (inner : ℕ) (l : LocalSets) (found : PendingBits) :
    List SelectRound → SelectRun
  | [] => .blocked
  | t :: ts =>
    let n := max a.nfds.toNat (inner + 1)
    let rtcp := insert inner l.rtcp
    -- without a read set of the caller, `select` gets none
    let s := select n (if a.readfds.isSome then rtcp else ∅) l.wtcp t.outcome
    let rtcp := if a.readfds.isSome then s.2.1 else rtcp
    if s.1 = 0 ∨ s.1 = -1 then
      .returned ⟨s.1, a.readfds.map fun _ => ∅, a.writefds.map fun _ => ∅, found, some t.outcome⟩
    else if inner ∈ rtcp then
      if !t.readOk then .returned ⟨-1, a.readfds, a.writefds, found, some t.outcome⟩
      else
        let d := dtpSelectCheckAnyPendingEvent n l.rdtp l.wdtp t.pending
        if 0 < s.1 - 1 ∨ 0 < d.1 then
          a.finish ⟨d.2.1, d.2.2, rtcp.erase inner, s.2.2⟩ d.1 (s.1 - 1) t.pending t.outcome
        else a.loop inner l t.pending ts
    else a.finish { l with rtcp := rtcp, wtcp := s.2.2 } 0 s.1 found t.outcome

end SelectArgs

def dtpSelect (a : SelectArgs) (env : SelectEnv) : SelectRun :=
  if a.exceptfds ∨ a.nfds < 0 then .returned ⟨-1, a.readfds, a.writefds, env.pending, none⟩
  -- the first loop looks into the read set
  else if a.readfds = none ∧ ∃ i ∈ env.dtp, i < a.nfds.toNat then .crashed
  else
    let l := a.split env.dtp
    let d := dtpSelectCheckAnyPendingEvent a.nfds.toNat l.rdtp l.wdtp env.pending
    if 0 < d.1 then
      let s := select a.nfds.toNat l.rtcp l.wtcp env.first
      a.finish ⟨d.2.1, d.2.2, s.2.1, s.2.2⟩ d.1 s.1 env.pending env.first
    else a.loop env.inner l env.pending env.rounds

/-! ## The specification -/

/-- The descriptors of `s` that count: the pending DTP sockets and the plain descriptors that are
ready. -/
def eventful (dtp pending ready s : FdSet) : FdSet :=
  s.filter fun x => if x ∈ dtp then x ∈ pending else x ∈ ready

/-- One set of the caller afterwards: a subset of what it was, and below `n` exactly the descriptors
that count. -/
def SetSpec (dtp : FdSet) (n : ℕ) (pending ready : FdSet) : Option FdSet → Option FdSet → Prop
  | none, none => True
  | some s, some s' => s' ⊆ s ∧ ∀ x < n, x ∈ s' ↔ x ∈ eventful dtp pending ready s
  | _, _ => False

def bits (s : Option FdSet) : ℕ := (s.getD ∅).card

/-- What the caller can expect: an error of `select` is an error, and a count is that of the bits of
the sets, which report the pending bits and what `select` has found. -/
structure SelectSpec (a : SelectArgs) (dtp : FdSet) (r : SelectReturn) : Prop where
  error : r.last = some .error → r.ret = -1
  count : 0 ≤ r.ret → r.ret = bits r.readfds + bits r.writefds
  sets : 0 ≤ r.ret → ∃ f g, r.last = some (.ready f g) ∧ SetSpec dtp a.nfds.toNat r.found.read f a.readfds r.readfds ∧
    SetSpec dtp a.nfds.toNat r.found.write g a.writefds r.writefds

/-- The call ends as the caller can expect. -/
def SelectRun.Meets (a : SelectArgs) (dtp : FdSet) : SelectRun → Prop
  | .crashed => False
  | .blocked => True
  | .returned r => SelectSpec a dtp r

/-! ## When it is met -/

namespace SelectArgs
variable (a : SelectArgs) (env : SelectEnv)

/-- A DTP socket of the sets below `n` is pending. -/
def Pends (dtp : FdSet) (n : ℕ) (p : PendingBits) : Prop :=
  (∃ x ∈ a.words a.readfds, x ∈ dtp ∧ x < n ∧ x ∈ p.read) ∨
    ∃ x ∈ a.words a.writefds, x ∈ dtp ∧ x < n ∧ x ∈ p.write

instance (dtp : FdSet) (n : ℕ) (p : PendingBits) : Decidable (a.Pends dtp n p) :=
  inferInstanceAs (Decidable (_ ∨ _))

/-- The sets have no bits beyond the words that are written back, and no DTP sockets at or above `n`. -/
def Within (dtp : FdSet) (n : ℕ) : Prop :=
  ∀ x ∈ a.readfds.getD ∅ ∪ a.writefds.getD ∅, x < wordBits a.nfds.toNat ∧ (x ∈ dtp → x < n)

/-- The number of descriptors that a call which waits gives to `select`. -/
def top : ℕ := max a.nfds.toNat (env.inner + 1)

/-- The plain descriptors of a set below `n` that `select` finds ready. -/
def told (dtp : FdSet) (n : ℕ) (s : Option FdSet) (f : FdSet) : FdSet :=
  (a.words s \ dtp).filter fun x => x < n ∧ x ∈ f

/-- Those that a call which waits is told of. -/
def heard (s : Option FdSet) (f : FdSet) : FdSet := a.told env.dtp (a.top env) s f

/-- A wake-up without an event, after which the call waits again. Without a read set a single plain
descriptor is taken for one. -/
def idle (t : SelectRound) : Bool :=
  t.readOk && !decide (a.Pends env.dtp (a.top env) t.pending) &&
    match t.outcome with
    | .error => false
    | .ready f g =>
      if a.readfds.isSome then
        decide (env.inner ∈ f ∧ (a.heard env a.readfds f).erase env.inner = ∅ ∧ a.heard env a.writefds g = ∅)
      else decide ((a.heard env a.writefds g).card = 1)

/-- The turn ends the call with a result that is right: it fails or times out, or reports sets without
stray bits, and without the inner socket among the caller's descriptors if it was the one that was ready.
Without a read set no report is right. -/
def Fine (t : SelectRound) : Prop :=
  match t.outcome with
  | .error => True
  | .ready f g =>
    if a.readfds.isSome then
      if env.inner ∈ f then
        t.readOk = true → ¬(env.inner ∈ a.readfds.getD ∅ \ env.dtp ∧ env.inner < a.nfds.toNat) ∧
          a.Within env.dtp (wordBits a.nfds.toNat) ∧
          (a.Pends env.dtp (a.top env) t.pending → a.Within env.dtp (a.top env))
      else a.heard env a.readfds f ∪ a.heard env a.writefds g ≠ ∅ → a.Within env.dtp (wordBits a.nfds.toNat)
    else t.readOk = true → a.heard env a.writefds g = ∅

/-- The calls that end well. Without a read set there is no DTP socket below `nfds`; if a pending bit is
found at once, the `select` that follows does not fail and there are no stray bits; and else the first
turn of the loop that is no idle wake-up is fine. -/
structure Reportable : Prop where
  readable : a.readfds = none → ¬∃ i ∈ env.dtp, i < a.nfds.toNat
  first : a.Pends env.dtp a.nfds.toNat env.pending → env.first ≠ .error ∧ a.Within env.dtp a.nfds.toNat
  waits : ¬a.Pends env.dtp a.nfds.toNat env.pending → ∀ t ∈ env.rounds.find? (!a.idle env ·), a.Fine env t

end SelectArgs

/-! ## The sets -/

section Sets
variable {d p : FdSet} {n : ℕ}

theorem le_wordBits (n : ℕ) : n ≤ wordBits n := by
  unfold wordBits
  omega

/-- The check keeps what it counts, and what it does not look at. -/
theorem card_checkPending (n : ℕ) (d p : FdSet) :
    (checkPending n d p).2.card = (checkPending n d p).1 + (d.filter (n ≤ ·)).card := by
  have hsplit : (checkPending n d p).2 = (d.filter fun x => x < n ∧ x ∈ p) ∪ d.filter (n ≤ ·) := by
    ext x
    simp only [checkPending, Finset.mem_filter, Finset.mem_union]
    by_cases hx : x < n
    · simp [hx, not_le.mpr hx]
    · simp [hx, not_lt.mp hx]
  rw [hsplit, Finset.card_union_of_disjoint]
  · rfl
  · refine Finset.disjoint_left.mpr fun x hx hx' => ?_
    simp only [Finset.mem_filter] at hx hx'
    omega

end Sets

namespace SelectArgs
variable {a : SelectArgs} {env : SelectEnv} {dtp : FdSet} {n : ℕ} {p : PendingBits} {s : Option FdSet} {new f : FdSet}

/-- The bits of a set that are not written. -/
def outside (a : SelectArgs) (s : Option FdSet) : FdSet := (s.getD ∅).filter (wordBits a.nfds.toNat ≤ ·)

theorem words_none (a : SelectArgs) : a.words none = ∅ := by simp [words]

theorem bits_write (h : new ⊆ a.words s) : bits (s.map (a.write new)) = new.card + (a.outside s).card := by
  cases s with
  | none =>
    rw [words_none, Finset.subset_empty] at h
    simp [bits, outside, h]
  | some s =>
    have hlow : new.filter (· < wordBits a.nfds.toNat) = new :=
      Finset.filter_true_of_mem fun x hx => (Finset.mem_filter.mp (h hx)).2
    change (a.write new s).card = _
    rw [write, hlow, Finset.card_union_of_disjoint]
    · rfl
    · refine Finset.disjoint_left.mpr fun x hx hx' => ?_
      exact absurd (Finset.mem_filter.mp hx').2 (not_le.mpr (Finset.mem_filter.mp (h hx)).2)

/-- Below `nfds` the caller's set is overwritten. -/
theorem setSpec_write (h : new ⊆ a.words s) {q : FdSet} : SetSpec dtp a.nfds.toNat q f s (s.map (a.write new)) ↔
    ∀ x < a.nfds.toNat, x ∈ new ↔ x ∈ eventful dtp q f (s.getD ∅) := by
  cases s with
  | none =>
    rw [words_none, Finset.subset_empty] at h
    simp [SetSpec, eventful, h]
  | some s =>
    have hmem : ∀ x < a.nfds.toNat, x ∈ a.write new s ↔ x ∈ new := by
      intro x hx
      have hlow := hx.trans_le (le_wordBits _)
      simp [write, hlow, not_le.mpr hlow]
    constructor
    · intro hspec x hx
      rw [← hmem x hx]
      exact hspec.2 x hx
    · intro heq
      refine ⟨fun x hx => ?_, fun x hx => (hmem x hx).trans (heq x hx)⟩
      rcases Finset.mem_union.mp hx with hx | hx
      · exact (Finset.mem_filter.mp (h (Finset.mem_filter.mp hx).1)).1
      · exact (Finset.mem_filter.mp hx).1

/-! ### Pending bits -/

/-- The check on the sets of the call. -/
def check (a : SelectArgs) (dtp : FdSet) (n : ℕ) (p : PendingBits) : ℕ × FdSet × FdSet :=
  dtpSelectCheckAnyPendingEvent n (a.words a.readfds ∩ dtp) (a.words a.writefds ∩ dtp) p

theorem pends_iff : a.Pends dtp n p ↔ 0 < (a.check dtp n p).1 := by
  simp only [check, dtpSelectCheckAnyPendingEvent, checkPending, Nat.add_pos_iff_pos_or_pos, Finset.card_pos]
  simp [Pends, Finset.Nonempty, and_assoc]

theorem Pends.mono {m : ℕ} (h : a.Pends dtp m p) (hm : m ≤ n) : a.Pends dtp n p := by
  rcases h with ⟨x, hx, hd, hlt, hp⟩ | ⟨x, hx, hd, hlt, hp⟩
  · exact .inl ⟨x, hx, hd, hlt.trans_le hm, hp⟩
  · exact .inr ⟨x, hx, hd, hlt.trans_le hm, hp⟩

/-- The bits that are in the sets of a report and not in its count. -/
def stray (a : SelectArgs) (dtp : FdSet) (n : ℕ) (p : PendingBits) : ℕ :=
  (a.outside a.readfds).card + (a.outside a.writefds).card +
    if 0 < (a.check dtp n p).1 then
      ((a.words a.readfds ∩ dtp).filter (n ≤ ·)).card + ((a.words a.writefds ∩ dtp).filter (n ≤ ·)).card
    else 0

theorem outside_eq_empty : a.outside s = ∅ ↔ ∀ x ∈ s.getD ∅, x < wordBits a.nfds.toNat := by
  simp [outside, Finset.filter_eq_empty_iff]

theorem outside_within_iff : (a.outside a.readfds).card + (a.outside a.writefds).card = 0 ↔
    a.Within dtp (wordBits a.nfds.toNat) := by
  rw [Nat.add_eq_zero_iff, Finset.card_eq_zero, Finset.card_eq_zero, outside_eq_empty, outside_eq_empty]
  simp only [Within, Finset.mem_union]
  constructor
  · rintro ⟨hr, hw⟩ x (hx | hx)
    · exact ⟨hr x hx, fun _ => hr x hx⟩
    · exact ⟨hw x hx, fun _ => hw x hx⟩
  · intro h
    exact ⟨fun x hx => (h x (.inl hx)).1, fun x hx => (h x (.inr hx)).1⟩

theorem unchecked_within_iff (hw : a.Within dtp (wordBits a.nfds.toNat)) :
    ((a.words a.readfds ∩ dtp).filter (n ≤ ·)).card + ((a.words a.writefds ∩ dtp).filter (n ≤ ·)).card = 0 ↔
      a.Within dtp n := by
  rw [Nat.add_eq_zero_iff, Finset.card_eq_zero, Finset.card_eq_zero, Finset.filter_eq_empty_iff,
    Finset.filter_eq_empty_iff]
  simp only [words, Finset.mem_inter, Finset.mem_filter, not_le, and_imp]
  constructor
  · rintro ⟨hr, hw'⟩ x hx
    refine ⟨(hw x hx).1, fun hd => ?_⟩
    rcases Finset.mem_union.mp hx with hx' | hx'
    · exact hr hx' (hw x hx).1 hd
    · exact hw' hx' (hw x hx).1 hd
  · intro h
    exact ⟨fun x hx _ hd => (h x (Finset.mem_union_left _ hx)).2 hd,
      fun x hx _ hd => (h x (Finset.mem_union_right _ hx)).2 hd⟩

theorem stray_eq_zero_iff : a.stray dtp n p = 0 ↔
    a.Within dtp (wordBits a.nfds.toNat) ∧ (a.Pends dtp n p → a.Within dtp n) := by
  rw [stray, Nat.add_eq_zero_iff, outside_within_iff, pends_iff]
  refine and_congr_right fun hw => ?_
  split_ifs with hpos
  · simp only [hpos, forall_const]
    exact unchecked_within_iff hw
  · simp [hpos]

/-! ### Reports -/

/-- Below `nfds` a report has the DTP sockets right; the plain descriptors are right if they are those
that were ready. -/
theorem eventful_iff {d t q : FdSet} (hn : a.nfds.toNat ≤ n)
    (hd : ∀ x < n, x ∈ d ↔ x ∈ a.words s ∩ dtp ∧ x ∈ q) (ht : t ⊆ a.words s \ dtp) :
    (∀ x < a.nfds.toNat, x ∈ d ∪ t ↔ x ∈ eventful dtp q f (s.getD ∅)) ↔
      ∀ x < a.nfds.toNat, x ∈ t ↔ x ∈ s.getD ∅ \ dtp ∧ x ∈ f := by
  refine forall₂_congr fun x hx => ?_
  have hlow := hx.trans_le (le_wordBits _)
  have hin := hd x (hx.trans_le hn)
  simp only [words, Finset.mem_inter, Finset.mem_filter, hlow, and_true] at hin
  simp only [Finset.mem_union, hin, eventful, Finset.mem_filter, Finset.mem_sdiff]
  by_cases hxd : x ∈ dtp
  · have hout : x ∉ t := fun hxt => (Finset.mem_sdiff.mp (ht hxt)).2 hxd
    simp [hxd, hout]
  · simp [hxd]

theorem told_subset (a : SelectArgs) (dtp : FdSet) (n : ℕ) (s : Option FdSet) (f : FdSet) :
    a.told dtp n s f ⊆ a.words s \ dtp := Finset.filter_subset _ _

theorem mem_told {x : ℕ} (hn : a.nfds.toNat ≤ n) (hx : x < a.nfds.toNat) :
    x ∈ a.told dtp n s f ↔ x ∈ s.getD ∅ \ dtp ∧ x ∈ f := by
  simp [told, words, hx.trans_le hn, hx.trans_le (le_wordBits _)]

theorem spec_ready_iff {ret : ℤ} {r w : Option FdSet} {g : FdSet} (hret : 0 ≤ ret) :
    SelectSpec a dtp ⟨ret, r, w, p, some (.ready f g)⟩ ↔ ret = bits r + bits w ∧
      SetSpec dtp a.nfds.toNat p.read f a.readfds r ∧ SetSpec dtp a.nfds.toNat p.write g a.writefds w := by
  constructor
  · intro h
    obtain ⟨f', g', hlast, hr, hw⟩ := h.sets hret
    obtain ⟨rfl, rfl⟩ := SelectOutcome.ready.inj (Option.some.inj hlast)
    exact ⟨h.count hret, hr, hw⟩
  · rintro ⟨hcount, hr, hw⟩
    exact ⟨fun h => (by cases h), fun _ => hcount, fun _ => ⟨f, g, rfl, hr, hw⟩⟩

/-- One set of a report: the DTP sockets that are reported, if there are any, and `t` of the others. -/
theorem side_spec {q t e : FdSet} (hn : a.nfds.toNat ≤ n) (ht : t ⊆ a.words s \ dtp) (b : Bool)
    (hb : b = false → ∀ x < n, ¬(x ∈ a.words s ∩ dtp ∧ x ∈ q)) :
    bits (s.map (a.write (if b then (checkPending n (a.words s ∩ dtp) q).2 ∪ t else t))) =
        (if b then (checkPending n (a.words s ∩ dtp) q).1 + ((a.words s ∩ dtp).filter (n ≤ ·)).card else 0) +
          t.card + (a.outside s).card ∧
      (SetSpec dtp a.nfds.toNat q e s
          (s.map (a.write (if b then (checkPending n (a.words s ∩ dtp) q).2 ∪ t else t))) ↔
        ∀ x < a.nfds.toNat, x ∈ t ↔ x ∈ s.getD ∅ \ dtp ∧ x ∈ e) := by
  have htw : t ⊆ a.words s := ht.trans Finset.sdiff_subset
  cases b with
  | true =>
    have hsub : (checkPending n (a.words s ∩ dtp) q).2 ⊆ a.words s ∩ dtp := Finset.filter_subset _ _
    have hdisj : Disjoint (checkPending n (a.words s ∩ dtp) q).2 t :=
      Finset.disjoint_left.mpr fun x hx hx' =>
        (Finset.mem_sdiff.mp (ht hx')).2 (Finset.mem_inter.mp (hsub hx)).2
    have hall := Finset.union_subset (hsub.trans Finset.inter_subset_left) htw
    simp only [if_true, bits_write hall, setSpec_write hall]
    rw [Finset.card_union_of_disjoint hdisj, card_checkPending]
    refine ⟨rfl, eventful_iff hn (fun x hx => ?_) ht⟩
    simp [checkPending, hx]
  | false =>
    simp only [Bool.false_eq_true, if_false, bits_write htw, setSpec_write htw]
    refine ⟨by omega, ?_⟩
    have hnone := eventful_iff (f := e) (d := ∅) hn (fun x hx => by simpa using hb rfl x hx) ht
    simpa using hnone

/-- The end of the call meets the specification if its count is right and the plain descriptors are. -/
theorem meets_finish_iff {tr tw g : FdSet} {k : ℤ} (hn : a.nfds.toNat ≤ n) (hr : tr ⊆ a.words a.readfds \ dtp)
    (hw : tw ⊆ a.words a.writefds \ dtp) (hk : 0 ≤ k) :
    (a.finish ⟨(a.check dtp n p).2.1, (a.check dtp n p).2.2, tr, tw⟩ (a.check dtp n p).1 k p (.ready f g)).Meets a dtp ↔
      k = tr.card + tw.card + a.stray dtp n p ∧
        (∀ x < a.nfds.toNat, x ∈ tr ↔ x ∈ a.readfds.getD ∅ \ dtp ∧ x ∈ f) ∧
        ∀ x < a.nfds.toNat, x ∈ tw ↔ x ∈ a.writefds.getD ∅ \ dtp ∧ x ∈ g := by
  have hidle (hno : ¬0 < (a.check dtp n p).1) : ¬a.Pends dtp n p := fun h => hno (pends_iff.mp h)
  obtain ⟨hbr, hsr⟩ := side_spec (q := p.read) (e := f) hn hr (decide (0 < (a.check dtp n p).1)) fun hno x hx h =>
    hidle (by simpa using hno) (.inl ⟨x, (Finset.mem_inter.mp h.1).1, (Finset.mem_inter.mp h.1).2, hx, h.2⟩)
  obtain ⟨hbw, hsw⟩ := side_spec (q := p.write) (e := g) hn hw (decide (0 < (a.check dtp n p).1)) fun hno x hx h =>
    hidle (by simpa using hno) (.inr ⟨x, (Finset.mem_inter.mp h.1).1, (Finset.mem_inter.mp h.1).2, hx, h.2⟩)
  have hcount : (a.check dtp n p).1 = (checkPending n (a.words a.readfds ∩ dtp) p.read).1 +
      (checkPending n (a.words a.writefds ∩ dtp) p.write).1 := rfl
  rw [← hsr, ← hsw]
  simp only [finish, recombine, SelectRun.Meets, stray]
  by_cases hpos : 0 < (a.check dtp n p).1
  · simp only [hpos, decide_true, if_true] at hbr hbw ⊢
    rw [spec_ready_iff (by omega)]
    refine and_congr_left fun _ => ?_
    simp only [check, dtpSelectCheckAnyPendingEvent] at hcount ⊢
    omega
  · simp only [hpos, decide_false, Bool.false_eq_true, if_false] at hbr hbw ⊢
    rw [spec_ready_iff hk]
    refine and_congr_left fun _ => ?_
    omega

/-- A report of what is pending and ready. -/
theorem meets_report_iff {m : ℕ} {g : FdSet} (hn : a.nfds.toNat ≤ n) (hm : a.nfds.toNat ≤ m) :
    (a.finish ⟨(a.check dtp n p).2.1, (a.check dtp n p).2.2, a.told dtp m a.readfds f, a.told dtp m a.writefds g⟩
      (a.check dtp n p).1 ((a.told dtp m a.readfds f).card + (a.told dtp m a.writefds g).card) p
      (.ready f g)).Meets a dtp ↔ a.Within dtp (wordBits a.nfds.toNat) ∧ (a.Pends dtp n p → a.Within dtp n) := by
  rw [meets_finish_iff hn (told_subset ..) (told_subset ..) (by omega), ← stray_eq_zero_iff,
    and_iff_left ⟨fun x hx => mem_told hm hx, fun x hx => mem_told hm hx⟩]
  omega

/-! ### Waiting -/

theorem spec_of_error {ret : SelectReturn} (h : ret.ret = -1) : SelectSpec a dtp ret := by
  refine ⟨fun _ => h, fun hpos => ?_, fun hpos => ?_⟩ <;> omega

theorem le_top (a : SelectArgs) (env : SelectEnv) : a.nfds.toNat ≤ a.top env := le_max_left _ _

theorem heard_subset (a : SelectArgs) (env : SelectEnv) (s : Option FdSet) (f : FdSet) :
    a.heard env s f ⊆ a.words s \ env.dtp := told_subset ..

theorem mem_heard {x : ℕ} (hx : x < a.nfds.toNat) : x ∈ a.heard env s f ↔ x ∈ s.getD ∅ \ env.dtp ∧ x ∈ f :=
  mem_told (le_top a env) hx

/-- Nothing is pending and nothing is ready. -/
theorem spec_timeout {g : FdSet} (hp : ¬a.Pends env.dtp a.nfds.toNat p) (hr : a.heard env a.readfds f = ∅)
    (hw : a.heard env a.writefds g = ∅) : SelectSpec a env.dtp
      ⟨0, a.readfds.map fun _ => ∅, a.writefds.map fun _ => ∅, p, some (.ready f g)⟩ := by
  have hset (s : Option FdSet) (q e : FdSet) (hs : a.heard env s e = ∅)
      (hq : ∀ x ∈ a.words s, x ∈ env.dtp → x < a.nfds.toNat → x ∉ q) :
      bits (s.map fun _ => ∅) = 0 ∧ SetSpec env.dtp a.nfds.toNat q e s (s.map fun _ => ∅) := by
    cases s with
    | none => exact ⟨rfl, trivial⟩
    | some s =>
      refine ⟨rfl, Finset.empty_subset _, fun x hx => iff_of_false (Finset.notMem_empty x) fun hev => ?_⟩
      obtain ⟨hxs, hif⟩ := Finset.mem_filter.mp hev
      by_cases hd : x ∈ env.dtp
      · rw [if_pos hd] at hif
        exact hq x (Finset.mem_filter.mpr ⟨hxs, hx.trans_le (le_wordBits _)⟩) hd hx hif
      · rw [if_neg hd] at hif
        have hmem : x ∈ a.heard env (some s) e := (mem_heard hx).mpr ⟨Finset.mem_sdiff.mpr ⟨hxs, hd⟩, hif⟩
        rw [hs] at hmem
        exact absurd hmem (Finset.notMem_empty x)
  obtain ⟨hbr, hsr⟩ := hset a.readfds p.read f hr fun x hx hd hlt hxp => hp (.inl ⟨x, hx, hd, hlt, hxp⟩)
  obtain ⟨hbw, hsw⟩ := hset a.writefds p.write g hw fun x hx hd hlt hxp => hp (.inr ⟨x, hx, hd, hlt, hxp⟩)
  rw [spec_ready_iff le_rfl, hbr, hbw]
  exact ⟨rfl, hsr, hsw⟩

theorem filter_plain (f : FdSet) : ((a.words s \ env.dtp).filter fun x =>
    x < max a.nfds.toNat (env.inner + 1) ∧ x ∈ f) = a.heard env s f := rfl

/-- What `select` finds ready with the inner socket added. -/
theorem filter_insert_inner (f : FdSet) : ((insert env.inner (a.words s \ env.dtp)).filter fun x =>
    x < max a.nfds.toNat (env.inner + 1) ∧ x ∈ f) =
      if env.inner ∈ f then insert env.inner (a.heard env s f) else a.heard env s f := by
  have htop : env.inner < max a.nfds.toNat (env.inner + 1) := lt_max_of_lt_right (Nat.lt_succ_self _)
  rw [Finset.filter_insert, filter_plain]
  simp only [htop, true_and]

/-- The inner socket is taken out of a set of the caller. -/
theorem erase_told_iff (hf : env.inner ∈ f) :
    (∀ x < a.nfds.toNat, x ∈ (a.heard env s f).erase env.inner ↔ x ∈ s.getD ∅ \ env.dtp ∧ x ∈ f) ↔
      ¬(env.inner ∈ s.getD ∅ \ env.dtp ∧ env.inner < a.nfds.toNat) := by
  constructor
  · rintro h ⟨hin, hlt⟩
    exact Finset.notMem_erase _ _ ((h _ hlt).mpr ⟨hin, hf⟩)
  · intro h x hx
    rw [← mem_heard hx, Finset.mem_erase]
    refine and_iff_right_of_imp ?_
    rintro hmem rfl
    exact h ⟨((mem_heard hx).mp hmem).1, hx⟩

section Turn
variable {t : SelectRound} {ts : List SelectRound} {g : FdSet} (ht : t.outcome = .ready f g)
include ht

variable (ts) in
omit ht in
/-- The end of a turn after which the inner socket has been read: `r` and `k` are what is left of the plain
descriptors for reading and of their number. -/
theorem meets_woken {r : FdSet} {k : ℤ} (hk : 0 ≤ k) (hsub : r ⊆ a.words a.readfds \ env.dtp)
    (hidle : a.idle env t = true ↔ k = 0 ∧ ¬a.Pends env.dtp (a.top env) t.pending)
    (hfine : a.Fine env t ↔
      k = r.card + (a.heard env a.writefds g).card + a.stray env.dtp (a.top env) t.pending ∧
        ∀ x < a.nfds.toNat, x ∈ r ↔ x ∈ a.readfds.getD ∅ \ env.dtp ∧ x ∈ f) :
    (if 0 < k ∨ 0 < (a.check env.dtp (a.top env) t.pending).1 then
      a.finish ⟨(a.check env.dtp (a.top env) t.pending).2.1, (a.check env.dtp (a.top env) t.pending).2.2, r,
        a.heard env a.writefds g⟩ (a.check env.dtp (a.top env) t.pending).1 k t.pending (.ready f g)
      else a.loop env.inner (a.split env.dtp) t.pending ts).Meets a env.dtp ↔
      if a.idle env t then (a.loop env.inner (a.split env.dtp) t.pending ts).Meets a env.dtp else a.Fine env t := by
  rw [pends_iff] at hidle
  by_cases hev : 0 < k ∨ 0 < (a.check env.dtp (a.top env) t.pending).1
  · have hno : ¬a.idle env t = true := by
      rw [hidle]
      omega
    rw [if_pos hev, if_neg hno, hfine, meets_finish_iff (le_top a env) hsub (heard_subset a env a.writefds g) hk,
      and_iff_left fun x hx => mem_heard hx]
  · rw [if_neg hev, if_pos (hidle.mpr (by omega))]

/-- A turn of the loop when the caller has passed a read set and the inner socket is ready. -/
theorem meets_inner (hr : a.readfds.isSome = true) (hf : env.inner ∈ f) :
    (a.loop env.inner (a.split env.dtp) p (t :: ts)).Meets a env.dtp ↔
      if a.idle env t then (a.loop env.inner (a.split env.dtp) t.pending ts).Meets a env.dtp else a.Fine env t := by
  have hcard : (insert env.inner (a.heard env a.readfds f)).card = ((a.heard env a.readfds f).erase env.inner).card + 1 := by
    rw [← Finset.card_erase_add_one (Finset.mem_insert_self _ _), Finset.erase_insert_eq_erase]
  have hne (m : ℕ) : ¬(((insert env.inner (a.heard env a.readfds f)).card : ℤ) + m = 0 ∨
      ((insert env.inner (a.heard env a.readfds f)).card : ℤ) + m = -1) := by omega
  simp only [loop, split, hr, ht, select, filter_insert_inner, filter_plain, hf, if_true, if_neg (hne _),
    Finset.mem_insert_self, Finset.erase_insert_eq_erase]
  cases hread : t.readOk with
  | false =>
    simp only [Bool.not_false, if_true, idle, hread, Bool.false_and, Bool.false_eq_true, if_false, Fine, ht, hr, hf,
      false_imp_iff, iff_true]
    exact spec_of_error rfl
  | true =>
    simp only [Bool.not_true, Bool.false_eq_true, if_false]
    refine meets_woken ts (by omega) ((Finset.erase_subset _ _).trans (heard_subset a env a.readfds f)) ?_ ?_
    · simp only [idle, hread, ht, hr, hf, if_true, true_and, Bool.true_and, Bool.and_eq_true, Bool.not_eq_true',
        decide_eq_true_eq, decide_eq_false_iff_not, ← Finset.card_eq_zero]
      rw [and_comm]
      refine and_congr_left fun _ => ?_
      omega
    · rw [erase_told_iff hf, and_comm]
      simp only [Fine, ht, hr, hf, hread, if_true, forall_const]
      refine and_congr_right fun _ => ?_
      rw [← stray_eq_zero_iff]
      omega

/-- And when it is not ready. -/
theorem meets_plain (hp : ¬a.Pends env.dtp a.nfds.toNat p) (hr : a.readfds.isSome = true) (hf : env.inner ∉ f) :
    (a.loop env.inner (a.split env.dtp) p (t :: ts)).Meets a env.dtp ↔ a.Fine env t := by
  have hout : env.inner ∉ a.heard env a.readfds f := fun hmem => hf (Finset.mem_filter.mp hmem).2.2
  have hzero := mt pends_iff.mpr hp
  simp only [loop, split, hr, ht, select, filter_insert_inner, filter_plain, hf, if_true, if_false, hout, Fine]
  by_cases hnone : a.heard env a.readfds f = ∅ ∧ a.heard env a.writefds g = ∅
  · simp only [hnone.1, hnone.2, Finset.union_empty, ne_eq, not_true_eq_false, false_imp_iff, iff_true]
    exact spec_timeout hp hnone.1 hnone.2
  · have hsome : a.heard env a.readfds f ∪ a.heard env a.writefds g ≠ ∅ := by rwa [ne_eq, Finset.union_eq_empty]
    have hpos : ¬(((a.heard env a.readfds f).card : ℤ) + (a.heard env a.writefds g).card = 0 ∨
        ((a.heard env a.readfds f).card : ℤ) + (a.heard env a.writefds g).card = -1) := by
      rw [← Finset.card_eq_zero, ← Finset.card_eq_zero] at hnone
      omega
    have hreport : _ ↔ a.Within env.dtp _ ∧ (a.Pends env.dtp a.nfds.toNat p → _) :=
      meets_report_iff (f := f) (g := g) le_rfl (le_top a env)
    rw [Nat.eq_zero_of_not_pos hzero, and_iff_left fun h => absurd h hp] at hreport
    rw [if_neg hpos, forall_prop_of_true hsome, ← hreport]
    simp only [finish, lt_irrefl, if_false]
    rfl

/-- Without a read set, `select` is not told of the inner socket, and one of the descriptors it reports is
taken for it. -/
theorem meets_none (hp : ¬a.Pends env.dtp a.nfds.toNat p) (hr : a.readfds = none) :
    (a.loop env.inner (a.split env.dtp) p (t :: ts)).Meets a env.dtp ↔
      if a.idle env t then (a.loop env.inner (a.split env.dtp) t.pending ts).Meets a env.dtp else a.Fine env t := by
  have hnone : a.words a.readfds \ env.dtp = ∅ := by rw [hr, words_none, Finset.empty_sdiff]
  have hsome : a.readfds.isSome = false := by rw [hr]; rfl
  simp only [loop, split, hsome, ht, select, filter_plain, hnone, Bool.false_eq_true, if_false, Finset.filter_empty,
    Finset.card_empty, Finset.mem_insert_self, if_true]
  by_cases hzero : a.heard env a.writefds g = ∅
  · simp only [idle, Fine, ht, hsome, hzero, Finset.card_empty, zero_ne_one, decide_false, Bool.and_false,
      Bool.false_eq_true, if_false, implies_true, iff_true]
    exact spec_timeout hp (by rw [heard, told, hnone, Finset.filter_empty]) hzero
  have hcard : 0 < (a.heard env a.writefds g).card := Finset.card_pos.mpr (Finset.nonempty_iff_ne_empty.mpr hzero)
  have hpos : ¬(((0 : ℕ) : ℤ) + (a.heard env a.writefds g).card = 0 ∨
      ((0 : ℕ) : ℤ) + (a.heard env a.writefds g).card = -1) := by omega
  rw [if_neg hpos]
  cases hread : t.readOk with
  | false =>
    simp only [idle, Fine, ht, hsome, hread, Bool.not_false, if_true, Bool.false_and, Bool.false_eq_true, if_false,
      false_imp_iff, iff_true]
    exact spec_of_error rfl
  | true =>
    simp only [Bool.not_true, Bool.false_eq_true, if_false, Finset.erase_insert (Finset.notMem_empty _)]
    have hwoken := meets_woken ts (t := t) (f := f) (g := g)
      (k := ((0 : ℕ) : ℤ) + (a.heard env a.writefds g).card - 1) (by omega)
      (Finset.empty_subset (a.words a.readfds \ env.dtp)) ?_ ?_
    · rw [split, hnone] at hwoken
      exact hwoken
    · simp only [idle, hread, ht, hsome, Bool.true_and, Bool.false_eq_true, if_false, Bool.and_eq_true,
        Bool.not_eq_true', decide_eq_false_iff_not, decide_eq_true_eq]
      rw [and_comm]
      refine and_congr_left fun _ => ?_
      omega
    · simp only [Fine, ht, hsome, hread, hzero, Bool.false_eq_true, if_false, forall_const, false_iff, not_and,
        Finset.card_empty]
      omega

end Turn

/-- The first turn that is no idle wake-up decides. -/
theorem meets_loop_iff {rounds : List SelectRound} (hp : ¬a.Pends env.dtp a.nfds.toNat p) :
    (a.loop env.inner (a.split env.dtp) p rounds).Meets a env.dtp ↔
      ∀ t ∈ rounds.find? (!a.idle env ·), a.Fine env t := by
  induction rounds generalizing p with
  | nil => simp [loop, SelectRun.Meets]
  | cons t ts ih =>
    have hturn : (a.loop env.inner (a.split env.dtp) p (t :: ts)).Meets a env.dtp ↔
        if a.idle env t then (a.loop env.inner (a.split env.dtp) t.pending ts).Meets a env.dtp
        else a.Fine env t := by
      cases ht : t.outcome with
      | error =>
        have hidle : a.idle env t = false := by simp [idle, ht]
        simp only [hidle, Bool.false_eq_true, if_false, Fine, ht, iff_true]
        simp only [loop, ht, select, or_true, if_true]
        exact spec_of_error rfl
      | ready f g =>
        by_cases hr : a.readfds = none
        · exact meets_none ht hp hr
        · have hsome : a.readfds.isSome = true := Option.isSome_iff_ne_none.mpr hr
          by_cases hf : env.inner ∈ f
          · exact meets_inner ht hsome hf
          · have hidle : a.idle env t = false := by simp [idle, ht, hsome, hf]
            rw [hidle, if_neg Bool.false_ne_true]
            exact meets_plain ht hp hsome hf
    rw [hturn, List.find?_cons]
    cases hidle : a.idle env t with
    | true =>
      have hstill : ¬a.Pends env.dtp a.nfds.toNat t.pending := by
        simp only [idle, Bool.and_eq_true, Bool.not_eq_true', decide_eq_false_iff_not] at hidle
        exact fun h => hidle.1.2 (h.mono (le_max_left _ _))
      simpa using ih hstill
    | false => simp

end SelectArgs

/-! ## The result -/

/-- A DTP socket and a plain descriptor of the read set are ready, and a DTP socket of the write set. -/
def sampleSelect : SelectEnv where
  dtp := {3, 4}
  inner := 9
  pending := ⟨∅, ∅⟩
  first := .error
  rounds := [⟨.ready {9} ∅, true, ⟨∅, ∅⟩⟩, ⟨.ready {5, 9} ∅, true, ⟨{3}, {4}⟩⟩]

end Cedos.Dtp
