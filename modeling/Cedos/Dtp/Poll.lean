import Cedos.Dtp.Select
import Cedos.Lib.CInt

/-!
# What `dtp_poll` returns

`dtp_poll` makes a read set and a write set of its entries, calls `dtp_select` and turns what is left in the sets
into `revents`. It returns the value of `dtp_select`, which counts the bits of both sets, so an entry that can be
read and written is counted twice.
-/

namespace Cedos.Dtp

def pollIn : UInt16 := 1
def pollOut : UInt16 := 4
def fdSetsizeS : ℕ := 64 * 1024

/-- `struct pollfd`; `events` and `revents` are bit sets. -/
structure PollFd where
  fd : ℤ
  events : UInt16
  revents : UInt16 := 0
  deriving DecidableEq

/-- `rdset`, `wrset` and the largest descriptor. -/
structure PollSets where
  rdset : FdSet := ∅
  wrset : FdSet := ∅
  val : ℤ := -1

/-- The first loop; `none` is the return with `EINVAL`. -/
def PollSets.collect (s : PollSets) : List PollFd → Option PollSets
  | [] => some s
  | p :: fds =>
    if fdSetsizeS ≤ (u32 p.fd).toNat then none
    else PollSets.collect
      { rdset := if p.events &&& pollIn ≠ 0 then insert p.fd.toNat s.rdset else s.rdset
        wrset := if p.events &&& pollOut ≠ 0 then insert p.fd.toNat s.wrset else s.wrset
        val := max s.val p.fd } fds

/-- The second loop, for one entry. -/
def PollFd.answer (rdset wrset : FdSet) (p : PollFd) : PollFd :=
  { p with revents := (if p.fd.toNat ∈ rdset then pollIn else 0) ||| (if p.fd.toNat ∈ wrset then pollOut else 0) }

/-- The value of `dtp_select` and the sets as it leaves them. -/
structure SelectReply where
  ret : ℤ
  rdset : FdSet
  wrset : FdSet

/-- `dtp_poll`; `dtpSelect` gets the number of descriptors and the sets. -/
def dtpPoll (fds : List PollFd) (dtpSelect : ℤ → FdSet → FdSet → SelectReply) : ℤ × List PollFd :=
  match PollSets.collect {} fds with
  | none => (-1, fds)
  | some s =>
    let reply := dtpSelect (s.val + 1) s.rdset s.wrset
    if reply.ret = -1 then (-1, fds) else (reply.ret, fds.map (PollFd.answer reply.rdset reply.wrset))

/-- `dtp_select` fails, or takes bits out of the sets and returns the number of bits left. -/
def SelectReply.CountsLeft (rdset wrset : FdSet) (r : SelectReply) : Prop :=
  r.ret = -1 ∨ (r.rdset ⊆ rdset ∧ r.wrset ⊆ wrset ∧ r.ret = r.rdset.card + r.wrset.card)

/-- A value that is not negative is the number of entries with an event, and the events are requested ones. -/
def PollSpec (r : ℤ × List PollFd) : Prop :=
  0 ≤ r.1 → r.1 = (r.2.countP fun p => p.revents ≠ 0) ∧ ∀ p ∈ r.2, p.revents &&& p.events = p.revents

/-- The read set, or the write set, of the entries. -/
def requested (bit : UInt16) (fds : List PollFd) : FdSet :=
  ((fds.filter fun p => p.events &&& bit ≠ 0).map fun p => p.fd.toNat).toFinset

section Poll
variable {fds : List PollFd} {s : PollSets} {bit : UInt16}

theorem requested_cons (p : PollFd) (fds : List PollFd) :
    requested bit (p :: fds) = if p.events &&& bit ≠ 0 then insert p.fd.toNat (requested bit fds) else requested bit fds := by
  simp only [requested]
  by_cases hbit : p.events &&& bit ≠ 0
  · rw [List.filter_cons_of_pos (by simpa using hbit), if_pos hbit, List.map_cons, List.toFinset_cons]
  · rw [List.filter_cons_of_neg (by simpa using hbit), if_neg hbit]

/-- With valid descriptors the loop gathers the requested ones. -/
theorem collect_valid (hfds : ∀ p ∈ fds, 0 ≤ p.fd ∧ p.fd < fdSetsizeS) :
    ∃ n, s.collect fds = some ⟨s.rdset ∪ requested pollIn fds, s.wrset ∪ requested pollOut fds, n⟩ := by
  induction fds generalizing s with
  | nil => exact ⟨s.val, by simp [PollSets.collect, requested]⟩
  | cons p fds ih =>
    obtain ⟨hfd, htail⟩ := List.forall_mem_cons.mp hfds
    have hvalid : ¬fdSetsizeS ≤ (u32 p.fd).toNat := by
      rw [fdSetsizeS] at hfd ⊢
      rw [toNat_u32 hfd.1 (by omega)]
      omega
    have hunion (bit : UInt16) (t : FdSet) :
        (if p.events &&& bit ≠ 0 then insert p.fd.toNat t else t) ∪ requested bit fds =
          t ∪ requested bit (p :: fds) := by
      rw [requested_cons]
      split_ifs
      · rw [Finset.insert_union, Finset.union_insert]
      · rfl
    obtain ⟨n, hn⟩ := ih htail
    refine ⟨n, ?_⟩
    rw [PollSets.collect, if_neg hvalid, hn]
    simp only [hunion]

theorem mem_requested {x : ℕ} (h : x ∈ requested bit fds) : ∃ p ∈ fds, p.events &&& bit ≠ 0 ∧ p.fd.toNat = x := by
  simp only [requested, List.mem_toFinset, List.mem_map, List.mem_filter, decide_eq_true_eq] at h
  obtain ⟨p, ⟨hp, hbit⟩, hx⟩ := h
  exact ⟨p, hp, hbit, hx⟩

/-- The entries are told apart by their descriptors. -/
theorem eq_of_fd (hnd : (fds.map PollFd.fd).Nodup) (hfds : ∀ p ∈ fds, 0 ≤ p.fd ∧ p.fd < fdSetsizeS) {p q : PollFd}
    (hp : p ∈ fds) (hq : q ∈ fds) (heq : p.fd.toNat = q.fd.toNat) : p = q := by
  have hp0 := (hfds p hp).1
  have hq0 := (hfds q hq).1
  exact List.inj_on_of_nodup_map hnd hp hq (by omega)

theorem revents_answer (r w : FdSet) (p : PollFd) : (p.answer r w).revents ≠ 0 ↔ p.fd.toNat ∈ r ∪ w := by
  simp only [PollFd.answer, Finset.mem_union]
  by_cases hr : p.fd.toNat ∈ r <;> by_cases hw : p.fd.toNat ∈ w <;> simp [hr, hw, pollIn, pollOut]

/-- The entries with an event are as many as the descriptors left in the sets. -/
theorem countP_answer {r w : FdSet} (hnd : (fds.map PollFd.fd).Nodup)
    (hfds : ∀ p ∈ fds, 0 ≤ p.fd ∧ p.fd < fdSetsizeS) (hr : r ⊆ requested pollIn fds) (hw : w ⊆ requested pollOut fds) :
    (fds.map (PollFd.answer r w)).countP (fun p => p.revents ≠ 0) = (r ∪ w).card := by
  have hset : r ∪ w = ((fds.filter fun p => p.fd.toNat ∈ r ∪ w).map fun p => p.fd.toNat).toFinset := by
    ext x
    simp only [List.mem_toFinset, List.mem_map, List.mem_filter, decide_eq_true_eq]
    refine ⟨fun hx => ?_, ?_⟩
    · have hreq : ∃ p ∈ fds, p.fd.toNat = x := by
        rcases Finset.mem_union.mp hx with hmem | hmem
        · obtain ⟨p, hp, -, heq⟩ := mem_requested (hr hmem)
          exact ⟨p, hp, heq⟩
        · obtain ⟨p, hp, -, heq⟩ := mem_requested (hw hmem)
          exact ⟨p, hp, heq⟩
      obtain ⟨p, hp, heq⟩ := hreq
      exact ⟨p, ⟨hp, heq ▸ hx⟩, heq⟩
    · rintro ⟨p, ⟨-, hmem⟩, rfl⟩
      exact hmem
  have hnodup : ((fds.filter fun p => p.fd.toNat ∈ r ∪ w).map fun p => p.fd.toNat).Nodup := by
    refine List.Nodup.map_on ?_ ((hnd.of_map _).filter _)
    intro p hp q hq
    exact eq_of_fd hnd hfds (List.mem_of_mem_filter hp) (List.mem_of_mem_filter hq)
  rw [List.countP_map, hset, List.toFinset_card_of_nodup hnodup, List.length_map, ← List.countP_eq_length_filter]
  refine List.countP_congr fun p _ => ?_
  simpa using revents_answer r w p

theorem bit_and {e : UInt16} {i : ℕ} (hbit : bit.toBitVec = BitVec.twoPow 16 i) (h : e &&& bit ≠ 0) :
    bit &&& e = bit := by
  have hne : (e &&& bit).toBitVec ≠ 0#16 := fun h0 => h (UInt16.toBitVec_inj.mp h0)
  rw [UInt16.and_comm]
  apply UInt16.toBitVec_inj.mp
  rw [UInt16.toBitVec_and, hbit, BitVec.and_twoPow] at hne ⊢
  split_ifs at hne ⊢
  · rfl
  · exact absurd rfl hne

/-- Only requested events are reported. -/
theorem revents_subset {r w : FdSet} (hnd : (fds.map PollFd.fd).Nodup)
    (hfds : ∀ p ∈ fds, 0 ≤ p.fd ∧ p.fd < fdSetsizeS) (hr : r ⊆ requested pollIn fds) (hw : w ⊆ requested pollOut fds)
    {p : PollFd} (hp : p ∈ fds) : (p.answer r w).revents &&& p.events = (p.answer r w).revents := by
  have hbit {bit : UInt16} {t : FdSet} (ht : t ⊆ requested bit fds) (hmem : p.fd.toNat ∈ t) : p.events &&& bit ≠ 0 := by
    obtain ⟨q, hq, hbit, heq⟩ := mem_requested (ht hmem)
    exact eq_of_fd hnd hfds hq hp heq ▸ hbit
  have hone {bit : UInt16} {i : ℕ} {t : FdSet} (hi : bit.toBitVec = BitVec.twoPow 16 i) (ht : t ⊆ requested bit fds) :
      (if p.fd.toNat ∈ t then bit else 0) &&& p.events = if p.fd.toNat ∈ t then bit else 0 := by
    split_ifs with hmem
    · exact bit_and hi (hbit ht hmem)
    · exact UInt16.zero_and
  have hor (a b c : UInt16) : (a ||| b) &&& c = a &&& c ||| b &&& c :=
    UInt16.toBitVec_inj.mp BitVec.and_or_distrib_right
  simp only [PollFd.answer]
  rw [hor, hone (i := 0) (by decide) hr, hone (i := 2) (by decide) hw]

/-- **What `dtp_poll` returns.**  For distinct valid descriptors the value is the number of entries with an event, and
only requested events are reported, if `dtp_select` fails or leaves no descriptor in both sets, and only then. -/
theorem pollSpec_iff (fds : List PollFd) (hnd : (fds.map PollFd.fd).Nodup)
    (hfds : ∀ p ∈ fds, 0 ≤ p.fd ∧ p.fd < fdSetsizeS) (reply : SelectReply)
    (hreply : reply.CountsLeft (requested pollIn fds) (requested pollOut fds)) :
    PollSpec (dtpPoll fds fun _ _ _ => reply) ↔ reply.ret = -1 ∨ Disjoint reply.rdset reply.wrset := by
  obtain ⟨n, hn⟩ := collect_valid (s := {}) hfds
  rw [dtpPoll, hn]
  simp only
  by_cases hfail : reply.ret = -1
  · rw [if_pos hfail]
    exact iff_of_true (fun hret => absurd hret (by simp)) (.inl hfail)
  rw [if_neg hfail]
  obtain ⟨hr, hw, hret⟩ := hreply.resolve_left hfail
  have hcount := countP_answer hnd hfds hr hw
  have hadd := Finset.card_union_add_card_inter reply.rdset reply.wrset
  rw [Finset.disjoint_iff_inter_eq_empty, ← Finset.card_eq_zero, or_iff_right hfail, PollSpec]
  simp only [hcount, hret]
  constructor
  · intro hspec
    have heq := (hspec (by omega)).1
    omega
  · intro hdisj _
    refine ⟨by omega, ?_⟩
    simp only [List.forall_mem_map]
    exact fun p hp => revents_subset hnd hfds hr hw hp

end Poll

/-- Two sockets, both to be read and written. -/
def samplePoll : List PollFd := [⟨3, 5, 0⟩, ⟨7, 5, 0⟩]

theorem pollSpec_readable_and_writable : PollSpec (dtpPoll samplePoll fun _ _ _ => ⟨2, {3}, {7}⟩) ∧
    (dtpPoll samplePoll fun _ _ _ => ⟨2, {3}, {7}⟩).1 = 2 :=
  ⟨(pollSpec_iff samplePoll (by decide) (by decide) ⟨2, {3}, {7}⟩ (.inr (by decide))).mpr (.inr (by decide)), by decide⟩

/-- One socket can be read and written: the value is 2, for one entry with events. -/
theorem dtpPoll_counts_twice : SelectReply.CountsLeft (requested pollIn samplePoll) (requested pollOut samplePoll)
      ⟨2, {3}, {3}⟩ ∧ dtpPoll samplePoll (fun _ _ _ => ⟨2, {3}, {3}⟩) = (2, [⟨3, 5, 5⟩, ⟨7, 5, 0⟩]) ∧
    ¬PollSpec (dtpPoll samplePoll fun _ _ _ => ⟨2, {3}, {3}⟩) := by
  refine ⟨.inr (by decide), by decide, fun h => ?_⟩
  exact absurd (h (by decide)).1 (by decide)

end Cedos.Dtp
