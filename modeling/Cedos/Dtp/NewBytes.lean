import Cedos.Dtp.ReceiveBounds
import Cedos.Dtp.Reassembly
import Mathlib.Data.Set.Card

/-!
# The number of new bytes

`HandleNormalPacket` returns how many bytes of a segment were not there before. The count starts with the length of
the segment, clipped to the buffer and to what is expected, and is lowered at each node the segment meets by the
overlap with what the segment has grown to by then. The nodes lie apart, so this is the overlap with the segment
itself.

During the handshake a data packet is not looked at.
-/

namespace Cedos.Dtp

/-! ## The insertion loop -/

/-- The overlap that is reported is the number of common positions. -/
theorem common_of_calculateOverlap {c b u : Buffer} {n : ℤ} (hc : c.Small) (hb : b.Small)
    (h : calculateOverlap c.seq c.len b = some (u, n)) : n = c.ival.common b.ival := by
  have hov := overlap_eq hc hb
  simp only [calculateOverlap] at h
  split_ifs at h with h0
  obtain ⟨-, rfl⟩ := Prod.mk.inj (Option.some.inj h)
  rw [hov] at h0 ⊢
  rw [Ival.common]
  omega

/-- The loop takes off every position that a node ahead has in common with `cur_buf`. -/
theorem Walk.writeLen_run {w : Walk} {rest : List Buffer} (hrest : ∀ b ∈ rest, b.Small)
    (hsep : Separated (rest.map Buffer.ival)) (hcur : w.cur.Small) (hlink : w.linked = w.merged)
    (hlow : w.merged = true → ∀ b ∈ rest, w.cur.ival.lo ≤ b.ival.lo) :
    (w.run rest).1.writeLen = w.writeLen - ((rest.map Buffer.ival).map w.cur.ival.common).sum := by
  induction rest generalizing w with
  | nil => simp [run]
  | cons temp rest ih =>
    have hrest' : ∀ b ∈ rest, b.Small := fun b hb => hrest b (List.mem_cons_of_mem _ hb)
    obtain ⟨-, hbeyond, hsep'⟩ := separated_cons.mp hsep
    obtain ⟨hstop, h0⟩ | ⟨hnstop, h0, ⟨hov, h1, hun⟩ | ⟨u, n, hov, h1, hu, husmall, hulow⟩⟩ :=
      step_cases hrest hsep hcur hlow
    · rw [run_stop hstop, List.map_cons, sum_common_beyond hsep h0]
      simp
    · have hnone : w.cur.ival.common temp.ival = 0 := by
        rw [Ival.common]
        omega
      rw [run_skip hnstop hov (hlink.trans hun), ih (w := { w with before := temp :: w.before, linked := false }) hrest'
        hsep' hcur hun.symm (fun hm => absurd hm (by simp [hun]))]
      simp [hnone]
    · have hsame : (rest.map Buffer.ival).map u.ival.common = (rest.map Buffer.ival).map w.cur.ival.common := by
        refine List.map_congr_left fun z hz => ?_
        rw [hu, Ival.common_union h0 h1 w.cur.lo_le_hi temp.lo_le_hi (hbeyond z hz)]
      have hn := common_of_calculateOverlap hcur (hrest temp (by simp)) hov
      rw [run_absorb hnstop hov, ih hrest' hsep' husmall rfl fun _ => hulow, hsame, List.map_cons, List.map_cons,
        List.sum_cons]
      simp only
      split_ifs <;> omega

theorem writeLen_insertBuffer {new : Buffer} {n : ℤ} {head : List Buffer} (hhead : ∀ b ∈ head, b.Small)
    (hsep : Separated (head.map Buffer.ival)) (hnew : new.Small) :
    (insertBuffer new n head).writeLen = n - ((head.map Buffer.ival).map new.ival.common).sum := by
  have hrun := Walk.writeLen_run (w := ⟨[], new, false, false, n, false⟩) hhead hsep hnew rfl
    (fun hm => absurd hm Bool.false_ne_true)
  simp only at hrun
  rw [← hrun, insertBuffer]
  generalize Walk.run _ head = r
  cases hm : r.1.merged with
  | true => simp [hm]
  | false =>
    simp only [hm, Bool.false_eq_true, if_false]
    split
    · rfl
    · split_ifs <;> rfl

/-! ## The segment -/

/-- The positions of `runs'` that are not in `runs`. -/
def newPositions (runs runs' : List (Ival ℕ)) : Set ℕ := {p | Covers runs' p ∧ ¬Covers runs p}

/-- `HandleNormalPacket` adds `[lo, hi)` to the positions of the list and returns the number of new ones, if that is
not empty; in any case something is new if and only if the result is positive. -/
structure CountsNew (runs runs' : List (Ival ℕ)) (lo hi : ℕ) (count : ℤ) : Prop where
  covers : ∀ p, Covers runs' p ↔ Covers runs p ∨ (lo ≤ p ∧ p < hi)
  count_eq : lo < hi → count = (newPositions runs runs').ncard
  pos_iff : count ≤ 0 ↔ newPositions runs runs' = ∅

section Segment
variable {S : ℕ → UInt8} {c : DtpContext} {d : Datagram} {bodyLen : UInt32}

theorem CountsNew.of_count {runs runs' : List (Ival ℕ)} {lo hi : ℕ} {count : ℤ} (hsep : Separated runs) (hlt : lo < hi)
    (hcov : ∀ p, Covers runs' p ↔ Covers runs p ∨ (lo ≤ p ∧ p < hi))
    (hcount : count = ((hi : ℤ) - lo) - (runs.map (Ival.common ⟨lo, hi⟩)).sum) : CountsNew runs runs' lo hi count := by
  classical
  have hnew : newPositions runs runs' = ((Finset.Ico lo hi).filter fun p => ¬Covers runs p : Finset ℕ) := by
    ext p
    simp only [newPositions, Set.mem_ofPred_eq, hcov, Finset.coe_filter, Finset.mem_Ico]
    tauto
  have hcard := Finset.card_filter_add_card_filter_not (s := Finset.Ico lo hi) (Covers runs)
  rw [card_covered (x := ⟨lo, hi⟩) hsep, Nat.card_Ico] at hcard
  have hncard : count = (newPositions runs runs').ncard := by
    rw [hnew, Set.ncard_coe_finset]
    omega
  refine ⟨hcov, fun _ => hncard, ?_⟩
  rw [hncard, hnew, Finset.coe_eq_empty, Set.ncard_coe_finset, ← Finset.card_eq_zero]
  omega

theorem CountsNew.of_none {runs : List (Ival ℕ)} {lo hi : ℕ} {count : ℤ} (hle : hi ≤ lo) (hcount : count ≤ 0) :
    CountsNew runs runs lo hi count := by
  refine ⟨fun p => ⟨Or.inl, fun h => h.resolve_right fun hin => by omega⟩, fun h => absurd h (by omega), ?_⟩
  simp [hcount, newPositions]

theorem Reassembled.countsNew_storeSegment (h : Reassembled S c.toRecvSide)
    (hd : d.hdr.seq.toNat + bodyLen.toNat + c.readBufLen.toNat < 2147483648)
    (hpos : 0 < c.segmentLen d.hdr.seq bodyLen) :
    CountsNew c.toRecvSide.runs (c.storeSegment d bodyLen).1.toRecvSide.runs (c.segmentStart d.hdr.seq).toNat
      (c.segmentEnd d.hdr.seq bodyLen).toNat (c.storeSegment d bodyLen).2 := by
  have hat := h.segmentAt hd hpos
  have hstop := hat.le_stop
  have hival := hat.ival (by omega)
  obtain ⟨-, hlist, -⟩ := h.insertSegment hat (by omega)
  have hruns : (c.storeSegment d bodyLen).1.toRecvSide.runs = _ := hlist
  have hsmall : Buffer.Small ⟨c.segmentStart d.hdr.seq, u32 (c.segmentLen d.hdr.seq bodyLen)⟩ := by
    rw [Buffer.Small, hival]
    change (c.segmentEnd d.hdr.seq bodyLen).toNat < _
    omega
  have hcount := writeLen_insertBuffer (n := c.segmentLen d.hdr.seq bodyLen) h.small h.separated hsmall
  rw [hival] at hcount
  refine .of_count h.separated hat.lt (fun p => ?_) ?_
  · rw [hruns, covers_place]
    exact or_comm
  · rw [← hat.len]
    exact hcount

/-- Outside the handshake the list grows by the part of the segment that is expected and fits into the buffer. -/
theorem Reassembled.countsNew (h : Reassembled S c.toRecvSide)
    (hd : d.hdr.seq.toNat + bodyLen.toNat + c.readBufLen.toNat < 2147483648)
    (hopen : ¬(c.state = .synRcvd ∨ c.state = .synSent ∨ d.hdr.syn = true)) :
    CountsNew c.toRecvSide.runs (c.handleNormalPacket d bodyLen).1.toRecvSide.runs
      (max d.hdr.seq.toNat c.nextByteExpected.toNat)
      (min (d.hdr.seq.toNat + bodyLen.toNat) (c.lastByteRead.toNat + c.readBufLen.toNat))
      (c.handleNormalPacket d bodyLen).2 := by
  have hnote := toRecvSide_noteSegment c d.hdr
  have hstart := toNat_segmentStart c d.hdr.seq
  have hend := toNat_segmentEnd h hd
  have hlen := segmentLen_eq h hd
  rw [max_comm, min_comm, ← hstart, ← hend]
  rw [DtpContext.handleNormalPacket, if_neg hopen]
  generalize c.dropInsertedACK.noteSegment d.hdr = x at hnote
  have hside : ∀ y : DtpContext, y.countPacket.toRecvSide = y.toRecvSide := fun _ => rfl
  have hx : x.segmentLen d.hdr.seq bodyLen = c.segmentLen d.hdr.seq bodyLen :=
    congrArg (fun r : RecvSide => i32 (min (r.lastByteRead + u32 r.readBufLen) (d.hdr.seq + bodyLen) -
      max r.nextByteExpected d.hdr.seq)) hnote
  simp only [hside, hx]
  split_ifs with hpos
  · have hstore := Reassembled.countsNew_storeSegment (c := x) (hnote ▸ h)
      (by rw [congrArg RecvSide.readBufLen hnote]; exact hd) (hx ▸ hpos)
    rw [hnote] at hstore
    have hs : x.segmentStart d.hdr.seq = c.segmentStart d.hdr.seq :=
      congrArg (fun r : RecvSide => max r.nextByteExpected d.hdr.seq) hnote
    have he : x.segmentEnd d.hdr.seq bodyLen = c.segmentEnd d.hdr.seq bodyLen :=
      congrArg (fun r : RecvSide => min (r.lastByteRead + u32 r.readBufLen) (d.hdr.seq + bodyLen)) hnote
    rwa [hs, he] at hstore
  · rw [hnote]
    exact .of_none (by omega) (by omega)

/-- `HandleNormalPacket` adds exactly the part of the segment that is expected and fits into the buffer, and returns
the number of positions that are new; during the handshake, and for a SYN, it adds nothing and returns 0. -/
theorem new_byte_count (h : Reassembled S c.toRecvSide)
    (hd : d.hdr.seq.toNat + bodyLen.toNat + c.readBufLen.toNat < 2147483648) :
    if c.state = .synRcvd ∨ c.state = .synSent ∨ d.hdr.syn = true then
      (c.handleNormalPacket d bodyLen).2 = 0 ∧
        (c.handleNormalPacket d bodyLen).1.toRecvSide.runs = c.toRecvSide.runs
    else
      CountsNew c.toRecvSide.runs (c.handleNormalPacket d bodyLen).1.toRecvSide.runs
        (max d.hdr.seq.toNat c.nextByteExpected.toNat)
        (min (d.hdr.seq.toNat + bodyLen.toNat) (c.lastByteRead.toNat + c.readBufLen.toNat))
        (c.handleNormalPacket d bodyLen).2 := by
  split_ifs with hopen
  · rw [DtpContext.handleNormalPacket, if_pos hopen]
    exact ⟨rfl, rfl⟩
  · exact h.countsNew hd hopen

end Segment

/-- Two segments have come out of order, `[1, 2)` and `[4, 6)`. -/
def sampleGaps : DtpContext :=
  ((sampleReceiver.handleNormalPacket (sampleSegment 1 1) 1).1.handleNormalPacket (sampleSegment 4 2) 2).1

theorem sampleGaps_reassembled : Reassembled UInt8.ofNat sampleGaps.toRecvSide := by
  have h₀ : Reassembled UInt8.ofNat sampleReceiver.toRecvSide :=
    .of_empty _ rfl rfl rfl (by decide) (by decide)
  have h₁ : Reassembled UInt8.ofNat (sampleReceiver.handleNormalPacket (sampleSegment 1 1) 1).1.toRecvSide :=
    (h₀.handleNormalPacket (fun _ _ => rfl) (by decide) rfl).1
  exact (h₁.handleNormalPacket (fun _ _ => rfl) (by decide) (by decide)).1

/-- A segment that overlaps both and does not fit into the buffer brings five new bytes. -/
theorem new_byte_count_sample : sampleGaps.toRecvSide.runs = [⟨1, 2⟩, ⟨4, 6⟩] ∧
    (sampleGaps.handleNormalPacket (sampleSegment 0 9) 9).2 = 5 ∧
    CountsNew sampleGaps.toRecvSide.runs (sampleGaps.handleNormalPacket (sampleSegment 0 9) 9).1.toRecvSide.runs
      0 8 (sampleGaps.handleNormalPacket (sampleSegment 0 9) 9).2 := by
  refine ⟨by decide, by decide, ?_⟩
  have h := @new_byte_count UInt8.ofNat sampleGaps (sampleSegment 0 9) 9 sampleGaps_reassembled (by decide)
  rwa [if_neg (by decide)] at h

/-- A server that has answered a SYN. -/
def sampleHandshaking : DtpContext := { sampleReceiver with state := .synRcvd }

/-- It does not take a segment that is expected and fits. -/
theorem handshake_segment_ignored : Reassembled (fun _ => 0) sampleHandshaking.toRecvSide ∧
    (sampleHandshaking.handleNormalPacket (sampleSegment 0 4) 4).2 = 0 ∧
    ¬Covers (sampleHandshaking.handleNormalPacket (sampleSegment 0 4) 4).1.toRecvSide.runs 0 :=
  ⟨.of_empty _ rfl rfl rfl (by decide) (by decide), rfl, not_covers_nil 0⟩

end Cedos.Dtp
