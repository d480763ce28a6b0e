import Cedos.Dtp.Frames
import Cedos.Lib.Intervals
import Cedos.Lib.Run

/-!
# Reassembly of the received stream

The receive side keeps three things in step: the byte buffer `tc_readBuf`, the list
`tc_readBufHead` of the runs present in it, and the offsets `tc_lastByteRead`,
`tc_nextByteExpected`, `tc_lastByteRcvd`. `HandleNormalPacket` adds to all three,
`dtp_recv` slides them.

Read as intervals of sequence numbers, the list is a separated interval list and the
source's insertion loop is `place`; this is `insertBuffer_place`. The rest is one
invariant, `Reassembled`, kept by every arrival order and every read.

## Main definitions

* `Buffer.ival` — a list node as an interval.
* `Reassembled` — the invariant tying list, offsets and bytes together.
* `receiver` — segments of a stream arriving in any order, reads in between.
-/

namespace Cedos.Dtp

open DtpContext

/-! ## Nodes as intervals -/

namespace Buffer
variable {b : Buffer}

/-- The sequence numbers a node stands for. -/
def ival (b : Buffer) : Ival ℕ := ⟨b.seq.toNat, b.seq.toNat + b.len.toNat⟩

/-- A node whose numbers stay below `2 ^ 31`, where signed differences are exact. -/
def Small (b : Buffer) : Prop := b.ival.hi < 2147483648

theorem toNat_stop (h : b.Small) : b.stop.toNat = b.ival.hi := by
  simp only [Small, ival] at h
  rw [stop, toNat_add_word (by omega), ival]

theorem lo_le_hi (b : Buffer) : b.ival.lo ≤ b.ival.hi := by simp [ival]

end Buffer

/-! ## `CalculateOverlap` -/

section Overlap
variable {c b : Buffer}

/-- The signed length of the common part, negative when there is a gap. -/
theorem overlap_eq (hc : c.Small) (hb : b.Small) : i32 (min (c.seq + c.len) b.stop - max c.seq b.seq) =
    (min c.ival.hi b.ival.hi : ℕ) - (max c.ival.lo b.ival.lo : ℕ) := by
  have hcs : (c.seq + c.len).toNat = c.ival.hi := Buffer.toNat_stop hc
  have hbs : b.stop.toNat = b.ival.hi := Buffer.toNat_stop hb
  have hcl := c.lo_le_hi
  have hbl := b.lo_le_hi
  simp only [Buffer.Small] at hc hb
  rw [i32_sub, toNat_min, toNat_max, hcs, hbs]
  · rfl
  · rw [toNat_min, hcs, hbs]
    omega
  · rw [toNat_max]
    change max c.ival.lo b.ival.lo < _
    omega

/-- A node that ends before the new interval starts is passed over. -/
theorem calculateOverlap_apart (hc : c.Small) (hb : b.Small) (h : b.ival.hi < c.ival.lo) :
    calculateOverlap c.seq c.len b = none := by
  have hov := overlap_eq hc hb
  have hcl := c.lo_le_hi
  have hbl := b.lo_le_hi
  simp only [calculateOverlap]
  rw [if_neg]
  omega

/-- A node that overlaps or touches the new interval takes the union. -/
theorem calculateOverlap_meet (hc : c.Small) (hb : b.Small) (h0 : ¬c.ival.hi < b.ival.lo)
    (h1 : ¬b.ival.hi < c.ival.lo) :
    ∃ u n, calculateOverlap c.seq c.len b = some (u, n) ∧
      u.ival = ⟨min c.ival.lo b.ival.lo, max c.ival.hi b.ival.hi⟩ := by
  have hov := overlap_eq hc hb
  have hcl := c.lo_le_hi
  have hbl := b.lo_le_hi
  have hcs : (c.seq + c.len).toNat = c.ival.hi := Buffer.toNat_stop hc
  have hbs : b.stop.toNat = b.ival.hi := Buffer.toNat_stop hb
  have hlo : (min b.seq c.seq).toNat = min c.ival.lo b.ival.lo := by
    rw [toNat_min, Nat.min_comm]
    rfl
  have hhi : (max b.stop (c.seq + c.len)).toNat = max c.ival.hi b.ival.hi := by
    rw [toNat_max, hcs, hbs, Nat.max_comm]
  refine ⟨_, _, by simp only [calculateOverlap]; rw [if_pos (by omega)], ?_⟩
  simp only [Buffer.ival]
  rw [toNat_sub_word (by omega), hlo, hhi]
  simp only [Buffer.ival] at *
  congr 1
  omega

end Overlap

/-! ## The insertion loop -/

namespace Walk
variable {w : Walk} {temp : Buffer} {rest : List Buffer}

/-- The loop stops in front of a node that lies beyond the new interval. -/
theorem run_stop (h : w.cur.stop < temp.seq) : w.run (temp :: rest) = (w, temp :: rest) := by
  rw [run, if_pos h]

/-- The loop passes over a node that ends before the new interval. -/
theorem run_skip (h0 : ¬w.cur.stop < temp.seq) (h1 : calculateOverlap w.cur.seq w.cur.len temp = none)
    (hl : w.linked = false) : w.run (temp :: rest) =
    Walk.run { w with before := temp :: w.before, linked := false } rest := by
  rw [run, if_neg h0]
  simp only [h1, hl, Bool.false_eq_true, if_false]

/-- The loop lets a node it meets absorb the new interval. -/
theorem run_absorb (h0 : ¬w.cur.stop < temp.seq) {u : Buffer} {n : ℤ}
    (h1 : calculateOverlap w.cur.seq w.cur.len temp = some (u, n)) :
    w.run (temp :: rest) =
      Walk.run { before := w.before, cur := u, linked := true, merged := true
                 writeLen := if 0 < n then w.writeLen - n else w.writeLen
                 fault := w.fault || (w.merged && !w.linked) } rest := by
  rw [run, if_neg h0]
  simp only [h1]

/-- What one round of the loop can find, in a sorted list. Once the new interval has been absorbed it starts no
later than any node ahead, so it never passes over a node again. -/
theorem step_cases (hrest : ∀ b ∈ temp :: rest, b.Small) (hsep : Separated ((temp :: rest).map Buffer.ival))
    (hcur : w.cur.Small) (hlow : w.merged = true → ∀ b ∈ temp :: rest, w.cur.ival.lo ≤ b.ival.lo) :
    (w.cur.stop < temp.seq ∧ w.cur.ival.hi < temp.ival.lo) ∨ ¬w.cur.stop < temp.seq ∧ ¬w.cur.ival.hi < temp.ival.lo ∧
        ((calculateOverlap w.cur.seq w.cur.len temp = none ∧ temp.ival.hi < w.cur.ival.lo ∧ w.merged = false) ∨
          ∃ u n, calculateOverlap w.cur.seq w.cur.len temp = some (u, n) ∧ ¬temp.ival.hi < w.cur.ival.lo ∧
            u.ival = ⟨min w.cur.ival.lo temp.ival.lo, max w.cur.ival.hi temp.ival.hi⟩ ∧ u.Small ∧
            ∀ b ∈ rest, u.ival.lo ≤ b.ival.lo) := by
  have htemp : temp.Small := hrest temp List.mem_cons_self
  obtain ⟨hne, hbeyond, -⟩ := separated_cons.mp hsep
  have hstop : w.cur.stop < temp.seq ↔ w.cur.ival.hi < temp.ival.lo := by
    rw [UInt32.lt_iff_toNat_lt, Buffer.toNat_stop hcur]
    rfl
  by_cases h0 : w.cur.ival.hi < temp.ival.lo
  · exact Or.inl ⟨hstop.mpr h0, h0⟩
  refine Or.inr ⟨fun h => h0 (hstop.mp h), h0, ?_⟩
  by_cases h1 : temp.ival.hi < w.cur.ival.lo
  · have hun : w.merged = false := by
      cases hm : w.merged with
      | false => rfl
      | true =>
        have hle := hlow hm temp List.mem_cons_self
        have hlt : temp.ival.lo < temp.ival.hi := hne
        omega
    exact Or.inl ⟨calculateOverlap_apart hcur htemp h1, h1, hun⟩
  · obtain ⟨u, n, hov, hu⟩ := calculateOverlap_meet hcur htemp h0 h1
    refine Or.inr ⟨u, n, hov, h1, hu, ?_, ?_⟩
    · simp only [Buffer.Small, hu] at hcur htemp ⊢
      omega
    · intro b hb
      have hlt : temp.ival.hi < b.ival.lo := hbeyond _ (List.mem_map_of_mem hb)
      have hle := temp.lo_le_hi
      rw [hu]
      simp only
      omega

/-- What the loop leaves when the walk started from `w` and had `rest` before it. -/
structure Places (w : Walk) (rest : List Buffer) (r : Walk × List Buffer) (skipped : List Buffer) :
    Prop where
  before : r.1.before = skipped.reverse ++ w.before
  place : place w.cur.ival (rest.map Buffer.ival) = ⟨skipped.map Buffer.ival, r.1.cur.ival, r.2.map Buffer.ival⟩
  linked : r.1.linked = r.1.merged
  fault : r.1.fault = w.fault
  merged : w.merged = true → r.1.merged = true
  unmerged : r.1.merged = false → r.1.cur = w.cur ∧ rest = skipped ++ r.2

/-- The loop computes `place`, and the predecessor pointer stays on the node that has absorbed the interval. -/
theorem run_places (hrest : ∀ b ∈ rest, b.Small) (hsep : Separated (rest.map Buffer.ival))
    (hcur : w.cur.Small) (hlink : w.linked = w.merged)
    (hlow : w.merged = true → ∀ b ∈ rest, w.cur.ival.lo ≤ b.ival.lo) :
    ∃ skipped, Places w rest (w.run rest) skipped := by
  induction rest generalizing w with
  | nil => exact ⟨[], by simp [run], by simp [run, Cedos.place], hlink, rfl, id, by simp [run]⟩
  | cons temp rest ih =>
    have hrest' : ∀ b ∈ rest, b.Small := fun b hb => hrest b (List.mem_cons_of_mem _ hb)
    have hsep' := (separated_cons.mp hsep).2.2
    obtain ⟨hstop, h0⟩ | ⟨hnstop, h0, ⟨hov, h1, hun⟩ | ⟨u, n, hov, h1, hu, husmall, hulow⟩⟩ :=
      step_cases hrest hsep hcur hlow
    · rw [run_stop hstop]
      exact ⟨[], by simp, by simp [Cedos.place, h0], hlink, rfl, id, by simp⟩
    · rw [run_skip hnstop hov (hlink.trans hun)]
      obtain ⟨sk, h⟩ := ih (w := { w with before := temp :: w.before, linked := false })
        hrest' hsep' hcur hun.symm (fun hm => absurd hm (by simp [hun]))
      refine ⟨temp :: sk, ?_, ?_, h.linked, h.fault, h.merged, ?_⟩
      · rw [h.before]
        simp
      · have hpl := h.place
        simp only at hpl
        simp only [List.map_cons, Cedos.place, h0, h1, if_true, if_false, hpl]
      · intro hm
        obtain ⟨hc, hr⟩ := h.unmerged hm
        exact ⟨hc, by rw [List.cons_append, ← hr]⟩
    · rw [run_absorb hnstop hov]
      obtain ⟨sk, h⟩ := ih
        (w := { before := w.before, cur := u, linked := true, merged := true
                writeLen := if 0 < n then w.writeLen - n else w.writeLen
                fault := w.fault || (w.merged && !w.linked) })
        hrest' hsep' husmall rfl (fun _ => hulow)
      refine ⟨sk, h.before, ?_, h.linked, ?_, fun _ => h.merged rfl, ?_⟩
      · have hpl := h.place
        simp only [hu] at hpl
        simp only [List.map_cons, Cedos.place, h0, h1, if_false, hpl]
      · rw [h.fault, hlink]
        cases w.merged <;> simp
      · intro hm
        exact absurd (h.merged rfl) (by rw [hm]; simp)

end Walk

/-- Inserting a node into the list is inserting its interval: no pointer is misused,
the list is the separated list with the new positions added, and `cur_buf` is the
node they ended up in. -/
theorem insertBuffer_place {new : Buffer} {n : ℤ} {head : List Buffer}
    (hhead : ∀ b ∈ head, b.Small) (hsep : Separated (head.map Buffer.ival)) (hnew : new.Small) :
    (insertBuffer new n head).fault = false ∧ (insertBuffer new n head).list.map Buffer.ival =
        (place new.ival (head.map Buffer.ival)).toList ∧
      (insertBuffer new n head).cur.ival = (place new.ival (head.map Buffer.ival)).cur ∧
      (insertBuffer new n head).last = (place new.ival (head.map Buffer.ival)).post.isEmpty := by
  obtain ⟨sk, h⟩ := Walk.run_places (w := ⟨[], new, false, false, n, false⟩) hhead hsep hnew rfl
    (fun hm => absurd hm (by simp))
  have hbefore := h.before
  have hplace := h.place
  have hlinked := h.linked
  have hfault := h.fault
  have hun := h.unmerged
  simp only [List.append_nil] at hbefore
  simp only at hplace hfault hun
  generalize hr : Walk.run ⟨[], new, false, false, n, false⟩ head = r at *
  obtain ⟨w, rest⟩ := r
  simp only at hbefore hplace hlinked hfault hun
  have hlen : (rest.map Buffer.ival).isEmpty = rest.isEmpty := by cases rest <;> rfl
  simp only [insertBuffer, hr, hplace, Placed.toList, hlen]
  cases hm : w.merged with
  | true =>
    rw [hm] at hlinked
    simp [hlinked, hfault, hbefore]
  | false =>
    obtain ⟨hcur, happ⟩ := hun hm
    cases head with
    | nil =>
      obtain ⟨rfl, rfl⟩ := List.append_eq_nil_iff.mp happ.symm
      simp [hfault]
    | cons b head =>
      have hb : b.Small := hhead b List.mem_cons_self
      have hlt : new.seq < b.stop ↔ new.ival.lo < b.ival.hi := by
        rw [UInt32.lt_iff_toNat_lt, Buffer.toNat_stop hb]
        rfl
      cases sk with
      | nil =>
        obtain rfl : b :: head = rest := happ
        have hfront : new.ival.hi < b.ival.lo :=
          hi_lt_of_post_eq (x := new.ival) (l := head.map Buffer.ival) (by
            rw [← List.map_cons, hplace])
        have hle := new.lo_le_hi
        have hbe := b.lo_le_hi
        have hin : new.seq < b.stop := hlt.mpr (by omega)
        simp [hin, hfault]
      | cons s sk =>
        obtain ⟨rfl, -⟩ := List.cons_eq_cons.mp (happ.trans (List.cons_append ..))
        have hpre : b.ival.hi < new.ival.lo := by
          apply hi_lt_of_mem_pre new.ival ((b :: head).map Buffer.ival)
          rw [hplace]
          simp
        have hout : ¬new.seq < b.stop := fun h => absurd (hlt.mp h) (by omega)
        simp [hout, hfault, hbefore]

theorem insertBuffer_small {new : Buffer} {n : ℤ} {head : List Buffer}
    (hhead : ∀ b ∈ head, b.Small) (hsep : Separated (head.map Buffer.ival)) (hnew : new.Small) :
    ∀ b ∈ (insertBuffer new n head).list, b.Small := by
  intro b hb
  have hmem : b.ival ∈ (insertBuffer new n head).list.map Buffer.ival := List.mem_map_of_mem hb
  rw [(insertBuffer_place hhead hsep hnew).2.1] at hmem
  cases (ends_mem_place _ _ _ hmem).2 with
  | inl h => exact (congrArg (· < 2147483648) h).mpr hnew
  | inr h =>
    obtain ⟨y, hy, h⟩ := h
    obtain ⟨b', hb', rfl⟩ := List.mem_map.mp hy
    exact (congrArg (· < 2147483648) h).mpr (hhead b' hb')

/-! ## The invariant -/

def RecvSide.runs (r : RecvSide) : List (Ival ℕ) := r.readBufHead.map Buffer.ival

/-- List, offsets and bytes agree about which part of the stream `S` is present. -/
structure Reassembled (S : ℕ → UInt8) (r : RecvSide) : Prop where
  len_nonneg : 0 ≤ r.readBufLen
  read_small : r.lastByteRead.toNat + r.readBufLen.toNat < 2147483648
  node_small : ∀ x ∈ r.runs, x.hi + r.readBufLen.toNat < 2147483648
  separated : Separated r.runs
  low : ∀ x ∈ r.runs, r.lastByteRead.toNat ≤ x.lo
  high : ∀ x ∈ r.runs, x.hi ≤ r.lastByteRead.toNat + r.readBufLen.toNat
  bytes : Holds r.readBuf r.lastByteRead.toNat S (Covers r.runs)
  expected : IsRunEnd r.runs r.lastByteRead.toNat r.nextByteExpected.toNat
  rcvd : r.lastByteRcvd.toNat = lastHi r.lastByteRead.toNat r.runs

namespace Reassembled
variable {S : ℕ → UInt8} {r : RecvSide}

section
variable (h : Reassembled S r)
include h

theorem small : ∀ b ∈ r.readBufHead, b.Small := by
  intro b hb
  have hx := h.node_small b.ival (List.mem_map_of_mem hb)
  simp only [Buffer.Small]
  omega

/-- Readable data is exactly the first interval. -/
theorem head (hlt : r.lastByteRead.toNat < r.nextByteExpected.toNat) :
    ∃ b rest, r.readBufHead = b :: rest ∧ b.ival = ⟨r.lastByteRead.toNat, r.nextByteExpected.toNat⟩ := by
  obtain ⟨tl, htl⟩ := h.expected.head h.separated h.low hlt
  obtain ⟨b, rest, hb, hi, -⟩ := List.map_eq_cons_iff.mp htl
  exact ⟨b, rest, hb, hi⟩

/-- The contiguous run lies in the buffer and below the wrap-around bound. -/
theorem expected_le : r.nextByteExpected.toNat ≤ r.lastByteRead.toNat + r.readBufLen.toNat ∧
    r.nextByteExpected.toNat + r.readBufLen.toNat < 2147483648 := by
  have hle := h.expected.le
  by_cases hlt : r.lastByteRead.toNat < r.nextByteExpected.toNat
  · obtain ⟨b, rest, hb, hi⟩ := h.head hlt
    have hmem : b.ival ∈ r.runs := by
      rw [RecvSide.runs, hb]
      exact List.mem_cons_self
    have hhigh := h.high _ hmem
    have hsmall := h.node_small _ hmem
    rw [hi] at hhigh hsmall
    exact ⟨hhigh, hsmall⟩
  · have hsmall := h.read_small
    omega

/-- The number of readable bytes, as `GetReadBufDataSize` computes it. -/
theorem dataSize : i32 (r.nextByteExpected - r.lastByteRead) =
    (r.nextByteExpected.toNat : ℤ) - r.lastByteRead.toNat := by
  have hexp := h.expected_le.2
  have hread := h.read_small
  exact i32_sub (by omega) (by omega)

/-- The last byte received lies in the buffer. -/
theorem rcvd_le : r.lastByteRcvd.toNat ≤ r.lastByteRead.toNat + r.readBufLen.toNat := by
  rw [h.rcvd, lastHi]
  cases hl : r.runs.getLast? with
  | none => simp
  | some x => exact h.high x (List.mem_of_getLast? hl)

end

/-- The sanity check of `HandleNormalPacket` and `dtp_recv` never fires, not even
before the bytes are moved. -/
theorem headMatches {c : DtpContext} {m : ℕ → UInt8}
    (h : Reassembled S { c.toRecvSide with readBuf := m }) : c.headMatches = true := by
  have hsize : c.getReadBufDataSize = (c.nextByteExpected.toNat : ℤ) - c.lastByteRead.toNat :=
    h.dataSize
  simp only [DtpContext.headMatches, hsize]
  by_cases hlt : c.lastByteRead.toNat < c.nextByteExpected.toNat
  · obtain ⟨b, rest, hb, hi⟩ := h.head hlt
    have hseq : b.seq.toNat = c.lastByteRead.toNat := congrArg Ival.lo hi
    rw [show c.readBufHead = b :: rest from hb]
    simp [UInt32.toNat_inj.mp hseq]
  · have hle : (c.nextByteExpected.toNat : ℤ) - c.lastByteRead.toNat ≤ 0 := by omega
    simp [hle]

end Reassembled

/-! ## A segment arrives -/

/-- The datagram's body is the part of the stream its sequence number says. -/
def SegmentOf (S : ℕ → UInt8) (d : Datagram) (bodyLen : UInt32) : Prop :=
  ∀ i < bodyLen.toNat, d.body i = S (d.hdr.seq.toNat + i)

section Segment
variable {S : ℕ → UInt8} {c : DtpContext} {d : Datagram} {bodyLen : UInt32}

theorem toNat_segmentStart (c : DtpContext) (seq : UInt32) :
    (c.segmentStart seq).toNat = max c.nextByteExpected.toNat seq.toNat := toNat_max _ _

theorem toNat_segmentEnd (h : Reassembled S c.toRecvSide)
    (hd : d.hdr.seq.toNat + bodyLen.toNat + c.readBufLen.toNat < 2147483648) : (c.segmentEnd d.hdr.seq bodyLen).toNat =
    min (c.lastByteRead.toNat + c.readBufLen.toNat) (d.hdr.seq.toNat + bodyLen.toNat) := by
  have hlen : 0 ≤ c.readBufLen := h.len_nonneg
  have hread : c.lastByteRead.toNat + c.readBufLen.toNat < 2147483648 := h.read_small
  rw [segmentEnd, toNat_min, toNat_add_u32 hlen (by omega), toNat_add_word (by omega)]

/-- The number of bytes to copy, negative when the segment is old or beyond the
buffer. -/
theorem segmentLen_eq (h : Reassembled S c.toRecvSide)
    (hd : d.hdr.seq.toNat + bodyLen.toNat + c.readBufLen.toNat < 2147483648) : c.segmentLen d.hdr.seq bodyLen =
    ((c.segmentEnd d.hdr.seq bodyLen).toNat : ℤ) - (c.segmentStart d.hdr.seq).toNat := by
  have hend := toNat_segmentEnd h hd
  have hstart := toNat_segmentStart c d.hdr.seq
  have hexp : c.nextByteExpected.toNat + c.readBufLen.toNat < 2147483648 := h.expected_le.2
  exact i32_sub (by omega) (by omega)

theorem toNat_expectedAfter {l : List Buffer} (hl : ∀ b ∈ l, b.Small) (e : UInt32) :
    (expectedAfter l e).toNat = extendRun (l.map Buffer.ival) e.toNat := by
  cases l with
  | nil => rfl
  | cons b l =>
    have hb := Buffer.toNat_stop (hl b List.mem_cons_self)
    simp only [expectedAfter, extendRun, List.map_cons, UInt32.le_iff_toNat_le, UInt32.lt_iff_toNat_lt, hb]
    by_cases h : b.seq.toNat ≤ e.toNat ∧ e.toNat < b.ival.hi
    · rw [if_pos h]
      exact hb.trans (if_pos h).symm
    · rw [if_neg h]
      exact (if_neg h).symm

/-- Adding the interval `[lo, hi)` past the contiguous run to the list, its bytes to
the buffer, and moving the offsets accordingly keeps the invariant. -/
theorem Reassembled.insert {r r' : RecvSide} (h : Reassembled S r) {lo hi : ℕ}
    (hlo : r.nextByteExpected.toNat ≤ lo) (hlt : lo < hi)
    (hhi : hi ≤ r.lastByteRead.toNat + r.readBufLen.toNat)
    (hsmall : hi + r.readBufLen.toNat < 2147483648)
    (hlen : r'.readBufLen = r.readBufLen) (hread : r'.lastByteRead = r.lastByteRead)
    (hruns : r'.runs = (place ⟨lo, hi⟩ r.runs).toList)
    (hbytes : Holds r'.readBuf r.lastByteRead.toNat S fun p => (lo ≤ p ∧ p < hi) ∨ Covers r.runs p)
    (hexp : r'.nextByteExpected.toNat = extendRun r'.runs r.nextByteExpected.toNat)
    (hrcvd : r'.lastByteRcvd.toNat = if (place ⟨lo, hi⟩ r.runs).post.isEmpty
      then (place ⟨lo, hi⟩ r.runs).cur.hi else r.lastByteRcvd.toNat) : Reassembled S r' := by
  have hle := h.expected.le
  have hsep : Separated r'.runs := by
    rw [hruns]
    exact place_separated hlt h.separated
  have hcov : ∀ p, Covers r'.runs p ↔ (lo ≤ p ∧ p < hi) ∨ Covers r.runs p := by
    intro p
    rw [hruns, covers_place]
  have hlow : ∀ x ∈ r'.runs, r.lastByteRead.toNat ≤ x.lo := by
    intro x hx
    rw [hruns] at hx
    cases (ends_mem_place _ _ x hx).1 with
    | inl he => rw [he]; simp only; omega
    | inr he =>
      obtain ⟨y, hy, he⟩ := he
      exact he ▸ h.low y hy
  have hends : ∀ x ∈ r'.runs, x.hi ≤ r.lastByteRead.toNat + r.readBufLen.toNat ∧
      x.hi + r.readBufLen.toNat < 2147483648 := by
    intro x hx
    rw [hruns] at hx
    cases (ends_mem_place _ _ x hx).2 with
    | inl he => rw [he]; exact ⟨hhi, hsmall⟩
    | inr he =>
      obtain ⟨y, hy, he⟩ := he
      exact he ▸ ⟨h.high y hy, h.node_small y hy⟩
  have hrun : IsRunEnd r'.runs r.lastByteRead.toNat r'.nextByteExpected.toNat := by
    rw [hexp]
    refine hsep.isRunEnd_extendRun hlow hle ?_
    intro p h0 h1
    exact (hcov p).mpr (Or.inr (h.expected.covered p h0 h1))
  refine ⟨hlen ▸ h.len_nonneg, ?_, ?_, hsep, ?_, ?_, ?_, ?_, ?_⟩
  · rw [hlen, hread]
    exact h.read_small
  · rw [hlen]
    exact fun x hx => (hends x hx).2
  · rw [hread]
    exact hlow
  · rw [hlen, hread]
    exact fun x hx => (hends x hx).1
  · rw [hread]
    exact hbytes.mono fun p hp => (hcov p).mp hp
  · rw [hread]
    exact hrun
  · rw [hrcvd, hruns, hread]
    cases hpost : (place ⟨lo, hi⟩ r.runs).post with
    | nil => rw [Placed.toList, hpost, lastHi_concat, List.isEmpty_nil, if_pos rfl]
    | cons y l =>
      have hne : (place ⟨lo, hi⟩ r.runs).post ≠ [] := by simp [hpost]
      have hsuf : (place ⟨lo, hi⟩ r.runs).post <:+ (place ⟨lo, hi⟩ r.runs).toList :=
        ⟨(place ⟨lo, hi⟩ r.runs).pre ++ [(place ⟨lo, hi⟩ r.runs).cur], by simp [Placed.toList]⟩
      rw [← lastHi_of_suffix (r := r.lastByteRead.toNat) hsuf hne, lastHi_of_suffix (post_suffix_place _ _) hne]
      exact h.rcvd

theorem toRecvSide_storeSegment (c : DtpContext) (d : Datagram) (bodyLen : UInt32) :
    (c.storeSegment d bodyLen).1.toRecvSide =
      { readBuf := blit c.readBuf (i32 (c.segmentStart d.hdr.seq - c.lastByteRead)).toNat
          (fun i => d.body ((i32 (c.segmentStart d.hdr.seq - d.hdr.seq)).toNat + i))
          (c.segmentLen d.hdr.seq bodyLen).toNat
        readBufHead := (c.insertSegment d.hdr.seq bodyLen).list
        readBufLen := c.readBufLen
        lastByteRead := c.lastByteRead
        nextByteExpected :=
          expectedAfter (c.insertSegment d.hdr.seq bodyLen).list c.nextByteExpected
        lastByteRcvd := if (c.insertSegment d.hdr.seq bodyLen).last
          then (c.insertSegment d.hdr.seq bodyLen).cur.stop else c.lastByteRcvd } := rfl

theorem fault_storeSegment (c : DtpContext) (d : Datagram) (bodyLen : UInt32) :
    (c.storeSegment d bodyLen).1.fault = (c.fault || decide (i32 (c.segmentStart d.hdr.seq - c.lastByteRead) < 0) ||
        decide (i32 (c.segmentStart d.hdr.seq - d.hdr.seq) < 0) ||
        (c.insertSegment d.hdr.seq bodyLen).fault ||
        !(c.storeSegment d bodyLen).1.headMatches) := rfl

/-- The offsets of a segment that has something new, as numbers. -/
structure SegmentAt (c : DtpContext) (d : Datagram) (bodyLen : UInt32) (lo hi : ℕ) : Prop where
  start : (c.segmentStart d.hdr.seq).toNat = lo
  len : c.segmentLen d.hdr.seq bodyLen = (hi : ℤ) - lo
  bufOff : i32 (c.segmentStart d.hdr.seq - c.lastByteRead) = (lo : ℤ) - c.lastByteRead.toNat
  pktOff : i32 (c.segmentStart d.hdr.seq - d.hdr.seq) = (lo : ℤ) - d.hdr.seq.toNat
  lt : lo < hi
  expected_le : c.nextByteExpected.toNat ≤ lo
  seq_le : d.hdr.seq.toNat ≤ lo
  le_window : hi ≤ c.lastByteRead.toNat + c.readBufLen.toNat
  le_stop : hi ≤ d.hdr.seq.toNat + bodyLen.toNat

theorem Reassembled.segmentAt (h : Reassembled S c.toRecvSide)
    (hd : d.hdr.seq.toNat + bodyLen.toNat + c.readBufLen.toNat < 2147483648)
    (hpos : 0 < c.segmentLen d.hdr.seq bodyLen) :
    SegmentAt c d bodyLen (c.segmentStart d.hdr.seq).toNat (c.segmentEnd d.hdr.seq bodyLen).toNat := by
  have hstart := toNat_segmentStart c d.hdr.seq
  have hend := toNat_segmentEnd h hd
  have hlen := segmentLen_eq h hd
  have hexp : c.nextByteExpected.toNat + c.readBufLen.toNat < 2147483648 := h.expected_le.2
  have hread : c.lastByteRead.toNat + c.readBufLen.toNat < 2147483648 := h.read_small
  refine ⟨rfl, hlen, i32_sub ?_ ?_, i32_sub ?_ ?_, ?_, ?_, ?_, ?_, ?_⟩ <;> omega

theorem SegmentAt.ival {lo hi : ℕ} (h : SegmentAt c d bodyLen lo hi) (hhi : hi < 2147483648) :
    Buffer.ival ⟨c.segmentStart d.hdr.seq, u32 (c.segmentLen d.hdr.seq bodyLen)⟩ = ⟨lo, hi⟩ := by
  have hlt := h.lt
  simp only [Buffer.ival, h.start, h.len]
  rw [toNat_u32 (by omega) (by omega)]
  congr 1
  omega

variable (h : Reassembled S c.toRecvSide)
include h

/-- The segment's interval is placed among the runs. -/
theorem Reassembled.insertSegment {lo hi : ℕ}
    (hat : SegmentAt c d bodyLen lo hi) (hhi : hi < 2147483648) :
    (c.insertSegment d.hdr.seq bodyLen).fault = false ∧ (c.insertSegment d.hdr.seq bodyLen).list.map Buffer.ival =
        (place ⟨lo, hi⟩ c.toRecvSide.runs).toList ∧
      (c.insertSegment d.hdr.seq bodyLen).cur.ival = (place ⟨lo, hi⟩ c.toRecvSide.runs).cur ∧
      (c.insertSegment d.hdr.seq bodyLen).last = (place ⟨lo, hi⟩ c.toRecvSide.runs).post.isEmpty ∧
      ∀ b ∈ (c.insertSegment d.hdr.seq bodyLen).list, b.Small := by
  have hnew : Buffer.Small ⟨c.segmentStart d.hdr.seq, u32 (c.segmentLen d.hdr.seq bodyLen)⟩ := by
    rw [Buffer.Small, hat.ival hhi]
    exact hhi
  have hplace := insertBuffer_place (n := c.segmentLen d.hdr.seq bodyLen) h.small h.separated hnew
  rw [hat.ival hhi] at hplace
  exact ⟨hplace.1, hplace.2.1, hplace.2.2.1, hplace.2.2.2, insertBuffer_small h.small h.separated hnew⟩

/-- The bytes of the segment are in the buffer, and the old ones still are. -/
theorem Reassembled.bytes_store (hS : SegmentOf S d bodyLen)
    {lo hi : ℕ} (hat : SegmentAt c d bodyLen lo hi) :
    Holds (blit c.readBuf (lo - c.lastByteRead.toNat)
        (fun i => d.body (lo - d.hdr.seq.toNat + i)) (hi - lo)) c.lastByteRead.toNat S
      fun p => (lo ≤ p ∧ p < hi) ∨ Covers c.toRecvSide.runs p := by
  have hexp := hat.expected_le
  have hseq := hat.seq_le
  have hstop := hat.le_stop
  have hle : c.lastByteRead.toNat ≤ c.nextByteExpected.toNat := h.expected.le
  have hbelow : ∀ p, Covers c.toRecvSide.runs p → c.lastByteRead.toNat ≤ p := by
    intro p hp
    obtain ⟨x, hx, hxlo, -⟩ := hp
    exact le_trans (h.low x hx) hxlo
  have hsrc : ∀ i < hi - lo, d.body (lo - d.hdr.seq.toNat + i) = S (lo + i) := by
    intro i hi
    rw [hS _ (by omega)]
    congr 1
    omega
  refine (Holds.blit h.bytes hbelow (q := lo) ?_ hsrc).mono ?_
  · omega
  · intro p hp
    exact hp.imp_left fun hin => ⟨hin.1, by omega⟩

/-- Storing a segment of the stream keeps the invariant and trips no check. -/
theorem Reassembled.storeSegment (hS : SegmentOf S d bodyLen)
    (hd : d.hdr.seq.toNat + bodyLen.toNat + c.readBufLen.toNat < 2147483648)
    (hpos : 0 < c.segmentLen d.hdr.seq bodyLen) : Reassembled S (c.storeSegment d bodyLen).1.toRecvSide ∧
    (c.storeSegment d bodyLen).1.fault = c.fault := by
  have hat := h.segmentAt hd hpos
  generalize (c.segmentStart d.hdr.seq).toNat = lo at hat
  generalize (c.segmentEnd d.hdr.seq bodyLen).toNat = hi at hat
  have hstop := hat.le_stop
  have hle : c.lastByteRead.toNat ≤ c.nextByteExpected.toNat := h.expected.le
  obtain ⟨hfault, hlist, hcur, hlast, hsmall⟩ := h.insertSegment hat (by omega)
  have hinv : Reassembled S (c.storeSegment d bodyLen).1.toRecvSide := by
    rw [toRecvSide_storeSegment]
    refine h.insert hat.expected_le hat.lt hat.le_window
      (by omega) rfl rfl hlist ?_
      (toNat_expectedAfter hsmall _) ?_
    · have hlen : (c.segmentLen d.hdr.seq bodyLen).toNat = hi - lo := by
        rw [hat.len]
        omega
      have hbuf : (i32 (c.segmentStart d.hdr.seq - c.lastByteRead)).toNat = lo - c.lastByteRead.toNat := by
        rw [hat.bufOff]
        omega
      have hpkt : (i32 (c.segmentStart d.hdr.seq - d.hdr.seq)).toNat = lo - d.hdr.seq.toNat := by
        rw [hat.pktOff]
        omega
      rw [hlen, hbuf, hpkt]
      exact h.bytes_store hS hat
    · simp only [hlast]
      have hmem : (place ⟨lo, hi⟩ c.toRecvSide.runs).cur ∈
          (place ⟨lo, hi⟩ c.toRecvSide.runs).toList := by simp [Placed.toList]
      rw [← hlist] at hmem
      obtain ⟨b, hb, he⟩ := List.mem_map.mp hmem
      have hcurSmall : (c.insertSegment d.hdr.seq bodyLen).cur.Small := by
        rw [Buffer.Small, hcur]
        exact he ▸ hsmall b hb
      rw [apply_ite UInt32.toNat, Buffer.toNat_stop hcurSmall, hcur]
  refine ⟨hinv, ?_⟩
  have hexp := hat.expected_le
  have hseq := hat.seq_le
  have hbuf : ¬i32 (c.segmentStart d.hdr.seq - c.lastByteRead) < 0 := by
    rw [hat.bufOff]
    omega
  have hpkt : ¬i32 (c.segmentStart d.hdr.seq - d.hdr.seq) < 0 := by
    rw [hat.pktOff]
    omega
  rw [fault_storeSegment, Reassembled.headMatches hinv, hfault]
  simp [hbuf, hpkt]

/-- Storing a segment adds at most its own bytes and does not move
`tc_nextByteExpected` back. -/
theorem Reassembled.covers_storeSegment (hd : d.hdr.seq.toNat + bodyLen.toNat + c.readBufLen.toNat < 2147483648)
    (hpos : 0 < c.segmentLen d.hdr.seq bodyLen) :
    (∀ p, Covers (c.storeSegment d bodyLen).1.toRecvSide.runs p →
      (d.hdr.seq.toNat ≤ p ∧ p < d.hdr.seq.toNat + bodyLen.toNat) ∨ Covers c.toRecvSide.runs p) ∧
      c.nextByteExpected.toNat ≤ (c.storeSegment d bodyLen).1.nextByteExpected.toNat := by
  have hat := h.segmentAt hd hpos
  have hstop := hat.le_stop
  obtain ⟨-, hlist, -, -, hsmall⟩ := h.insertSegment hat (by omega)
  constructor
  · intro p hp
    have hruns : (c.storeSegment d bodyLen).1.toRecvSide.runs = _ := hlist
    rw [hruns, covers_place] at hp
    exact hp.imp_left fun hin => ⟨hat.seq_le.trans hin.1, lt_of_lt_of_le hin.2 hstop⟩
  · change _ ≤ (expectedAfter (c.insertSegment d.hdr.seq bodyLen).list c.nextByteExpected).toNat
    rw [toNat_expectedAfter hsmall]
    exact le_extendRun _ _

/-- A data packet of the stream, whatever part of it it carries, keeps the invariant,
the buffer size and the read position. -/
theorem Reassembled.handleNormalPacket (hS : SegmentOf S d bodyLen)
    (hd : d.hdr.seq.toNat + bodyLen.toNat + c.readBufLen.toNat < 2147483648) (hack : c.isACKInserted = false) :
    Reassembled S (c.handleNormalPacket d bodyLen).1.toRecvSide ∧ (c.handleNormalPacket d bodyLen).1.readBufLen =
    c.readBufLen ∧ (c.handleNormalPacket d bodyLen).1.lastByteRead = c.lastByteRead ∧
    (c.handleNormalPacket d bodyLen).1.fault = c.fault := by
  obtain heq | ⟨-, heq | ⟨hpos, heq⟩⟩ := handleNormalPacket_cases d bodyLen hack
  · rw [heq]
    exact ⟨h, rfl, rfl, rfl⟩
  · rw [heq]
    exact ⟨h, rfl, rfl, rfl⟩
  · have hstore := Reassembled.storeSegment (c := c.noteSegment d.hdr) h hS hd hpos
    rw [heq]
    exact ⟨hstore.1, rfl, rfl, hstore.2⟩

end Segment

/-! ## The application reads -/

section Read
variable {S : ℕ → UInt8} {c : DtpContext} {len : ℤ}

section
variable (c : DtpContext)

@[simp] theorem toRecvSide_noteDrained : c.noteDrained.toRecvSide = c.toRecvSide := by
  simp only [noteDrained]
  split_ifs <;> rfl

@[simp] theorem toRecvSide_reopenWindow : c.reopenWindow.toRecvSide = c.toRecvSide := by
  simp only [reopenWindow]
  split_ifs <;> rfl

@[simp] theorem toRecvSide_chargeBlock (len : ℤ) :
    (c.chargeBlock len).toRecvSide = c.toRecvSide := rfl

@[simp] theorem fault_chargeBlock (len : ℤ) :
    (c.chargeBlock len).fault = c.fault := rfl

@[simp] theorem fault_noteDrained : c.noteDrained.fault = c.fault := by
  simp only [noteDrained]
  split_ifs <;> rfl

@[simp] theorem fault_reopenWindow : c.reopenWindow.fault = c.fault := by
  simp only [reopenWindow]
  split_ifs <;> rfl

@[simp] theorem fault_slideReadBuf (len : ℤ) : (c.slideReadBuf len).fault = c.fault := by
  simp only [slideReadBuf]
  split_ifs <;> rfl

end

/-- Taking bytes off the first node trims the first interval. -/
theorem ival_dropFront {b : Buffer} {l : List Buffer} {n : ℕ} (hb : b.Small) (hn : n ≤ b.len.toNat) :
    (dropFront (UInt32.ofNat n) (b :: l)).map Buffer.ival = trimHead (b.seq.toNat + n) ((b :: l).map Buffer.ival) := by
  have hlt : b.seq.toNat + b.len.toNat < 2147483648 := hb
  have hofNat : (UInt32.ofNat n).toNat = n := toNat_ofNat_word (by omega)
  have hsub : (b.len - UInt32.ofNat n).toNat = b.len.toNat - n := by
    rw [toNat_sub_word (by omega), hofNat]
  have hzero : b.len - UInt32.ofNat n = 0 ↔ b.seq.toNat + n = b.ival.hi := by
    rw [← UInt32.toNat_inj, hsub, UInt32.toNat_zero, Buffer.ival]
    simp only
    omega
  simp only [dropFront, List.map_cons, trimHead, hzero]
  by_cases h : b.seq.toNat + n = b.ival.hi
  · rw [if_pos h, if_pos h]
  · rw [if_neg h, if_neg h, List.map_cons, Buffer.ival]
    simp only [hsub, Buffer.ival]
    rw [toNat_add_word (by omega), hofNat]
    congr 2
    omega

/-- Taking `n` readable bytes off the front trims the first run. -/
theorem Reassembled.runs_dropFront {r r' : RecvSide} (h : Reassembled S r) {n : ℕ} (hpos : 0 < n)
    (hn : r.lastByteRead.toNat + n ≤ r.nextByteExpected.toNat)
    (hlist : r'.readBufHead = dropFront (UInt32.ofNat n) r.readBufHead) :
    ∃ l, r.runs = ⟨r.lastByteRead.toNat, r.nextByteExpected.toNat⟩ :: l ∧
      r'.runs = trimHead (r.lastByteRead.toNat + n) r.runs := by
  have hsmall := h.expected_le.2
  obtain ⟨b, rest, hhead, hb⟩ := h.head (by omega)
  have hlo : b.seq.toNat = r.lastByteRead.toNat := congrArg Ival.lo hb
  have hhi : b.seq.toNat + b.len.toNat = r.nextByteExpected.toNat := congrArg Ival.hi hb
  refine ⟨rest.map Buffer.ival, ?_, ?_⟩
  · rw [RecvSide.runs, hhead, List.map_cons, hb]
  · rw [RecvSide.runs, hlist, hhead, ival_dropFront (h.small b (by simp [hhead])) (by omega), hlo, RecvSide.runs, hhead]

/-- Taking `n` readable bytes off the front, and sliding the buffer by as much, keeps
the invariant. -/
theorem Reassembled.consume {r r' : RecvSide} (h : Reassembled S r) {n : ℕ} (hpos : 0 < n)
    (hn : r.lastByteRead.toNat + n ≤ r.nextByteExpected.toNat) (hlen : r'.readBufLen = r.readBufLen)
    (hread : r'.lastByteRead.toNat = r.lastByteRead.toNat + n) (hexp : r'.nextByteExpected = r.nextByteExpected)
    (hrcvd : r'.lastByteRcvd = r.lastByteRcvd) (hlist : r'.readBufHead = dropFront (UInt32.ofNat n) r.readBufHead)
    (hbuf : r'.readBuf = move r.readBuf 0 n (r.lastByteRcvd.toNat - (r.lastByteRead.toNat + n))) :
    Reassembled S r' := by
  have hsmall := h.expected_le.2
  obtain ⟨l, hruns, hruns'⟩ := h.runs_dropFront hpos hn hlist
  have hsep := h.separated
  have hrcv := h.rcvd
  rw [hruns] at hsep hrcv
  have hend : ∀ x ∈ r'.runs, ∃ z ∈ r.runs, x.hi = z.hi := by
    rw [hruns']
    exact hi_mem_trimHead
  have hlow : ∀ x ∈ r'.runs, r.lastByteRead.toNat + n ≤ x.lo := by
    rw [hruns', hruns]
    exact hsep.le_lo_trimHead hn
  refine ⟨hlen ▸ h.len_nonneg, by rw [hlen, hread]; omega, ?_, ?_, ?_, ?_, ?_, ?_, ?_⟩
  · intro x hx
    obtain ⟨z, hz, he⟩ := hend x hx
    rw [hlen, he]
    exact h.node_small z hz
  · rw [hruns', hruns]
    exact separated_trimHead hsep hn
  · rw [hread]
    exact hlow
  · intro x hx
    obtain ⟨z, hz, he⟩ := hend x hx
    have hz := h.high z hz
    rw [hlen, hread, he]
    omega
  · rw [hbuf, hread]
    have hheld : Holds r.readBuf r.lastByteRead.toNat S (Covers r'.runs) := by
      refine h.bytes.mono ?_
      intro p hp
      rw [hruns', hruns] at hp
      rw [hruns]
      exact covers_of_covers_trimHead (Nat.le_add_right _ _) hp
    refine hheld.slide ?_
    intro p hp
    obtain ⟨x, hx, hxlo, hxhi⟩ := hp
    obtain ⟨z, hz, he⟩ := hend x hx
    have hbound : z.hi ≤ r.lastByteRcvd.toNat := by
      rw [h.rcvd]
      exact h.separated.le_lastHi z hz
    have hx' := hlow x hx
    omega
  · rw [hread, hexp, hruns', hruns]
    exact hsep.isRunEnd_trimHead hn
  · rw [hrcvd, hread, hrcv, hruns', hruns]
    exact lastHi_trimHead.symm

theorem toRecvSide_slideReadBuf (c : DtpContext) (len : ℤ) : (c.slideReadBuf len).toRecvSide =
    { c.toRecvSide with readBuf := move c.readBuf 0 len.toNat (i32 (c.lastByteRcvd - c.lastByteRead)).toNat } := by
  simp only [slideReadBuf]
  by_cases h : 0 < i32 (c.lastByteRcvd - c.lastByteRead)
  · rw [if_pos h]
  · have hz : (i32 (c.lastByteRcvd - c.lastByteRead)).toNat = 0 := by omega
    rw [if_neg h, hz, move_zero]

theorem toRecvSide_consumeHead (hne : c.readBufHead ≠ []) :
    (c.consumeHead len).toRecvSide = (c.dropHead len).toRecvSide := by
  obtain ⟨b, rest, hb⟩ := List.exists_cons_of_ne_nil hne
  simp only [consumeHead, hb]
  split_ifs <;> rfl

theorem fault_consumeHead (hne : c.readBufHead ≠ [])
    (hm : (c.dropHead len).headMatches = true) : (c.consumeHead len).fault = c.fault := by
  obtain ⟨b, rest, hb⟩ := List.exists_cons_of_ne_nil hne
  simp only [consumeHead, hb, hm]
  split_ifs
  · simp [assert, dropHead]
  · rfl

/-- Consuming drops bytes from the list and slides the buffer. -/
theorem toRecvSide_consume (hne : c.readBufHead ≠ []) :
    (c.consume len).toRecvSide = { ((c.advanceRead len).dropHead len).toRecvSide with
        readBuf := move c.readBuf 0 len.toNat
          (i32 (c.lastByteRcvd - (c.lastByteRead + u32 len))).toNat } := by
  have hhead : ((c.advanceRead len).consumeHead len).toRecvSide =
      ((c.advanceRead len).dropHead len).toRecvSide := toRecvSide_consumeHead hne
  rw [consume, toRecvSide_chargeBlock, toRecvSide_reopenWindow, toRecvSide_noteDrained,
    toRecvSide_slideReadBuf, hhead]
  rfl

/-- Consuming `n` readable bytes keeps the invariant, moves the read position by `n`
and trips no check. -/
theorem Reassembled.consumeBytes (h : Reassembled S c.toRecvSide) {n : ℕ} (hpos : 0 < n)
    (hn : c.lastByteRead.toNat + n ≤ c.nextByteExpected.toNat) : Reassembled S (c.consume n).toRecvSide ∧
    (c.consume n).readBufLen = c.readBufLen ∧ (c.consume n).lastByteRead.toNat = c.lastByteRead.toNat + n ∧
    (c.consume n).fault = c.fault := by
  have hexp := h.expected_le
  have hrcvd := h.rcvd_le
  have hread := h.read_small
  obtain ⟨b, rest, hb, -⟩ := h.head (by omega)
  have hne : c.readBufHead ≠ [] := by
    rw [hb]
    exact List.cons_ne_nil b rest
  have hadd : (c.lastByteRead + u32 n).toNat = c.lastByteRead.toNat + n := by
    rw [toNat_add_u32 (by omega) (by omega)]
    simp
  have hmove : (i32 (c.lastByteRcvd - (c.lastByteRead + u32 n))).toNat =
      c.lastByteRcvd.toNat - (c.lastByteRead.toNat + n) := by
    rw [i32_sub (by omega) (by omega), hadd]
    omega
  have hside : (c.consume n).toRecvSide = _ := toRecvSide_consume hne
  have hinv : Reassembled S (c.consume n).toRecvSide := by
    rw [hside]
    refine h.consume hpos hn rfl hadd rfl rfl ?_ ?_
    · rw [← u32_natCast]
      rfl
    · rw [hmove, Int.toNat_natCast]
  refine ⟨hinv, ?_, ?_, ?_⟩
  · rw [hside]
    rfl
  · rw [hside]
    exact hadd
  · rw [hside] at hinv
    have hm : ((c.advanceRead n).dropHead n).headMatches = true := hinv.headMatches
    rw [DtpContext.consume, fault_chargeBlock, fault_reopenWindow, fault_noteDrained,
      fault_slideReadBuf, fault_consumeHead (c := c.advanceRead n) hne hm]
    rfl

/-- What is present after a read was present before. -/
theorem Reassembled.covers_consume (h : Reassembled S c.toRecvSide) {n : ℕ} (hpos : 0 < n)
    (hn : c.lastByteRead.toNat + n ≤ c.nextByteExpected.toNat) :
    (∀ p, Covers (c.consume n).toRecvSide.runs p → Covers c.toRecvSide.runs p) ∧
      (c.consume n).nextByteExpected = c.nextByteExpected := by
  obtain ⟨b, rest, hb, -⟩ := h.head (by omega)
  have hne : c.readBufHead ≠ [] := by
    rw [hb]
    exact List.cons_ne_nil b rest
  have hside : (c.consume n).toRecvSide = _ := toRecvSide_consume hne
  have hlist : (c.consume n).readBufHead = dropFront (UInt32.ofNat n) c.readBufHead := by
    rw [hside, ← u32_natCast]
    rfl
  obtain ⟨l, hruns, hruns'⟩ := h.runs_dropFront hpos hn hlist
  constructor
  · intro p hp
    rw [hruns', hruns] at hp
    rw [hruns]
    exact covers_of_covers_trimHead (Nat.le_add_right _ _) hp
  · rw [hside]
    rfl

@[simp] theorem assert_true (c : DtpContext) : c.assert true = c := by
  simp [assert]

/-- The bytes a `dtp_recv` is about to return are those of the first node. -/
theorem Reassembled.headHolds (h : Reassembled S c.toRecvSide) {n : ℕ} (hpos : 0 < n)
    (hn : c.lastByteRead.toNat + n ≤ c.nextByteExpected.toNat) : c.headHolds n = true := by
  obtain ⟨b, rest, hb, hi⟩ := h.head (by omega)
  have hlo : b.seq.toNat = c.lastByteRead.toNat := congrArg Ival.lo hi
  have hhi : b.seq.toNat + b.len.toNat = c.nextByteExpected.toNat := congrArg Ival.hi hi
  have hsmall := h.expected_le.2
  have hle : u32 n ≤ b.len := by
    rw [UInt32.le_iff_toNat_le, toNat_u32 (by omega) (by omega)]
    omega
  simp only [DtpContext.headHolds, hb, UInt32.toNat_inj.mp hlo, BEq.rfl, hle, decide_true, Bool.and_self]

/-- What `dtp_recv` does on an established context: nothing to read yet, or some of the
next bytes of the stream. -/
theorem Reassembled.recvBody_cases (h : Reassembled S c.toRecvSide) (hst : c.state = .established)
    (length : ℕ) (msgPeek woken : Bool) :
    c.recvBody length msgPeek woken = (c, .error .eagain) ∨
      c.recvBody length msgPeek woken = ({ c with isReadBlocked := true }, .blocked) ∨
      ∃ n, 0 < n ∧ n ≤ length ∧ c.lastByteRead.toNat + n ≤ c.nextByteExpected.toNat ∧ c.recvBody length msgPeek woken =
          (if msgPeek then c else c.consume n, .done (peek S c.lastByteRead.toNat n)) := by
  have hle : c.lastByteRead.toNat ≤ c.nextByteExpected.toNat := h.expected.le
  have hsize : c.getReadBufDataSize = (c.nextByteExpected.toNat : ℤ) - c.lastByteRead.toNat :=
    h.dataSize
  have hlen : minSize length c.getReadBufDataSize =
      (min length (c.nextByteExpected.toNat - c.lastByteRead.toNat) : ℕ) := by
    rw [hsize, minSize, if_neg (by omega)]
    omega
  generalize hn : min length (c.nextByteExpected.toNat - c.lastByteRead.toNat) = n at hlen
  have hcw : decide (c.state = .closeWait) = false := by simp [hst]
  have hopen : c.state.isClosing = false := by
    rw [hst]
    rfl
  simp only [recvBody, hlen, hcw, Bool.and_false, Bool.not_false, assert_true, hopen]
  cases n with
  | zero =>
    cases c.nonblock with
    | true => exact Or.inl (by simp)
    | false => exact Or.inr (Or.inl (by simp))
  | succ k =>
    have hhold := h.headHolds (n := k + 1) (by omega) (by omega)
    have hpeek : peek c.readBuf 0 (k + 1) = peek S c.lastByteRead.toNat (k + 1) := by
      have hread := h.bytes.peek_eq (q := c.lastByteRead.toNat) (n := k + 1) le_rfl
        fun p h0 h1 => h.expected.covered p h0 (by omega)
      rwa [Nat.sub_self] at hread
    refine Or.inr (Or.inr ⟨k + 1, by omega, by omega, by omega, ?_⟩)
    have hne : ((k + 1 : ℕ) : ℤ) ≠ 0 := by omega
    have hpos : (0 : ℤ) < ((k + 1 : ℕ) : ℤ) := by omega
    simp only [hne, hpos, if_true, if_false, hhold, assert_true, Int.toNat_natCast, hpeek]
    cases msgPeek <;> rfl

/-- A peek returns what the read would. -/
theorem recvBody_peek (c : DtpContext) (length : ℕ) (woken : Bool) :
    (c.recvBody length true woken).2 = (c.recvBody length false woken).2 := by
  simp only [recvBody]
  split_ifs <;> rfl

end Read

/-! ## Runs -/

/-- What can happen to the receive side. -/
inductive ReadEvent
  /-- `HandleNormalPacket` on a datagram with `bodyLen` bytes of data -/
  | segment (d : Datagram) (bodyLen : UInt32)
  /-- a call of `dtp_recv` -/
  | recv (length : ℕ) (msgPeek : Bool)
  /-- a sleeping `dtp_recv` is woken -/
  | wake (length : ℕ) (msgPeek : Bool)

/-- A context and what its application has read so far. -/
structure Reading where
  ctx : DtpContext
  delivered : List UInt8

/-- The bytes a call hands to the application. -/
def CallResult.bytes : CallResult (List UInt8) → List UInt8
  | .done bytes => bytes
  | _ => []

/-- Account for a call of `dtp_recv`; a peek delivers nothing. -/
def Reading.take (s : Reading) (msgPeek : Bool) (r : DtpContext × CallResult (List UInt8)) :
    Reading :=
  ⟨r.1, s.delivered ++ if msgPeek then [] else r.2.bytes⟩

/-- A context `c₀` receiving segments of the stream `S` in any order, with any repetition
and overlap, while its application reads. Sequence numbers stay far enough below
`2 ^ 31` for signed differences to be exact. -/
def receiver (S : ℕ → UInt8) (c₀ : DtpContext) : Machine Reading ReadEvent where
  init s := s = ⟨c₀, []⟩
  allowed s e :=
    match e with
    | .segment d bodyLen => SegmentOf S d bodyLen ∧
        d.hdr.seq.toNat + bodyLen.toNat + s.ctx.readBufLen.toNat < 2147483648
    | .recv _ _ => True
    | .wake _ _ => s.ctx.isReadBlocked = true
  apply s e :=
    match e with
    | .segment d bodyLen => { s with ctx := (s.ctx.handleNormalPacket d bodyLen).1 }
    | .recv length msgPeek => s.take msgPeek (s.ctx.dtpRecv length msgPeek)
    | .wake length msgPeek => s.take msgPeek (s.ctx.dtpRecvWake length msgPeek)

/-- A context that has just become `ESTABLISHED`. -/
structure FreshReceiver (c : DtpContext) : Prop where
  state : c.state = .established
  list : c.readBufHead = []
  expected : c.nextByteExpected = c.lastByteRead
  rcvd : c.lastByteRcvd = c.lastByteRead
  len_nonneg : 0 ≤ c.readBufLen
  small : c.lastByteRead.toNat + c.readBufLen.toNat < 2147483648
  connected : c.isACKInserted = false
  fault : c.fault = false

/-- The invariant of a run: the receive side agrees with the stream, and what has been
delivered is the part of the stream before the read position. -/
structure ReadInv (S : ℕ → UInt8) (r₀ : ℕ) (s : Reading) : Prop where
  reassembled : Reassembled S s.ctx.toRecvSide
  state : s.ctx.state = .established
  connected : s.ctx.isACKInserted = false
  fault : s.ctx.fault = false
  read : s.ctx.lastByteRead.toNat = r₀ + s.delivered.length
  delivered : s.delivered = peek S r₀ s.delivered.length

theorem Reassembled.of_empty {r : RecvSide} (S : ℕ → UInt8) (hlist : r.readBufHead = [])
    (hexp : r.nextByteExpected = r.lastByteRead) (hrcvd : r.lastByteRcvd = r.lastByteRead) (hlen : 0 ≤ r.readBufLen)
    (hsmall : r.lastByteRead.toNat + r.readBufLen.toNat < 2147483648) : Reassembled S r := by
  have hruns : r.runs = [] := by rw [RecvSide.runs, hlist, List.map_nil]
  refine ⟨hlen, hsmall, ?_, ?_, ?_, ?_, ?_, ?_, ?_⟩
  · simp [hruns]
  · simp [hruns]
  · simp [hruns]
  · simp [hruns]
  · intro p hp
    rw [hruns] at hp
    exact absurd hp (not_covers_nil p)
  · rw [hruns, hexp]
    exact ⟨le_rfl, fun p h0 h1 => absurd h1 (not_lt.mpr h0), not_covers_nil _⟩
  · rw [hruns, hrcvd, lastHi_nil]

theorem FreshReceiver.readInv {c : DtpContext} (h : FreshReceiver c) (S : ℕ → UInt8) :
    ReadInv S c.lastByteRead.toNat ⟨c, []⟩ :=
  ⟨.of_empty S h.list h.expected h.rcvd h.len_nonneg h.small, h.state, h.connected, h.fault, rfl, rfl⟩

section Run
variable {S : ℕ → UInt8} {r₀ : ℕ} {s : Reading} (h : ReadInv S r₀ s)
include h

/-- A change that receiving cannot see keeps the invariant. -/
theorem ReadInv.of_unread {c : DtpContext} (hf : RecvFrame s.ctx c)
    (hr : c.toRecvSide = s.ctx.toRecvSide) (hfault : c.fault = s.ctx.fault) : ReadInv S r₀ { s with ctx := c } where
  reassembled := by
    rw [hr]
    exact h.reassembled
  state := (congrArg Lifecycle.state hf.lifecycle).trans h.state
  connected := (congrArg Liveness.isACKInserted hf.liveness).trans h.connected
  fault := hfault.trans h.fault
  read := (congrArg (fun r => r.lastByteRead.toNat) hr).trans h.read
  delivered := h.delivered

theorem ReadInv.recvBody (length : ℕ) (msgPeek woken : Bool) :
    ReadInv S r₀ (s.take msgPeek (s.ctx.recvBody length msgPeek woken)) := by
  obtain heq | heq | ⟨n, hpos, -, hn, heq⟩ :=
    h.reassembled.recvBody_cases h.state length msgPeek woken
  · rw [heq]
    simpa [Reading.take, CallResult.bytes] using h
  · rw [heq]
    simpa [Reading.take, CallResult.bytes] using
      h.of_unread (c := { s.ctx with isReadBlocked := true })
        { RecvFrame.refl _ with } rfl rfl
  · rw [heq]
    cases msgPeek with
    | true => simpa [Reading.take] using h
    | false =>
      obtain ⟨hinv, -, hread, hfault⟩ := h.reassembled.consumeBytes hpos hn
      have hframe := RecvFrame.consume s.ctx n
      have hlen : (s.delivered ++ peek S s.ctx.lastByteRead.toNat n).length = s.delivered.length + n := by simp
      simp only [Reading.take, CallResult.bytes, Bool.false_eq_true, if_false]
      refine ⟨hinv, ?_, ?_, hfault.trans h.fault, ?_, ?_⟩
      · exact (congrArg Lifecycle.state hframe.lifecycle).trans h.state
      · exact (congrArg Liveness.isACKInserted hframe.liveness).trans h.connected
      · rw [hread, hlen, h.read]
        omega
      · rw [hlen, peek_add, ← h.delivered, h.read]

theorem ReadInv.dtpRecv (length : ℕ) (msgPeek : Bool) :
    ReadInv S r₀ (s.take msgPeek (s.ctx.dtpRecv length msgPeek)) := by
  have hkeep : ∀ r : CallResult (List UInt8), r.bytes = [] → ReadInv S r₀ (s.take msgPeek (s.ctx, r)) := by
    intro r hr
    simpa [Reading.take, hr] using h
  simp only [DtpContext.dtpRecv]
  split_ifs
  · exact hkeep _ rfl
  · exact hkeep _ rfl
  · exact hkeep _ rfl
  · exact hkeep _ rfl
  · exact h.recvBody length msgPeek false

theorem ReadInv.dtpRecvWake (length : ℕ) (msgPeek : Bool) :
    ReadInv S r₀ (s.take msgPeek (s.ctx.dtpRecvWake length msgPeek)) := by
  have hwoken : ReadInv S r₀ { s with ctx := { s.ctx with isReadBlocked := false } } :=
    h.of_unread { RecvFrame.refl _ with } rfl rfl
  have hkeep : ∀ r : CallResult (List UInt8), r.bytes = [] →
      ReadInv S r₀ (s.take msgPeek ({ s.ctx with isReadBlocked := false }, r)) := by
    intro r hr
    simpa [Reading.take, hr] using hwoken
  simp only [DtpContext.dtpRecvWake]
  split_ifs
  · exact hkeep _ rfl
  · exact hkeep _ rfl
  · exact hwoken.recvBody length msgPeek true

theorem ReadInv.step {c₀ : DtpContext} {e : ReadEvent}
    (he : (receiver S c₀).allowed s e) : ReadInv S r₀ ((receiver S c₀).apply s e) := by
  cases e with
  | segment d bodyLen =>
    obtain ⟨hS, hd⟩ := he
    obtain ⟨hinv, -, hread, hfault⟩ := h.reassembled.handleNormalPacket hS hd h.connected
    have hframe := RecvFrame.handleNormalPacket (c := s.ctx) d bodyLen h.connected
    refine ⟨hinv, ?_, ?_, hfault.trans h.fault, ?_, h.delivered⟩
    · exact (congrArg Lifecycle.state hframe.lifecycle).trans h.state
    · exact (congrArg Liveness.isACKInserted hframe.liveness).trans h.connected
    · exact (congrArg UInt32.toNat hread).trans h.read
  | recv length msgPeek => exact h.dtpRecv length msgPeek
  | wake length msgPeek => exact h.dtpRecvWake length msgPeek

end Run

/-! ## Peeking -/

/-- A call with `MSG_PEEK` returns what the same call without it would, and leaves the
context as it is unless it goes to sleep. -/
def PeekHarmless (c : DtpContext) : Prop :=
  ∀ length, (c.dtpRecv length true).2 = (c.dtpRecv length false).2 ∧ ((c.dtpRecv length true).1 = c ∨
      c.dtpRecv length true = ({ c with isReadBlocked := true }, .blocked))

theorem dtpRecv_peek (c : DtpContext) (length : ℕ) : (c.dtpRecv length true).2 = (c.dtpRecv length false).2 := by
  simp only [dtpRecv]
  split_ifs
  · rfl
  · rfl
  · rfl
  · rfl
  · exact recvBody_peek c length false

theorem ReadInv.peekHarmless {S : ℕ → UInt8} {r₀ : ℕ} {s : Reading} (h : ReadInv S r₀ s) : PeekHarmless s.ctx := by
  intro length
  refine ⟨dtpRecv_peek s.ctx length, ?_⟩
  simp only [DtpContext.dtpRecv]
  split_ifs
  · exact Or.inl rfl
  · exact Or.inl rfl
  · exact Or.inl rfl
  · exact Or.inl rfl
  · obtain heq | heq | ⟨n, -, -, -, heq⟩ :=
      h.reassembled.recvBody_cases h.state length true false
    · exact Or.inl (by rw [heq])
    · exact Or.inr heq
    · exact Or.inl (by rw [heq]; rfl)

/-! ## Main result -/

/-- A fresh context with a small read buffer. -/
def sampleReceiver : DtpContext := { state := .established, isActive := true, readBufLen := 8 }

/-- A segment of the stream `0, 1, 2, …`. -/
def sampleSegment (seq len : ℕ) : Datagram where
  hdr := { fid := 0, seq := UInt32.ofNat seq, ackSeq := 0, doff := 5, windowSize := 100 }
  len := hdrSize + len
  opts _ := 0
  body i := UInt8.ofNat (seq + i)

/-- The second part first, then an overlapping first part, then a read of six bytes. -/
def sampleReads : List ReadEvent :=
  [.segment (sampleSegment 4 3) 3, .segment (sampleSegment 0 5) 5, .recv 6 false]

end Cedos.Dtp
