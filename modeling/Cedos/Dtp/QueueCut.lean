import Cedos.Dtp.Packet

/-!
# Cutting the retransmission queue

What the walk of `RemovePacket` keeps of a queue, for the invariants of the send side. On a queue that tiles a
stretch `[a, b)` of the stream, with a FIN behind it or without, this is said in full: the data packets that end by the
ACK number are gone, the first of the others starts at it, and nothing else has changed.
-/

namespace Cedos.Dtp

/-! ## The walk -/

section Walk
variable {n a b : ℕ} {q : List DtpPkt} {ack : UInt32} {p : DtpPkt}

/-- The packets left have the flags and the ACK numbers they had. -/
theorem mem_cutQueue (hp : p ∈ (cutQueue ack q).rest) :
    ∃ p₀ ∈ q, p₀.header.hdr.ackSeq = p.header.hdr.ackSeq ∧ p₀.header.hdr.toFlags = p.header.hdr.toFlags := by
  induction q with
  | nil => simp [cutQueue] at hp
  | cons p₁ q ih =>
    simp only [cutQueue] at hp
    split_ifs at hp
    · obtain ⟨p₀, hmem, heq⟩ := ih hp
      exact ⟨p₀, List.mem_cons_of_mem _ hmem, heq⟩
    · exact ⟨p, hp, rfl, rfl⟩
    · exact ⟨p, List.mem_cons_of_mem _ hp, rfl, rfl⟩
    · cases List.mem_cons.mp hp with
      | inl heq => exact ⟨p₁, List.mem_cons_self, heq ▸ rfl, heq ▸ rfl⟩
      | inr hmem => exact ⟨p, List.mem_cons_of_mem _ hmem, rfl, rfl⟩

theorem cutQueue_nil (h : ∀ p ∈ q, p.stop < ack) : (cutQueue ack q).rest = [] := by
  induction q with
  | nil => rfl
  | cons p q ih =>
    simp only [cutQueue, h p List.mem_cons_self, if_true]
    exact ih fun x hx => h x (List.mem_cons_of_mem p hx)

theorem length_cutQueue (a : UInt32) (q : List DtpPkt) : (cutQueue a q).rest.length ≤ q.length := by
  induction q with
  | nil => simp [cutQueue]
  | cons p q ih =>
    simp only [cutQueue]
    split_ifs
    · exact ih.trans (Nat.le_succ _)
    · exact le_rfl
    · exact Nat.le_succ _
    · simp

/-- The payload in the queue. -/
def queueLen (q : List DtpPkt) : ℤ := (q.map DtpPkt.payloadLen).sum

@[simp] theorem queueLen_nil : queueLen [] = 0 := rfl

@[simp] theorem queueLen_cons (p : DtpPkt) (q : List DtpPkt) : queueLen (p :: q) = p.payloadLen + queueLen q := by
  simp [queueLen]

@[simp] theorem queueLen_append (q q' : List DtpPkt) : queueLen (q ++ q') = queueLen q + queueLen q' := by
  simp [queueLen]

/-- What `RemovePacket` takes off `tc_segSent` is what it takes out of the queue. -/
theorem removed_cutQueue (ack : UInt32) (q : List DtpPkt) :
    queueLen (cutQueue ack q).rest = queueLen q - (cutQueue ack q).removed := by
  induction q with
  | nil => simp [cutQueue]
  | cons p q ih =>
    simp only [cutQueue]
    split_ifs
    · simp only [queueLen_cons, ih]
      omega
    · simp
    · simp
    · simp only [queueLen_cons, DtpPkt.payloadLen, DtpPkt.trim]
      omega

/-- Cutting the queue at a number inside it leaves a tiling from there on. A FIN that ends there is kept, so it has
to be empty. -/
theorem tiles_cut (hs : ∀ p ∈ q, p.Sound n) (hn : n < 2147483648)
    (hfin : ∀ p ∈ q, p.header.hdr.fin = true → p.payloadLen = 0) (ht : Tiles (q.map DtpPkt.ival) a b)
    (h0 : a ≤ ack.toNat) (h1 : ack.toNat ≤ b) :
    Tiles ((cutQueue ack q).rest.map DtpPkt.ival) ack.toNat b := by
  induction q generalizing a with
  | nil =>
    obtain rfl : a = b := ht
    exact le_antisymm h1 h0
  | cons p q ih =>
    have hp := hs p (by simp)
    have hstop := hp.toNat_stop hn
    obtain ⟨-, -, hq⟩ := ht
    simp only [cutQueue]
    split_ifs with hlt heq hf
    · rw [UInt32.lt_iff_toNat_lt, hstop] at hlt
      exact ih (fun x hx => hs x (List.mem_cons_of_mem _ hx))
        (fun x hx => hfin x (List.mem_cons_of_mem _ hx)) hq hlt.le
    · have hhi : p.hi = ack.toNat := by rw [← heq, hstop]
      have hlo : p.seqNum.toNat = ack.toNat := by
        rw [← hhi, DtpPkt.hi, hfin p (by simp) hf, Int.toNat_zero, Nat.add_zero]
      exact ⟨hlo, Nat.le_add_right _ _, hq⟩
    · have hhi : p.ival.hi = ack.toNat := by rw [← heq, hstop]; rfl
      rw [← hhi]
      exact hq
    · have hgt : ack.toNat < p.hi := by
        rw [UInt32.lt_iff_toNat_lt] at hlt
        rw [← UInt32.toNat_inj] at heq
        omega
      have hival := (hp.trim_ival hn hgt).1
      rw [List.map_cons, hival]
      exact ⟨rfl, hgt.le, hq⟩

theorem cut_of_lt (hs : ∀ p ∈ q, p.Sound n) (hn : n < 2147483648)
    (ht : Tiles (q.map DtpPkt.ival) a b) (h : b < ack.toNat) : (cutQueue ack q).rest = [] := by
  refine cutQueue_nil fun p hp => ?_
  rw [UInt32.lt_iff_toNat_lt, (hs p hp).toNat_stop hn]
  exact (ht.mem_bounds _ (List.mem_map_of_mem hp)).2.2.trans_lt h

/-- Cutting it past its end leaves nothing. -/
theorem tiles_cut_max (hs : ∀ p ∈ q, p.Sound n) (hn : n < 2147483648)
    (hfin : ∀ p ∈ q, p.header.hdr.fin = true → p.payloadLen = 0) (ht : Tiles (q.map DtpPkt.ival) a b)
    (h0 : a ≤ ack.toNat) : Tiles ((cutQueue ack q).rest.map DtpPkt.ival) ack.toNat (max b ack.toNat) := by
  by_cases hle : ack.toNat ≤ b
  · rw [max_eq_left hle]
    exact tiles_cut hs hn hfin ht h0 hle
  · rw [cut_of_lt hs hn ht (by omega), max_eq_right (by omega)]
    rfl

/-- A packet that is not freed keeps its place and its mark. -/
theorem cut_single (hf : (cutQueue ack [p]).freed = false) :
    ∃ p', (cutQueue ack [p]).rest = [p'] ∧ p'.isRetrans = p.isRetrans := by
  simp only [cutQueue] at hf ⊢
  split_ifs at hf ⊢ with h0 h1 h2
  · exact ⟨p, rfl, rfl⟩
  · exact ⟨_, rfl, DtpPkt.isRetrans_trim p _⟩

/-- A FIN that the ACK number does not pass stays in the queue. -/
theorem fin_mem_cut (hs : ∀ p ∈ q, p.Sound n) (hn : n < 2147483648) (hp : p ∈ q)
    (hfin : p.header.hdr.fin = true) (hle : ack.toNat ≤ n) :
    ∃ p' ∈ (cutQueue ack q).rest, p'.header.hdr.fin = true := by
  induction q with
  | nil => cases hp
  | cons x q ih =>
    have hstop := (hs x List.mem_cons_self).toNat_stop hn
    have htail : p ≠ x → p ∈ q := fun hne => (List.mem_cons.mp hp).resolve_left hne
    simp only [cutQueue]
    split_ifs with hlt heq hf
    · refine ih (fun y hy => hs y (List.mem_cons_of_mem x hy)) (htail ?_)
      rintro rfl
      have hend := (hs p List.mem_cons_self).fin hfin
      rw [UInt32.lt_iff_toNat_lt] at hlt
      omega
    · exact ⟨x, List.mem_cons_self, hf⟩
    · refine ⟨p, htail ?_, hfin⟩
      rintro rfl
      exact hf hfin
    · by_cases hx : p = x
      · exact ⟨x.trim (i32 (ack - x.seqNum)), List.mem_cons_self, hx ▸ hfin⟩
      · exact ⟨p, List.mem_cons_of_mem _ (htail hx), hfin⟩

/-- What is left of a packet that is cut is data. -/
theorem empty_cut (hs : ∀ p ∈ q, p.Sound n) (hn : n < 2147483648)
    (he : ∀ p ∈ q, p.header.hdr.fin = true ↔ p.payloadLen = 0) (ht : Tiles (q.map DtpPkt.ival) a b)
    (h0 : a ≤ ack.toNat) : ∀ p ∈ (cutQueue ack q).rest, p.header.hdr.fin = true ↔ p.payloadLen = 0 := by
  induction q generalizing a with
  | nil => exact he
  | cons x q ih =>
    have hx := hs x List.mem_cons_self
    have hstop := hx.toNat_stop hn
    have htail : ∀ p ∈ q, p.header.hdr.fin = true ↔ p.payloadLen = 0 :=
      fun p hp => he p (List.mem_cons_of_mem x hp)
    obtain ⟨hlo, -, hq⟩ := ht
    simp only [cutQueue]
    split_ifs with hlt heq hf
    · rw [UInt32.lt_iff_toNat_lt, hstop] at hlt
      exact ih (fun y hy => hs y (List.mem_cons_of_mem x hy)) htail hq hlt.le
    · exact he
    · exact htail
    · have hgt : ack.toNat < x.hi := by
        rw [UInt32.lt_iff_toNat_lt] at hlt
        rw [← UInt32.toNat_inj] at heq
        omega
      have hpos := (hx.trim_ival hn hgt).2
      have hdata : ¬x.payloadLen = 0 := by
        intro hzero
        have hstart : x.seqNum.toNat = a := hlo
        rw [DtpPkt.hi, hzero, Int.toNat_zero] at hgt
        omega
      intro p hp
      cases List.mem_cons.mp hp with
      | inl heq =>
        rw [heq, DtpPkt.fin_trim, he x List.mem_cons_self]
        exact iff_of_false hdata hpos.ne'
      | inr hmem => exact htail p hmem

end Walk

/-! ## A tiled queue -/

namespace DtpPkt

/-- A packet with data, whose stored header agrees with it. `tp_len` is an `int`. -/
structure IsData (p : DtpPkt) : Prop where
  nonempty : 0 < p.payloadLen
  lt_int : p.payloadLen < 2147483648
  seq : p.header.hdr.seq = p.seqNum
  fin : p.header.hdr.fin = false

/-- The FIN at the end `b` of the stream. -/
structure IsFIN (b : ℕ) (p : DtpPkt) : Prop where
  seqNum : p.seqNum.toNat = b
  empty : p.payloadLen = 0
  fin : p.header.hdr.fin = true

def startAt (ack : UInt32) (p : DtpPkt) : DtpPkt :=
  { p with
    seqNum := ack
    header := { p.header with hdr := { p.header.hdr with seq := ack } }
    len := p.len - ((ack.toNat : ℤ) - p.seqNum.toNat) }

variable {p : DtpPkt} {ack : UInt32} {b : ℕ}

theorem payloadLen_startAt : (p.startAt ack).payloadLen = p.payloadLen - ((ack.toNat : ℤ) - p.seqNum.toNat) := by
  simp only [payloadLen, startAt]
  ring

/-- The ACK number lies in the packet: `RemovePacket` moves its start there. -/
theorem IsData.trim_eq (h : p.IsData) (hlo : p.seqNum.toNat ≤ ack.toNat) (hhi : ack.toNat < p.hi) :
    p.trim (i32 (ack - p.seqNum)) = p.startAt ack ∧ i32 (ack - p.seqNum) = (ack.toNat : ℤ) - p.seqNum.toNat := by
  have hint := h.lt_int
  rw [hi] at hhi
  have hmove : i32 (ack - p.seqNum) = (ack.toNat : ℤ) - p.seqNum.toNat := i32_sub_near (by omega) (by omega)
  have hseq : p.seqNum + u32 (i32 (ack - p.seqNum)) = ack := by
    rw [u32_i32, UInt32.add_comm, UInt32.sub_add_cancel]
  refine ⟨?_, hmove⟩
  rw [trim, startAt, hseq, hmove]

theorem ival_startAt (hlo : p.seqNum.toNat ≤ ack.toNat) (hhi : ack.toNat < p.hi) :
    (p.startAt ack).ival = ⟨ack.toNat, p.hi⟩ := by
  rw [hi] at hhi
  rw [ival, hi, payloadLen_startAt, hi]
  congr 1
  change ack.toNat + _ = _
  omega

/-- A packet that starts at the ACK number already is left as it is. -/
theorem IsData.startAt_self (h : p.IsData) (hlo : p.seqNum = ack) : p.startAt ack = p := by
  obtain ⟨seqNum, len, headerLen, header, isRetrans⟩ := p
  obtain rfl : seqNum = ack := hlo
  obtain rfl : header.hdr.seq = seqNum := h.seq
  simp [startAt]

theorem IsFIN.stop_eq (h : p.IsFIN b) (hack : ack.toNat = b) : p.stop = ack := by
  have hhi : p.hi = ack.toNat := by rw [hi, h.empty, h.seqNum, hack, Int.toNat_zero, Nat.add_zero]
  apply UInt32.toNat_inj.mp
  rw [toNat_stop h.empty.ge (by rw [hhi]; exact toNat_lt_word ack), hhi]

end DtpPkt

/-- The queue with its first packet starting at `ack`. -/
def trimTo (ack : UInt32) : List DtpPkt → List DtpPkt
  | [] => []
  | p :: q => p.startAt ack :: q

/-- What the walk does to the data packets `data`: those in `gone` are freed, the first of those in `kept` is cut. -/
structure CutAt (ack : UInt32) (b : ℕ) (data gone kept : List DtpPkt) : Prop where
  split : data = gone ++ kept
  gone_le : ∀ p ∈ gone, p.hi ≤ ack.toNat
  kept_gt : ∀ p ∈ kept, ack.toNat < p.hi
  tiles : Tiles ((trimTo ack kept).map DtpPkt.ival) ack.toNat b
  ends : (trimTo ack kept).map DtpPkt.hi = kept.map DtpPkt.hi

section Cut
variable {ack : UInt32} {a b : ℕ} {data fin : List DtpPkt}

/-- A queue that starts at the ACK number. -/
theorem cutAt_start (hd : ∀ p ∈ data, p.IsData) (ht : Tiles (data.map DtpPkt.ival) ack.toNat b) :
    CutAt ack b data [] data ∧ trimTo ack data = data := by
  have hsame : trimTo ack data = data := by
    cases data with
    | nil => rfl
    | cons p q => rw [trimTo, (hd p (by simp)).startAt_self (UInt32.toNat_inj.mp ht.1)]
  refine ⟨⟨rfl, by simp, fun p hp => ?_, hsame.symm ▸ ht, by rw [hsame]⟩, hsame⟩
  have hlo : ack.toNat ≤ p.seqNum.toNat := (ht.mem_bounds _ (List.mem_map_of_mem hp)).1
  have hpos := (hd p hp).nonempty
  rw [DtpPkt.hi]
  omega

/-- The walk of `RemovePacket` over a queue that tiles `[a, b)`, up to a number in it. -/
theorem cutQueue_cutAt (ht : Tiles (data.map DtpPkt.ival) a b) (hd : ∀ p ∈ data, p.IsData)
    (hfin : fin = [] ∨ ∃ f, fin = [f] ∧ f.IsFIN b) (hb : b < 4294967296) (ha : a ≤ ack.toNat) (hle : ack.toNat ≤ b) :
    ∃ gone kept, CutAt ack b data gone kept ∧
      cutQueue ack (data ++ fin) = ⟨trimTo ack kept ++ fin, (ack.toNat : ℤ) - a, !gone.isEmpty⟩ := by
  induction data generalizing a with
  | nil =>
    obtain rfl : a = b := ht
    have hack : ack.toNat = a := le_antisymm hle ha
    refine ⟨[], [], (cutAt_start (by simp) (show Tiles (List.map DtpPkt.ival []) ack.toNat a from hack)).1, ?_⟩
    obtain rfl | ⟨f, rfl, hf⟩ := hfin
    · simp [cutQueue, trimTo, hack]
    · simp [cutQueue, trimTo, hf.stop_eq hack, hf.fin, hack]
  | cons p q ih =>
    obtain ⟨hlo, -, hq⟩ := ht
    have hp := hd p (by simp)
    have hd' : ∀ p ∈ q, p.IsData := fun x hx => hd x (List.mem_cons_of_mem _ hx)
    have hpb : p.hi ≤ b := hq.le
    have hstop : p.stop.toNat = p.hi := DtpPkt.toNat_stop hp.nonempty.le (by omega)
    have hpay : (p.payloadLen : ℤ) = p.hi - a := by
      have hpos := hp.nonempty
      rw [DtpPkt.hi, ← hlo]
      change _ = ((p.seqNum.toNat + p.payloadLen.toNat : ℕ) : ℤ) - p.seqNum.toNat
      omega
    obtain hlt | heq | hgt := lt_trichotomy p.hi ack.toNat
    · -- freed, and the walk goes on
      obtain ⟨gone, kept, hcut, hwalk⟩ := ih hq hd' hlt.le
      have hbelow : p.stop < ack := by rwa [UInt32.lt_iff_toNat_lt, hstop]
      refine ⟨p :: gone, kept, { hcut with split := ?_, gone_le := ?_ }, ?_⟩
      · rw [hcut.split, List.cons_append]
      · simpa using ⟨hlt.le, hcut.gone_le⟩
      · simp only [List.cons_append, cutQueue, hbelow, if_true, hwalk, hpay]
        congr 1
        change ((p.hi : ℕ) : ℤ) - a + (_ - ((p.hi : ℕ) : ℤ)) = _
        ring
    · -- freed, and the walk ends
      have hstart : Tiles (q.map DtpPkt.ival) ack.toNat b := heq ▸ hq
      obtain ⟨hcut, hsame⟩ := cutAt_start hd' hstart
      have hend : p.stop = ack := UInt32.toNat_inj.mp (hstop.trans heq)
      refine ⟨[p], q, { hcut with split := rfl, gone_le := by simpa using heq.le }, ?_⟩
      simp [cutQueue, hend, hp.fin, hsame, hpay, heq]
    · -- cut, and the walk ends
      have hlo' : p.seqNum.toNat ≤ ack.toNat := hlo.trans_le ha
      have hival := DtpPkt.ival_startAt hlo' hgt
      obtain ⟨htrim, hmove⟩ := hp.trim_eq hlo' hgt
      have hnot : ¬p.stop < ack := by
        rw [UInt32.lt_iff_toNat_lt]
        omega
      have hne : p.stop ≠ ack := by
        rw [ne_eq, ← UInt32.toNat_inj]
        omega
      refine ⟨[], p :: q, ⟨rfl, by simp, ?_, ?_, ?_⟩, ?_⟩
      · intro x hx
        obtain rfl | hx := List.mem_cons.mp hx
        · exact hgt
        · have hx' : p.hi ≤ x.ival.lo ∧ x.ival.lo ≤ x.ival.hi ∧ _ := hq.mem_bounds _ (List.mem_map_of_mem hx)
          exact hgt.trans_le (hx'.1.trans hx'.2.1)
      · rw [trimTo, List.map_cons, hival]
        exact ⟨rfl, hgt.le, hq⟩
      · rw [trimTo, List.map_cons, List.map_cons]
        congr 1
        exact congrArg Ival.hi hival
      · have hlo : p.seqNum.toNat = a := hlo
        simp only [List.cons_append, cutQueue, hnot, hne, if_false, htrim]
        rw [hmove, hlo]
        rfl

/-- `RemovePacket` cuts the queue at the ACK number: the bytes up to it are no longer in flight, and the congestion
is over if a packet was freed. -/
theorem removePacket_cuts {c : DtpContext} (hq : c.packetQ = data ++ fin) (ht : Tiles (data.map DtpPkt.ival) a b)
    (hd : ∀ p ∈ data, p.IsData) (hfin : fin = [] ∨ ∃ f, fin = [f] ∧ f.IsFIN b) (hb : b < 4294967296)
    (ha : a ≤ ack.toNat) (hle : ack.toNat ≤ b) :
    ∃ gone kept, CutAt ack b data gone kept ∧ (c.removePacket ack).packetQ = trimTo ack kept ++ fin ∧
      (c.removePacket ack).segSent = c.segSent - ((ack.toNat : ℤ) - a) ∧
      ((c.removePacket ack).isCongested = false ↔ gone ≠ [] ∨ c.isCongested = false) := by
  obtain ⟨gone, kept, hcut, hwalk⟩ := cutQueue_cutAt ht hd hfin hb ha hle
  rw [← hq] at hwalk
  refine ⟨gone, kept, hcut, ?_, ?_, ?_⟩
  · rw [DtpContext.packetQ_removePacket, hwalk]
  · rw [DtpContext.segSent_removePacket, hwalk]
  · rw [DtpContext.isCongested_removePacket, hwalk]
    cases gone <;> simp

end Cut

/-- A packet without options. -/
def samplePkt (fin : Bool) (seq : UInt32) (len : ℤ) : DtpPkt where
  seqNum := seq
  len := 20 + len
  headerLen := 20
  header := dtpGenerateHeader seq 0 7 { fin := fin } 0
  isRetrans := false

/-- Two packets of four bytes and the FIN, all in flight. -/
def sampleQueued : DtpContext where
  packetQ := [samplePkt false 10 4, samplePkt false 14 4] ++ [samplePkt true 18 0]
  segSent := 8
  isCongested := true

/-- An ACK number in the second packet. -/
theorem removePacket_cuts_sample : ∃ gone kept, CutAt 15 18 [samplePkt false 10 4, samplePkt false 14 4] gone kept ∧
    (sampleQueued.removePacket 15).packetQ = trimTo 15 kept ++ [samplePkt true 18 0] ∧
    (sampleQueued.removePacket 15).segSent = 8 - (15 - 10) ∧
    ((sampleQueued.removePacket 15).isCongested = false ↔ gone ≠ [] ∨ true = false) := by
  refine removePacket_cuts rfl ⟨rfl, by decide, rfl, by decide, rfl⟩ ?_ (Or.inr ⟨_, rfl, rfl, rfl, rfl⟩) (by decide)
    (by decide) (by decide)
  simp only [List.forall_mem_cons]
  exact ⟨⟨by decide, by decide, rfl, rfl⟩, ⟨by decide, by decide, rfl, rfl⟩, by simp⟩

end Cedos.Dtp
