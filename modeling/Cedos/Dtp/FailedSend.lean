import Cedos.Lib.Tiling
import Cedos.Dtp.SendProgress

/-!
# A send that fails

When the network is unreachable, `DTPSendPacket` returns -1 and `DTPWriteAvail` returns from inside its
loop. By then the packet is in the queue, but `tc_lastByteSent` and `tc_segSent` are as before. The packet
is not taken out again, so it stays beyond `tc_lastByteSent`, and the next call cuts the same bytes into a
packet once more.

`Tiled` is the invariant of the send side, with offsets counted from `tc_lastByteAcked` so that
sequence numbers may wrap around.
-/

namespace Cedos.Dtp

open DtpContext

/-! ## The invariant -/

/-- The sequence numbers a queued packet takes: its bytes, and one for a FIN. -/
def DtpPkt.span (p : DtpPkt) : ℕ := p.payloadLen.toNat + p.header.hdr.fin.toNat

/-- Where it lies, from `tc_lastByteAcked` on. -/
def DtpContext.extent (c : DtpContext) (p : DtpPkt) : Ival ℕ :=
  ⟨(p.seqNum - c.lastByteAcked).toNat, (p.seqNum - c.lastByteAcked).toNat + p.span⟩

/-- The queue tiles the stretch from `tc_lastByteAcked` to `tc_lastByteSent`, and `tc_segSent` is its payload.
There is at most one FIN in it, which has been sent. -/
structure Tiled (c : DtpContext) : Prop where
  payload : ∀ p ∈ c.packetQ, 0 ≤ p.payloadLen
  tiles : Tiles (c.packetQ.map c.extent) 0 (c.lastByteSent - c.lastByteAcked).toNat
  count : c.segSent = queueLen c.packetQ
  fin : c.packetQ.countP (·.header.hdr.fin) ≤ c.isFINSent.toNat

/-- What the fields hold by their types: the window and the key length are `int`s, the host ID has its size,
and a key has been generated for the SYN. The bound on `tc_segSent` is twice that of an `int`. -/
structure Sized (c : DtpContext) : Prop where
  cwnd : c.cwnd < 2147483648
  segSent : c.segSent ≤ 4294967293
  key : c.state = .synSent → 0 < c.keyLen ∧ c.keyLen < 2147483648
  localID : c.localID.length = sha1DigestLength

/-- No two packets of the queue stand for the same bytes. -/
def Spread (c : DtpContext) : Prop := (c.packetQ.map c.extent).Pairwise fun x y => x.hi ≤ y.lo

/-- The sender is consistent, and no later call queues bytes a second time. -/
structure Consistent (c : DtpContext) : Prop where
  tiled : Tiled c
  once : ∀ net, Spread (c.dtpWriteAvailOn net)

section Tiled
variable {c c' : DtpContext} {p : DtpPkt} {q : List DtpPkt}

theorem length_of_tiles {a b : ℕ} (h : Tiles (q.map c.extent) a b) (hp : ∀ p ∈ q, 0 ≤ p.payloadLen) :
    (b : ℤ) = a + queueLen q + q.countP (·.header.hdr.fin) := by
  induction q generalizing a with
  | nil =>
    obtain rfl : a = b := h
    simp
  | cons p q ih =>
    obtain ⟨hlo, -, htl⟩ := h
    have hpay := hp p List.mem_cons_self
    have hrest := ih htl fun x hx => hp x (List.mem_cons_of_mem _ hx)
    have hhi : (c.extent p).hi = a + p.span := by rw [← hlo]; rfl
    rw [hhi] at hrest
    rw [queueLen_cons, List.countP_cons]
    cases hf : p.header.hdr.fin
    · simp only [DtpPkt.span, hf, Bool.toNat_false] at hrest
      simp only [Bool.false_eq_true, if_false]
      omega
    · simp only [DtpPkt.span, hf, Bool.toNat_true] at hrest
      simp only [if_true]
      omega

namespace Tiled

theorem flight (h : Tiled c) : ((c.lastByteSent - c.lastByteAcked).toNat : ℤ) =
    c.segSent + c.packetQ.countP (·.header.hdr.fin) := by
  rw [length_of_tiles h.tiles h.payload, h.count]
  simp

theorem flight_le (h : Tiled c) : ((c.lastByteSent - c.lastByteAcked).toNat : ℤ) ≤ c.segSent + 1 := by
  have hfin := h.fin
  have hone := Bool.toNat_le c.isFINSent
  rw [h.flight]
  omega

theorem spread (h : Tiled c) : Spread c := h.tiles.pairwise

/-- A packet that starts where the others end does not overlap with them, -/
theorem spread_concat (h : Tiled c) (hq : c'.packetQ = c.packetQ ++ [p]) (ha : c'.lastByteAcked = c.lastByteAcked)
    (hp : p.seqNum = c.lastByteSent) : Spread c' := by
  have hextent : c'.extent = c.extent := by
    funext p
    simp only [extent, ha]
  have htile : Tiles ((c.packetQ ++ [p]).map c.extent) 0 (c.extent p).hi := by
    rw [List.map_append]
    refine h.tiles.concat ?_ (Nat.le_add_right _ _)
    rw [extent, hp]
  rw [Spread, hq, hextent]
  exact htile.pairwise

/-- and tiles on if it is counted. -/
theorem concat (h : Tiled c) (hq : c'.packetQ = c.packetQ ++ [p]) (ha : c'.lastByteAcked = c.lastByteAcked)
    (hp : p.seqNum = c.lastByteSent) (hpay : 0 ≤ p.payloadLen)
    (hroom : (c.lastByteSent - c.lastByteAcked).toNat + p.span < 4294967296)
    (hsent : c'.lastByteSent = c.lastByteSent + UInt32.ofNat p.span) (hcount : c'.segSent = c.segSent + p.payloadLen)
    (hfin : (c.packetQ ++ [p]).countP (·.header.hdr.fin) ≤ c'.isFINSent.toNat) : Tiled c' := by
  have hextent : c'.extent = c.extent := by
    funext p
    simp only [extent, ha]
  have hend : (c'.lastByteSent - c'.lastByteAcked).toNat = (c.lastByteSent - c.lastByteAcked).toNat + p.span := by
    have hlt := toNat_ofNat_word (n := p.span) (by omega)
    have hstep : c'.lastByteSent - c'.lastByteAcked = (c.lastByteSent - c.lastByteAcked) + UInt32.ofNat p.span := by
      rw [hsent, ha, UInt32.sub_eq_add_neg, UInt32.sub_eq_add_neg, UInt32.add_assoc, UInt32.add_assoc,
        UInt32.add_comm (UInt32.ofNat _)]
    rw [hstep, toNat_add_word (by omega), hlt]
  constructor
  · rw [hq]
    intro x hx
    cases List.mem_append.mp hx with
    | inl hmem => exact h.payload x hmem
    | inr hmem => exact List.mem_singleton.mp hmem ▸ hpay
  · rw [hq, hextent, hend, List.map_append]
    have htile := h.tiles.concat (x := c.extent p) (by rw [extent, hp]) (Nat.le_add_right _ _)
    rw [extent, hp] at htile
    rw [List.map_singleton, extent, hp]
    exact htile
  · rw [hcount, hq, h.count]
    simp
  · rw [hq]
    exact hfin

end Tiled
end Tiled

/-! ## One packet -/

section Packet
variable {c : DtpContext} {f : Flags} {l : ℤ}

/-- What a round sends fits the sequence numbers. -/
theorem writeLen_room (hs : Sized c) (hl : 0 < l) (hle : l ≤ c.cwnd - c.segSent) : 0 < c.writeLen f l ∧
    c.segSent + c.writeLen f l ≤ 4294967293 ∧ (c.state ≠ .synSent → c.writeLen f l ≤ l) := by
  have hcwnd := hs.cwnd
  by_cases hsyn : c.state = .synSent
  · obtain ⟨h0, h1⟩ := hs.key hsyn
    rw [writeLen, if_pos hsyn]
    exact ⟨h0, by omega, fun hne => absurd hsyn hne⟩
  · obtain ⟨h0, h1⟩ := writeLen_bounds (f := f) hs.localID hsyn hl
    exact ⟨h0, by omega, fun _ => h1⟩

theorem tiled_writeOne (h : Tiled c) (hs : Sized c) (hf : f.fin = false) (hl : 0 < l)
    (hle : l ≤ c.cwnd - c.segSent) : Tiled (c.writeOne f l) ∧ Sized (c.writeOne f l) := by
  obtain ⟨hpos, hroom, -⟩ := writeLen_room (f := f) hs hl hle
  have hpay : (c.writePkt f l).payloadLen = c.writeLen f l := payloadLen_writePkt
  have hfin := (fin_writePkt (c := c) (l := l)).trans hf
  have hspan : (c.writePkt f l).span = (c.writeLen f l).toNat := by
    rw [DtpPkt.span, hpay, hfin]
    rfl
  have hflight := h.flight_le
  constructor
  · refine h.concat (p := c.writePkt f l) rfl rfl rfl (by omega) (by omega) ?_ ?_ ?_
    · have hword : u32 (c.writeLen f l) = UInt32.ofNat (c.writeLen f l).toNat := by
        rw [← u32_natCast, Int.toNat_of_nonneg hpos.le]
      rw [hspan, ← hword]
      rfl
    · rw [hpay]
      rfl
    · rw [List.countP_append, List.countP_singleton, hfin, if_neg Bool.false_ne_true, Nat.add_zero]
      exact h.fin
  · exact ⟨hs.cwnd, hroom, hs.key, hs.localID⟩

theorem tiled_dtpSendFINPacket (h : Tiled c) (hs : Sized c) (hf : c.isFINSent = false) : Tiled c.dtpSendFINPacket := by
  have hflight := h.flight_le
  have hseg := hs.segSent
  have hpay : c.finPkt.payloadLen = 0 := by simp [finPkt, DtpPkt.payloadLen]
  have hfin : c.finPkt.header.hdr.fin = true := rfl
  have hspan : c.finPkt.span = 1 := by
    rw [DtpPkt.span, hpay, hfin]
    rfl
  have hnone := h.fin
  refine h.concat (p := c.finPkt) rfl rfl rfl hpay.ge (by omega) ?_ ?_ ?_
  · rw [hspan]
    rfl
  · rw [hpay]
    exact (add_zero _).symm
  · rw [hf, Bool.toNat_false] at hnone
    rw [List.countP_append, List.countP_singleton, hfin, if_pos rfl]
    change _ ≤ true.toNat
    rw [Bool.toNat_true]
    omega

end Packet

/-! ## The loop -/

namespace DtpContext

/-- The packets that the loop sends if none is refused. -/
def loopRounds : ℕ → Flags → ℤ → DtpContext → ℕ
  | 0, _, _, _ => 0
  | fuel + 1, flags, len, c =>
    if !c.writeGuard len then 0
    else if c.state = .synSent then 1
    else loopRounds fuel (laterFlags flags) (len - c.writeLen flags len) (c.writeOne flags len) + 1

/-- The packets that a call of `DTPWriteAvail` has to send, the FIN apart. -/
def writeRounds (c : DtpContext) : ℕ :=
  if !c.isNetConnected || c.isCongested then 0
  else if c.wantsSYN && c.isSYNSent then 0
  else loopRounds c.sendLen.toNat c.writeFlags c.sendLen c.beginWrite

end DtpContext

section Loop
variable {c : DtpContext} {f : Flags} {l : ℤ} (net : ℕ → Bool)

/-- The loop runs to its end if no packet is refused. -/
theorem snd_writeLoop (fuel k : ℕ) : (writeLoop net fuel k f l c).2 = true ↔
    ∀ j < loopRounds fuel f l c, net (k + j) = true := by
  induction fuel generalizing k f l c with
  | zero => simp [writeLoop, loopRounds]
  | succ fuel ih =>
    simp only [writeLoop, loopRounds]
    by_cases hg : c.writeGuard l = true
    · simp only [hg, Bool.not_true, Bool.false_eq_true, if_false]
      cases hk : net k with
      | false =>
        simp only [Bool.not_false, if_true, Bool.false_eq_true, false_iff, not_forall]
        refine ⟨0, ?_, by simp [hk]⟩
        split_ifs <;> omega
      | true =>
        simp only [Bool.not_true, Bool.false_eq_true, if_false]
        split_ifs with hs
        · simp [hk]
        · rw [ih]
          constructor
          · intro h j hj
            cases j with
            | zero => exact hk
            | succ j =>
              have hnext := h j (by omega)
              rwa [Nat.add_right_comm] at hnext
          · intro h j hj
            have hnext := h (j + 1) (by omega)
            rwa [← Nat.add_assoc, Nat.add_right_comm] at hnext
    · simp [hg]

/-- A loop that runs to its end keeps the invariant; one that does not leaves a packet that is not counted. -/
structure Outcome (r : DtpContext × Bool) : Prop where
  spread : Spread r.1
  done : r.2 = true → Tiled r.1 ∧ Sized r.1
  stopped : r.2 = false → r.1.segSent ≠ queueLen r.1.packetQ

theorem Outcome.whole (h : Tiled c) (hs : Sized c) : Outcome (c, true) :=
  ⟨h.spread, fun _ => ⟨h, hs⟩, fun hx => by cases hx⟩

theorem Outcome.refused (h : Tiled c) (hpos : 0 < c.writeLen f l) : Outcome (c.writeQueue f l, false) where
  spread := h.spread_concat (p := c.writePkt f l) rfl rfl rfl
  done hx := by cases hx
  stopped _ := by
    change c.segSent ≠ queueLen (c.packetQ ++ [c.writePkt f l])
    rw [queueLen_append, h.count]
    simp only [queueLen_cons, queueLen_nil, payloadLen_writePkt]
    omega

theorem outcome_writeLoop (h : Tiled c) (hs : Sized c) (hf : f.fin = false) (hle : l ≤ c.cwnd - c.segSent)
    (fuel k : ℕ) : Outcome (writeLoop net fuel k f l c) := by
  induction fuel generalizing k f l c with
  | zero => exact .whole h hs
  | succ fuel ih =>
    rw [writeLoop]
    split_ifs with hg hk hsyn
    · exact .whole h hs
    all_goals
      have hl := pos_of_writeGuard (c := c) (l := l) (by simpa using hg)
    · exact .refused h (writeLen_room hs hl hle).1
    · obtain ⟨ht, hs'⟩ := tiled_writeOne h hs hf hl hle
      exact .whole ht hs'
    · obtain ⟨ht, hs'⟩ := tiled_writeOne h hs hf hl hle
      have hrest : l - c.writeLen f l ≤ (c.writeOne f l).cwnd - (c.writeOne f l).segSent := by
        change l - c.writeLen f l ≤ c.cwnd - (c.segSent + c.writeLen f l)
        omega
      have hlater : (laterFlags f).fin = false := hf
      exact ih ht hs' hlater hrest (k + 1)

end Loop

/-! ## `DTPWriteAvail` -/

section WriteAvail
variable {c : DtpContext} (net : ℕ → Bool)

theorem writeFlush_cases (h : Tiled c) (hs : Sized c) : Spread (c.writeFlush net).1 ∧
    ((∀ k < c.writeRounds, net k = true) → Tiled (c.writeFlush net).1 ∧ Sized (c.writeFlush net).1) ∧
    (¬(∀ k < c.writeRounds, net k = true) → (c.writeFlush net).2 = false ∧
      (c.writeFlush net).1.segSent ≠ queueLen (c.writeFlush net).1.packetQ) := by
  have htiled : Tiled c.beginWrite := ⟨h.payload, h.tiles, h.count, h.fin⟩
  have hsized : Sized c.beginWrite := ⟨hs.cwnd, hs.segSent, hs.key, hs.localID⟩
  have hlen : c.sendLen ≤ c.beginWrite.cwnd - c.beginWrite.segSent := min_le_right _ _
  have hout := outcome_writeLoop (f := c.writeFlags) net htiled hsized rfl hlen c.sendLen.toNat 0
  have hflag := snd_writeLoop (c := c.beginWrite) (f := c.writeFlags) (l := c.sendLen) net
    c.sendLen.toNat 0
  simp only [Nat.zero_add] at hflag
  have hidle : ∀ k < 0, net k = true := fun k hk => absurd hk (Nat.not_lt_zero k)
  rw [writeFlush, writeRounds]
  split_ifs
  · exact ⟨h.spread, fun _ => ⟨h, hs⟩, fun hn => absurd hidle hn⟩
  · exact ⟨h.spread, fun _ => ⟨h, hs⟩, fun hn => absurd hidle hn⟩
  · refine ⟨hout.spread, fun hall => hout.done (hflag.mpr hall), fun hn => ?_⟩
    have hfalse := Bool.eq_false_iff.mpr fun ht => hn (hflag.mp ht)
    exact ⟨hfalse, hout.stopped hfalse⟩

/-- No call queues bytes that are in the queue. -/
theorem spread_dtpWriteAvailOn (h : Tiled c) (hs : Sized c) : Spread (c.dtpWriteAvailOn net) := by
  obtain ⟨hspread, hend, hstop⟩ := writeFlush_cases net h hs
  simp only [dtpWriteAvailOn]
  split_ifs with hfin
  · rw [Bool.and_eq_true] at hfin
    by_cases hall : ∀ k < c.writeRounds, net k = true
    · exact (hend hall).1.spread_concat (p := (c.writeFlush net).1.finPkt) rfl rfl rfl
    · exact absurd hfin.1 (by simp [(hstop hall).1])
  · exact hspread

theorem tiled_dtpWriteAvailOn (h : Tiled c) (hs : Sized c) (hall : ∀ k < c.writeRounds, net k = true) :
    Tiled (c.dtpWriteAvailOn net) ∧ Sized (c.dtpWriteAvailOn net) := by
  obtain ⟨-, hend, -⟩ := writeFlush_cases net h hs
  obtain ⟨ht, hs'⟩ := hend hall
  simp only [dtpWriteAvailOn]
  split_ifs with hfin
  · have hunsent : (c.writeFlush net).1.isFINSent = false := by
      simp only [wantsFIN, Bool.and_eq_true, Bool.not_eq_true'] at hfin
      exact hfin.2.1.2
    refine ⟨tiled_dtpSendFINPacket ht hs' hunsent, hs'.cwnd, hs'.segSent, ?_, hs'.localID⟩
    intro hsyn
    exact absurd hsyn (by cases hst : (c.writeFlush net).1.state <;> simp [dtpSendFINPacket, finState, hst])
  · exact ⟨ht, hs'⟩

/-- A call of `DTPWriteAvail` leaves the sender consistent if and only if none of the packets it has to send is
refused. -/
theorem consistent_iff (h : Tiled c) (hs : Sized c) :
    Consistent (c.dtpWriteAvailOn net) ↔ ∀ k < c.writeRounds, net k = true := by
  constructor
  · intro hc
    by_contra hn
    obtain ⟨-, -, hstop⟩ := writeFlush_cases net h hs
    obtain ⟨hflag, hcount⟩ := hstop hn
    have heq : c.dtpWriteAvailOn net = (c.writeFlush net).1 := by simp [dtpWriteAvailOn, hflag]
    rw [← heq] at hcount
    exact hcount hc.tiled.count
  · intro hall
    obtain ⟨ht, hs'⟩ := tiled_dtpWriteAvailOn net h hs hall
    exact ⟨ht, fun net' => spread_dtpWriteAvailOn net' ht hs'⟩

/-- An open connection with ten bytes to send. -/
def tenBytes : DtpContext :=
  { isNetConnected := true, state := .established, lastByteWritten := 10, writeBufLen := 32 * 1024
    rcvWindow := 32 * 1024, cwnd := 1452 }

theorem tiled_tenBytes : Tiled tenBytes := by
  constructor
  · intro p hp
    cases hp
  · rfl
  · rfl
  · rfl

theorem sized_tenBytes : Sized tenBytes := by
  constructor <;> decide

theorem consistent_iff_tenBytes : Consistent (tenBytes.dtpWriteAvailOn fun k => k == 0) := by
  have hrounds : tenBytes.writeRounds = 1 := by decide +kernel
  refine (consistent_iff _ tiled_tenBytes sized_tenBytes).mpr fun k hk => ?_
  rw [hrounds, Nat.lt_one_iff] at hk
  simp [hk]

/-- The network is unreachable for the only packet. It stays in the queue, beyond `tc_lastByteSent`, and the next
call puts the same ten bytes behind it. -/
theorem refused_packet_queued_twice : Tiled tenBytes ∧ Sized tenBytes ∧
    ¬Consistent (tenBytes.dtpWriteAvailOn fun _ => false) ∧ (tenBytes.dtpWriteAvailOn fun _ => false).lastByteSent = 0 ∧
    ((tenBytes.dtpWriteAvailOn fun _ => false).packetQ.map fun p => (p.seqNum, p.payloadLen)) = [(0, 10)] ∧
    ((tenBytes.dtpWriteAvailOn fun _ => false).dtpWriteAvail.packetQ.map fun p => (p.seqNum, p.payloadLen)) =
    [(0, 10), (0, 10)] := by
  refine ⟨tiled_tenBytes, sized_tenBytes, ?_, ?_, ?_, ?_⟩
  · intro h
    have hcount := h.tiled.count
    revert hcount
    decide +kernel
  · decide +kernel
  · decide +kernel
  · decide +kernel

end WriteAvail

end Cedos.Dtp
