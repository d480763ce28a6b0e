import Cedos.Dtp.AckFrames
import Cedos.Dtp.OwnFin

/-!
# What an ACK does

`HandleACKPacket` returns early in three places: for an old number, for a number that comes
with a window that was zero before, and for the fourth duplicate. The second return is taken
whether the number is new or not, so a new ACK that reopens the window is lost.

It has no upper bound for the number. A number above everything that was ever sent is recorded
like any other: `tc_lastByteSent` follows it past `tc_lastByteWritten`, and the unsigned
difference of the two lets `DTPWriteAvail` send what lies in the buffer.

And it takes an old number for a wrap-around of the number space when `tc_lastByteAcked` is one
of the last `DTP_MTU` numbers. It then counts `tc_nextByteExpected` up, which belongs to the
other direction.
-/

namespace Cedos.Dtp

open DtpContext

/-- All sequence numbers of the packet lie below `a`; a FIN has one after its last byte. -/
def DtpPkt.Below (p : DtpPkt) (a : UInt32) : Prop :=
  p.stop < a ∨ (p.stop = a ∧ p.header.hdr.fin = false)

instance (p : DtpPkt) (a : UInt32) : Decidable (p.Below a) := inferInstanceAs (Decidable (_ ∨ _))

/-- The packets come in the order of their sequence numbers, a FIN after the data before it. -/
def EndsInOrder (q : List DtpPkt) : Prop :=
  q.Pairwise fun p p' => p.stop < p'.stop ∨ (p.stop = p'.stop ∧ p'.header.hdr.fin = true)

instance (q : List DtpPkt) : Decidable (EndsInOrder q) := inferInstanceAs (Decidable (q.Pairwise _))

/-- What may be left of a packet: all of it, or what comes after `a`. -/
def DtpPkt.LeftBy (a : UInt32) (p p' : DtpPkt) : Prop := p' = p ∨ p' = p.trim (i32 (a - p.seqNum))

/-- The ACK number is recorded: of the queue the packets that do not lie below it are left, followed
by those that were sent now, and the bytes not yet acknowledged are at the front of the write
buffer. -/
structure Applied (c : DtpContext) (a : UInt32) (c' : DtpContext) : Prop where
  acked : c'.lastByteAcked = a
  queue : ∃ kept sent ds, c'.packetQ = kept ++ sent ∧
    List.Forall₂ (DtpPkt.LeftBy a) (c.packetQ.filter fun p => ¬p.Below a) kept ∧
    c'.wire = c.wire ++ ds ∧ sent.map DtpPkt.seqNum = ds.map fun x => x.2.hdr.seq
  buffer : ∀ i : ℕ, (i : ℤ) < i32 (c.lastByteWritten - a) → c'.writeBuf i = c.writeBuf (i + (a - c.lastByteAcked).toNat)

/-- The send offsets, the write buffer, the queue and the state are as they were. -/
structure Ignored (c c' : DtpContext) : Prop where
  acked : c'.lastByteAcked = c.lastByteAcked
  sent : c'.lastByteSent = c.lastByteSent
  written : c'.lastByteWritten = c.lastByteWritten
  writeBuf : c'.writeBuf = c.writeBuf
  packetQ : c'.packetQ = c.packetQ
  state : c'.state = c.state

/-- The ACK comes with a window, and the last one was zero. -/
def DtpContext.reopens (c : DtpContext) (window : UInt16) : Bool :=
  c.isHerWindowZero && decide (0 < scaledWindow window c.sendWindowScale)

/-- `DTPWriteAvail` finds nothing to send. -/
def DtpContext.idles (x : DtpContext) : Bool :=
  !x.mayWrite || (!x.writeGuard x.sendLen && !x.wantsFIN)

/-! ## The queue -/

section Queue
variable {a : UInt32} {p : DtpPkt} {q : List DtpPkt}

/-- Behind a packet that reaches the number no packet lies below it. -/
theorem not_below_of_endsInOrder (h : EndsInOrder (p :: q)) (hp : a ≤ p.stop) {p' : DtpPkt}
    (hp' : p' ∈ q) : ¬p'.Below a := by
  have hafter := List.rel_of_pairwise_cons h hp'
  simp only [DtpPkt.Below, UInt32.lt_iff_toNat_lt, UInt32.le_iff_toNat_le, ← UInt32.toNat_inj] at *
  rintro (hlt | ⟨heq, hplain⟩)
  · omega
  · rcases hafter with hafter | ⟨hafter, hfin⟩
    · omega
    · simp [hplain] at hfin

theorem forall₂_leftBy_refl (q : List DtpPkt) : List.Forall₂ (DtpPkt.LeftBy a) q q :=
  List.forall₂_same.mpr fun _ _ => .inl rfl

/-- In a queue in order, `RemovePacket` frees the packets below the ACK number. -/
theorem rest_cutQueue (h : EndsInOrder q) :
    List.Forall₂ (DtpPkt.LeftBy a) (q.filter fun p => ¬p.Below a) (cutQueue a q).rest := by
  induction q with
  | nil => simp [cutQueue]
  | cons p q ih =>
    simp only [cutQueue]
    by_cases hlt : p.stop < a
    · have hbelow : p.Below a := .inl hlt
      rw [if_pos hlt, List.filter_cons_of_neg (by simpa using hbelow)]
      exact ih h.of_cons
    · -- the walk stops here, and what follows stays
      have hrest : q.filter (fun p => ¬p.Below a) = q := by
        simpa using fun _ => not_below_of_endsInOrder h (UInt32.not_lt.mp hlt)
      by_cases heq : p.stop = a
      · by_cases hfin : p.header.hdr.fin = true
        · have hp : ¬p.Below a := by simp [DtpPkt.Below, hlt, hfin]
          rw [if_neg hlt, if_pos heq, if_pos hfin, List.filter_cons_of_pos (by simpa using hp), hrest]
          exact forall₂_leftBy_refl _
        · have hbelow : p.Below a := .inr ⟨heq, by simpa using hfin⟩
          rw [if_neg hlt, if_pos heq, if_neg hfin, List.filter_cons_of_neg (by simpa using hbelow), hrest]
          exact forall₂_leftBy_refl _
      · have hp : ¬p.Below a := by simp [DtpPkt.Below, hlt, heq]
        rw [if_neg hlt, if_neg heq, List.filter_cons_of_pos (by simpa using hp), hrest]
        exact .cons (.inr rfl) (forall₂_leftBy_refl _)

end Queue

/-! ## `DTPWriteAvail` -/

/-- What sending adds: packets to the queue, and a datagram for each of them. -/
structure SendsOn (c c' : DtpContext) : Prop where
  acked : c'.lastByteAcked = c.lastByteAcked
  writeBuf : c'.writeBuf = c.writeBuf
  queue : ∃ sent ds, c'.packetQ = c.packetQ ++ sent ∧ c'.wire = c.wire ++ ds ∧
    sent.map DtpPkt.seqNum = ds.map fun x => x.2.hdr.seq

namespace SendsOn
variable {c c' : DtpContext}

theorem packet (h : SendsOn c c') {c'' : DtpContext} {p : DtpPkt} {x : SockAddr × Datagram}
    (hacked : c''.lastByteAcked = c'.lastByteAcked) (hbuf : c''.writeBuf = c'.writeBuf)
    (hq : c''.packetQ = c'.packetQ ++ [p]) (hw : c''.wire = c'.wire ++ [x])
    (hseq : p.seqNum = x.2.hdr.seq) : SendsOn c c'' := by
  rcases h.queue with ⟨sent, ds, hsent, hds, hmap⟩
  refine ⟨hacked.trans h.acked, hbuf.trans h.writeBuf, sent ++ [p], ds ++ [x], ?_, ?_, ?_⟩
  · rw [hq, hsent, List.append_assoc]
  · rw [hw, hds, List.append_assoc]
  · simp [hmap, hseq]

theorem dtpWriteAvail (c : DtpContext) : SendsOn c c.dtpWriteAvail := by
  refine dtpWriteAvail_induction (P := SendsOn c) ?_ ?_ ?_ ⟨rfl, rfl, [], [], by simp⟩
  · intro x h
    exact ⟨h.acked, h.writeBuf, h.queue⟩
  · intro x flags len h
    exact h.packet rfl rfl rfl rfl (writeHeader_seq x flags).symm
  · intro x h
    exact h.packet rfl rfl rfl rfl rfl

end SendsOn

section Write
variable {c x : DtpContext} {f : Flags} {l : ℤ}

theorem length_le_writeLoop (fuel k : ℕ) :
    c.packetQ.length ≤ (writeLoop (fun _ => true) fuel k f l c).1.packetQ.length := by
  induction fuel generalizing k f l c with
  | zero => simp [writeLoop]
  | succ fuel ih =>
    have hone : c.packetQ.length ≤ (c.writeOne f l).packetQ.length := by
      simp [writeOne, writeQueue]
    simp only [writeLoop, Bool.not_true, Bool.false_eq_true, if_false]
    split_ifs
    · simp
    · exact hone
    · exact hone.trans (ih _)

theorem writeLoop_of_not_guard (hg : c.writeGuard l = false) (fuel k : ℕ) :
    writeLoop (fun _ => true) fuel k f l c = (c, true) := by
  cases fuel <;> simp [writeLoop, hg]

theorem writeFlush_eq (x : DtpContext) :
    (x.writeFlush fun _ => true) = if x.mayWrite = true then
        writeLoop (fun _ => true) x.sendLen.toNat 0 x.writeFlags x.sendLen x.beginWrite
      else (x, false) := by
  by_cases hstop : (!x.isNetConnected || x.isCongested) = true
  · have hmay : ¬x.mayWrite = true := by
      simp only [Bool.or_eq_true, Bool.not_eq_true'] at hstop
      rcases hstop with hstop | hstop <;> simp [mayWrite, hstop]
    rw [writeFlush, if_pos hstop, if_neg hmay]
  · by_cases hsyn : (x.wantsSYN && x.isSYNSent) = true
    · rw [writeFlush, if_neg hstop, if_pos hsyn, if_neg (by simp [mayWrite, hsyn])]
    · have hmay : x.mayWrite = true := by
        simp only [Bool.or_eq_true, Bool.not_eq_true', not_or, Bool.not_eq_false, Bool.not_eq_true]
          at hstop hsyn
        simp [mayWrite, hstop, hsyn]
      rw [writeFlush, if_neg hstop, if_neg hsyn, if_pos hmay]

theorem ignored_of_idles (h : x.idles = true) : Ignored x x.dtpWriteAvail := by
  have hfin : x.beginWrite.wantsFIN = x.wantsFIN := rfl
  by_cases hmay : x.mayWrite = true
  · have hg : x.beginWrite.writeGuard x.sendLen = false := by
      change x.writeGuard x.sendLen = false
      simp_all [idles]
    have hno : x.wantsFIN = false := by simp_all [idles]
    rw [dtpWriteAvail, dtpWriteAvailOn, writeFlush_eq, if_pos hmay, writeLoop_of_not_guard hg]
    simp only [hfin, hno, Bool.and_false, Bool.false_eq_true, if_false]
    exact ⟨rfl, rfl, rfl, rfl, rfl, rfl⟩
  · rw [dtpWriteAvail, dtpWriteAvailOn, writeFlush_eq, if_neg hmay]
    exact ⟨rfl, rfl, rfl, rfl, rfl, rfl⟩

/-- A call that sends something adds it to the queue. -/
theorem length_lt_of_not_idles (h : x.idles = false) : x.packetQ.length < x.dtpWriteAvail.packetQ.length := by
  simp only [idles, Bool.or_eq_false_iff, Bool.not_eq_false', Bool.and_eq_false_iff] at h
  rcases h with ⟨hmay, hsend⟩
  by_cases hg : x.beginWrite.writeGuard x.sendLen = true
  · -- the first round of the loop
    have hpos := pos_of_writeGuard hg
    have hfuel : x.sendLen.toNat = x.sendLen.toNat - 1 + 1 := by omega
    have hone : x.packetQ.length < (x.beginWrite.writeOne x.writeFlags x.sendLen).packetQ.length := by
      simp [writeOne, writeQueue, beginWrite]
    have hflush : x.packetQ.length < (x.writeFlush fun _ => true).1.packetQ.length := by
      rw [writeFlush_eq, if_pos hmay, hfuel]
      simp only [writeLoop, hg, Bool.not_true, Bool.false_eq_true, if_false]
      split_ifs
      · exact hone
      · exact hone.trans_le (length_le_writeLoop _ _)
    rcases dtpWriteAvail_cases x with heq | ⟨heq, -, -⟩
    · rwa [heq]
    · rw [heq]
      simp only [dtpSendFINPacket, List.length_append]
      omega
  · have hfin : x.beginWrite.wantsFIN = true := hsend.resolve_left hg
    have hflush := writeFlush_eq x
    rw [if_pos hmay, writeLoop_of_not_guard (by simpa using hg)] at hflush
    rw [dtpWriteAvail, dtpWriteAvailOn, hflush]
    simp only [hfin, Bool.and_self, if_true]
    change x.packetQ.length < (x.packetQ ++ [x.beginWrite.finPkt]).length
    simp

/-- `DTPWriteAvail` leaves the sending side alone exactly when it has nothing to send. -/
theorem ignored_dtpWriteAvail_iff : Ignored x x.dtpWriteAvail ↔ x.idles = true := by
  constructor
  · intro h
    by_contra hidle
    have hlt := length_lt_of_not_idles (by simpa using hidle)
    simp [h.packetQ] at hlt
  · exact ignored_of_idles

end Write

/-! ## `HandleACKPacket` -/

section Ack
variable {c : DtpContext} {a : UInt32} {w : UInt16}

theorem reopens_iff : c.reopens w = true ↔
    (c.noteAckWindow w).isHerWindowZero = true ∧ 0 < (c.noteAckWindow w).rcvWindow := by
  simp only [reopens, noteAckWindow, Bool.and_eq_true, Bool.or_eq_true, decide_eq_true_eq, beq_iff_eq]
  constructor
  · rintro ⟨hzero, hpos⟩
    exact ⟨.inl hzero, hpos⟩
  · rintro ⟨hzero | hnone, hpos⟩
    · exact ⟨hzero, hpos⟩
    · simp [hnone] at hpos

/-- A new number that comes with the first window is not looked at any further; any other is
recorded. -/
theorem handleACKPacket_of_new (hnet : c.isNetConnected = true) (hnew : c.lastByteAcked < a) :
    c.handleACKPacket a w = if c.reopens w = true then
        (c.noteAckWindow w).clearHerWindowZero.dtpWriteAvail.dtpWriteBufWakeup
      else ((c.noteAckWindow w).recordACK a).dtpWriteAvail.dtpWriteBufWakeup.finishACK a := by
  have hold : ¬a < c.lastByteAcked := UInt32.not_lt.mpr (UInt32.le_of_lt hnew)
  have hne : ¬a = c.lastByteAcked := fun heq => UInt32.lt_irrefl _ (heq ▸ hnew)
  have hwrap : c.noteWrap a = c := if_neg hold
  have hcount : (c.noteAckWindow w).countDuplicate a = c.noteAckWindow w := if_neg hne
  have hdup : ¬(a = (c.noteAckWindow w).lastByteAcked ∧ (c.noteAckWindow w).numACKRcvd = 4) :=
    fun h => hne h.1
  simp only [handleACKPacket, hnet, hold, hwrap, hcount, if_neg hdup, ← reopens_iff, Bool.not_true,
    Bool.false_eq_true, false_and, if_false]

theorem wire_finishACK (x : DtpContext) : (x.finishACK a).wire = x.wire := by
  simp only [finishACK, enterClosed, dtpCloseContext]
  split_ifs <;> rfl

/-- What `HandleACKPacket` has done when it calls `DTPWriteAvail`. -/
theorem recordACK_noteAckWindow (c : DtpContext) (a : UInt32) (w : UInt16) :
    ((c.noteAckWindow w).recordACK a).toSendSide = ((c.shiftAcked a).removePacket a).toSendSide ∧
      ((c.noteAckWindow w).recordACK a).wire = c.wire := by
  simp only [recordACK, creditACK, establish]
  split_ifs <;> exact ⟨rfl, rfl⟩

/-- The bytes that are not acknowledged move to the front. -/
theorem writeBuf_shiftAcked (hnear : (a - c.lastByteAcked).toNat < 2147483648) {i : ℕ}
    (hi : (i : ℤ) < i32 (c.lastByteWritten - a)) :
    (c.shiftAcked a).writeBuf i = c.writeBuf (i + (a - c.lastByteAcked).toNat) := by
  have hacked : (i32 (a - c.lastByteAcked)).toNat = (a - c.lastByteAcked).toNat := by
    rw [i32_of_lt hnear]
    simp
  simp only [shiftAcked, hacked]
  rw [if_pos (by omega), move, blit_of_mem (by omega) (by omega), Nat.sub_zero, Nat.add_comm]

theorem acked_of_records (hnet : c.isNetConnected = true) (hnew : c.lastByteAcked < a)
    (h : c.reopens w = false) : (c.handleACKPacket a w).lastByteAcked = a := by
  have hside := (recordACK_noteAckWindow c a w).1
  rw [handleACKPacket_of_new hnet hnew, if_neg (by simp [h])]
  generalize (c.noteAckWindow w).recordACK a = y at hside
  calc
    _ = y.dtpWriteAvail.dtpWriteBufWakeup.lastByteAcked :=
      congrArg SendSide.lastByteAcked sendSide_finishACK
    _ = y.lastByteAcked := (SendsOn.dtpWriteAvail y).acked
    _ = a := congrArg SendSide.lastByteAcked hside

/-- A new number that is recorded. -/
theorem applied_of_not_reopens (hnet : c.isNetConnected = true) (hnew : c.lastByteAcked < a)
    (hnear : (a - c.lastByteAcked).toNat < 2147483648) (hq : EndsInOrder c.packetQ)
    (h : c.reopens w = false) : Applied c a (c.handleACKPacket a w) := by
  have hacked := acked_of_records hnet hnew h
  rcases recordACK_noteAckWindow c a w with ⟨hside, hwire⟩
  rw [handleACKPacket_of_new hnet hnew, if_neg (by simp [h])] at hacked ⊢
  generalize (c.noteAckWindow w).recordACK a = y at hside hwire hacked
  have hsends := SendsOn.dtpWriteAvail y
  have hend := sendSide_finishACK (c := y.dtpWriteAvail.dtpWriteBufWakeup) (a := a)
  rcases hsends.queue with ⟨sent, ds, hsent, hds, hseq⟩
  refine ⟨hacked, ⟨(cutQueue a c.packetQ).rest, sent, ds, ?_, rest_cutQueue hq, ?_, hseq⟩, ?_⟩
  · calc
      _ = y.dtpWriteAvail.packetQ := congrArg SendSide.packetQ hend
      _ = y.packetQ ++ sent := hsent
      _ = (cutQueue a c.packetQ).rest ++ sent := by
        rw [congrArg SendSide.packetQ hside, packetQ_removePacket]
        rfl
  · rw [wire_finishACK, ← hwire]
    exact hds
  · intro i hi
    calc
      _ = y.dtpWriteAvail.writeBuf i := congrFun (congrArg SendSide.writeBuf hend) i
      _ = y.writeBuf i := congrFun hsends.writeBuf i
      _ = (c.shiftAcked a).writeBuf i := congrFun (congrArg SendSide.writeBuf hside) i
      _ = _ := writeBuf_shiftAcked hnear hi

theorem acked_of_reopens (hnet : c.isNetConnected = true) (hnew : c.lastByteAcked < a)
    (h : c.reopens w = true) : (c.handleACKPacket a w).lastByteAcked = c.lastByteAcked := by
  rw [handleACKPacket_of_new hnet hnew, if_pos h]
  exact (SendsOn.dtpWriteAvail _).acked

theorem applied_iff (hnet : c.isNetConnected = true) (hnew : c.lastByteAcked < a)
    (hnear : (a - c.lastByteAcked).toNat < 2147483648) (hq : EndsInOrder c.packetQ) :
    Applied c a (c.handleACKPacket a w) ↔ c.reopens w = false := by
  constructor
  · intro happ
    by_contra hre
    have hkept := acked_of_reopens hnet hnew (by simpa using hre)
    rw [happ.acked] at hkept
    exact UInt32.lt_irrefl _ (hkept ▸ hnew)
  · exact applied_of_not_reopens hnet hnew hnear hq

/-- **When a new ACK is applied.**  A number above the last one is recorded exactly when it does not
come with the first window after a zero one. -/
theorem ack_applied_iff (hnet : c.isNetConnected = true) (hnew : c.lastByteAcked < a)
    (hnear : (a - c.lastByteAcked).toNat < 2147483648) (hq : EndsInOrder c.packetQ) :
    Applied c a (c.handleACKPacket a w) ↔ c.reopens w = false :=
  applied_iff hnet hnew hnear hq

/-- While this side has not closed completely, its queue is in order. -/
theorem Closing.endsInOrder {base n : ℕ} (h : Closing base n c) : EndsInOrder c.packetQ := by
  have hsmall := h.order.small'
  by_cases hn : c.lastByteAcked.toNat ≤ n
  · refine (List.pairwise_map.mp (h.tiles hn).pairwise).imp_of_mem fun {p p'} hp hp' hle => ?_
    have hsound := h.order.queue.sound p' hp'
    have hpay := hsound.payload
    have hend : p'.hi = p'.seqNum.toNat + p'.payloadLen.toNat := rfl
    change p.hi ≤ p'.seqNum.toNat at hle
    rw [UInt32.lt_iff_toNat_lt, ← UInt32.toNat_inj, hsound.toNat_stop hsmall,
      (h.order.queue.sound p hp).toNat_stop hsmall]
    by_cases hfin : p'.header.hdr.fin = true
    · rcases (hle.trans (hend ▸ Nat.le_add_right _ _)).lt_or_eq with hlt | heq
      · exact .inl hlt
      · exact .inr ⟨heq, hfin⟩
    · have hne : p'.payloadLen ≠ 0 := fun h0 => hfin ((h.empty p' hp').mpr h0)
      exact .inl (by omega)
  · -- the FIN is acknowledged, and nothing is left
    rw [h.packetQ_of_lt (not_le.mp hn)]
    exact List.Pairwise.nil

/-- In the runs of regular steps this holds of every ACK for something written. -/
theorem applied_iff_of_regular {k : Crypto} {base : ℕ} {opening : List UInt8} {c₀ : DtpContext}
    (h₀ : FreshFlow base opening c₀) (hc : (regularConnection k base c₀).Reachable c)
    (hs : c.state.awaitsFIN = true) (hnew : c.lastByteAcked < a) (hw : a ≤ c.lastByteWritten) :
    Applied c a (c.handleACKPacket a w) ↔ c.reopens w = false := by
  obtain ⟨n, h⟩ := closing_of_reachable h₀ hc hs
  refine applied_iff h.order.connected hnew ?_ h.endsInOrder
  have hlt := h.order.written_lt
  rw [UInt32.lt_iff_toNat_lt] at hnew
  rw [UInt32.le_iff_toNat_le] at hw
  rw [toNat_sub_word hnew.le]
  omega

def threeSent : DtpContext := (sampleSender.dtpSend [1, 2, 3]).1

/-- The first of them is acknowledged, with a window of zero. -/
def oneAcked : DtpContext := threeSent.handleACKPacket 1 0

theorem ack_applied_iff_two : Applied threeSent 2 (threeSent.handleACKPacket 2 100) :=
  (ack_applied_iff (by decide +kernel) (by decide +kernel) (by decide +kernel)
    (by decide +kernel)).mpr (by decide +kernel)

/-- An ACK for all that was sent reopens the window, and is lost. -/
theorem reopening_ack_lost :
    (oneAcked.isNetConnected = true ∧ oneAcked.lastByteAcked < 3 ∧ 3 ≤ oneAcked.lastByteSent ∧
      EndsInOrder oneAcked.packetQ) ∧
    ¬Applied oneAcked 3 (oneAcked.handleACKPacket 3 100) := by
  refine ⟨by decide +kernel, fun h => ?_⟩
  have hacked : (oneAcked.handleACKPacket 3 100).lastByteAcked = 1 := by decide +kernel
  rw [h.acked] at hacked
  cases hacked

/-- A new number leaves the sending side alone exactly when the context is disconnected, or when the
number comes with the first window after a zero one and `DTPWriteAvail` then has nothing to
send. -/
theorem ignored_iff_of_new (hnew : c.lastByteAcked < a) : Ignored c (c.handleACKPacket a w) ↔ c.isNetConnected = false ∨
    (c.reopens w = true ∧ (c.noteAckWindow w).clearHerWindowZero.idles = true) := by
  by_cases hnet : c.isNetConnected = true
  · rw [handleACKPacket_of_new hnet hnew]
    by_cases hre : c.reopens w = true
    · rw [if_pos hre, ← ignored_dtpWriteAvail_iff]
      simp only [hnet, Bool.true_eq_false, hre, true_and, false_or]
      constructor
      · exact fun h => ⟨h.acked, h.sent, h.written, h.writeBuf, h.packetQ, h.state⟩
      · exact fun h => ⟨h.acked, h.sent, h.written, h.writeBuf, h.packetQ, h.state⟩
    · have hne := acked_of_records (w := w) hnet hnew (by simpa using hre)
      rw [handleACKPacket_of_new hnet hnew] at hne
      constructor
      · intro h
        rw [h.acked] at hne
        exact absurd (hne ▸ hnew) (UInt32.lt_irrefl _)
      · simp [hnet, hre]
  · have hsame : c.handleACKPacket a w = c := by simp [handleACKPacket, hnet]
    simp only [hsame, Bool.not_eq_true] at hnet ⊢
    simp only [hnet, true_or, iff_true]
    exact ⟨rfl, rfl, rfl, rfl, rfl, rfl⟩

/-- **When an ACK leaves the receive side alone.**  A number that does not close the context changes
the receive side exactly when it is taken for a wrap-around. -/
theorem recv_side_kept_iff (hopen : (c.handleACKPacket a w).isActive = true) : (c.handleACKPacket a w).toRecvSide =
    c.toRecvSide ↔ ¬(c.isNetConnected = true ∧ a < c.lastByteAcked ∧ c.lastByteAcked + 1472 < c.lastByteAcked) := by
  by_cases hnet : c.isNetConnected = true
  · by_cases hwrap : a < c.lastByteAcked ∧ c.lastByteAcked + 1472 < c.lastByteAcked
    · have hnet' : (c.noteWrap a).isNetConnected = true := by rwa [noteWrap, if_pos hwrap.1]
      have hframe : AckOnly (c.noteWrap a) (c.handleACKPacket a w) :=
        .of_acts (.handleACKPacket_noteWrap hnet w fun h => h.2 hwrap.2) (by decide) fun _ => hnet'
      have hnext : (c.handleACKPacket a w).nextByteExpected = c.nextByteExpected + 1 := by
        rw [hframe.next, noteWrap, if_pos hwrap.1]
      simp only [hnet, hwrap, and_self, not_true_eq_false, iff_false]
      intro heq
      have hsame := congrArg RecvSide.nextByteExpected heq
      rw [hnext] at hsame
      simp at hsame
    · have hframe : AckOnly c (c.handleACKPacket a w) :=
        .handleACKPacket hnet w fun hlt htop => hwrap ⟨hlt, htop⟩
      simp only [hwrap, and_false, not_false_eq_true, iff_true]
      exact (hframe.recvSide hopen).2
  · simp [handleACKPacket, hnet]

/-- All but the last hundred sequence numbers are used up. -/
def nearTop : DtpContext :=
  { sampleSender with lastByteAcked := 4294967196, lastByteSent := 4294967196
                      lastByteWritten := 4294967196 }

theorem recv_side_kept_iff_three : (threeSent.handleACKPacket 3 100).toRecvSide = threeSent.toRecvSide :=
  (recv_side_kept_iff (by decide +kernel)).mpr (by decide +kernel)

/-- An ACK that is old moves the receive side on. -/
theorem old_ack_moves_recv_side : (nearTop.handleACKPacket 5 100).isActive = true ∧
    (nearTop.handleACKPacket 5 100).toRecvSide ≠ nearTop.toRecvSide := by
  refine ⟨by decide +kernel, fun h => ?_⟩
  have hnext := congrArg RecvSide.nextByteExpected h
  revert hnext
  decide +kernel

end Ack

end Cedos.Dtp
