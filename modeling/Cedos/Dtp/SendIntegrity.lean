import Cedos.Dtp.CloseOrder

/-!
# What the sender sends

Until `dtp_close` is called the retransmission queue tiles the sequence numbers between
`tc_lastByteAcked` and `tc_lastByteSent`, the write buffer holds the stream from
`tc_lastByteAcked` on, and every packet, sent for the first time or again, carries the
stream at its sequence number.

The offsets move in both directions: a timeout drops everything behind the first packet
and moves `tc_lastByteSent` back to its end, and an ACK that was under way then moves it
forward again, over bytes that are in no packet any more.
-/

namespace Cedos.Dtp

open DtpContext

/-! ## The queue -/

section Lone
variable {c : DtpContext} {p : DtpPkt} {q : List DtpPkt} {ack : UInt32}
  (h : c.isCongested = true → ∃ p, c.packetQ = [p] ∧ p.isRetrans = true)
include h

/-- A sender that is still congested after an ACK has kept its one packet. -/
theorem lone_cut (hc : ((c.shiftAcked ack).removePacket ack).isCongested = true) :
    ∃ p, ((c.shiftAcked ack).removePacket ack).packetQ = [p] ∧ p.isRetrans = true := by
  rw [isCongested_removePacket, Bool.and_eq_true] at hc
  obtain ⟨p, hq, hr⟩ := h hc.1
  have hq' : (c.shiftAcked ack).packetQ = [p] := hq
  rw [hq'] at hc
  obtain ⟨p', hrest, hmark⟩ := cut_single (by simpa using hc.2)
  rw [packetQ_removePacket, hq']
  exact ⟨p', hrest, hmark.trans hr⟩

/-- A timeout finds no packet there that has not been sent again. -/
theorem not_pruned (hc : c.isCongested = true) : ¬∀ p ∈ c.packetQ, p.isRetrans = false := by
  intro hall
  obtain ⟨p, hq, hr⟩ := h hc
  have hp := hall p (hq ▸ List.mem_cons_self)
  exact Bool.false_ne_true (hp.symm.trans hr)

/-- One that is still congested after its packet has been sent again has it in the queue. -/
theorem lone_mark (hq : c.packetQ = p :: q) (hc : c.isCongested = true) :
    ∃ p', { p with isRetrans := true } :: q = [p'] ∧ p'.isRetrans = true := by
  obtain ⟨p', hq', -⟩ := h hc
  rw [hq] at hq'
  obtain ⟨-, rfl⟩ := List.cons.inj hq'
  exact ⟨_, rfl, rfl⟩

end Lone

/-! ## The invariant -/

/-- States before the end of the connection. -/
def SockState.isOpen : SockState → Bool
  | .synSent | .synRcvd | .established | .closeWait | .closed => true
  | _ => false

/-- The send side agrees with the stream, and no FIN is out or asked for. -/
structure Intact (base : ℕ) (stream : List UInt8) (c : DtpContext) : Prop where
  order : SendOrder stream.length c
  closeCalled : c.closeCalled = false
  finSent : c.isFINSent = false
  tiles : Tiles (c.packetQ.map DtpPkt.ival) (max c.lastByteAcked.toNat base) c.lastByteSent.toNat
  bytes : Holds c.writeBuf c.lastByteAcked.toNat (fun i => stream.getD i 0)
    fun i => max c.lastByteAcked.toNat base ≤ i ∧ i < stream.length
  wire : ∀ x ∈ c.wire, x.2.Carries stream
  lone : c.isCongested = true → ∃ p, c.packetQ = [p] ∧ p.isRetrans = true
  isOpen : c.state.isOpen = true
  answered : c.state = .synRcvd ∨ c.state = .closed ∨ base ≤ c.lastByteAcked.toNat

namespace Intact
variable {base : ℕ} {stream : List UInt8} {c : DtpContext} {p : DtpPkt} {q : List DtpPkt} (h : Intact base stream c)
include h

theorem written : c.lastByteWritten.toNat = stream.length := by
  have hw := h.order.written
  rw [h.finSent] at hw
  simpa using hw

theorem sent_le : c.lastByteSent.toNat ≤ stream.length :=
  h.order.sent_le.trans h.written.le

theorem fin_eq (hp : p ∈ c.packetQ) : p.header.hdr.fin = false := by
  cases hf : p.header.hdr.fin with
  | false => rfl
  | true => exact absurd (h.finSent.symm.trans (h.order.finSent p hp hf)) Bool.false_ne_true

theorem mem_bounds (hp : p ∈ c.packetQ) : max c.lastByteAcked.toNat base ≤ p.seqNum.toNat ∧
    p.seqNum.toNat ≤ p.hi ∧ p.hi ≤ c.lastByteSent.toNat :=
  h.tiles.mem_bounds p.ival (List.mem_map_of_mem hp)

/-- Reading the write buffer at the sequence number `s` reads the stream. -/
theorem peek_eq {s : UInt32} {m : ℕ}
    (h0 : max c.lastByteAcked.toNat base ≤ s.toNat) (h1 : s.toNat + m ≤ stream.length) :
    peek c.writeBuf (s - c.lastByteAcked).toNat m = (stream.drop s.toNat).take m := by
  have hacked : c.lastByteAcked.toNat ≤ s.toNat := le_trans (le_max_left _ _) h0
  have hread := h.bytes.peek_eq hacked (n := m) fun i hi0 hi1 => ⟨h0.trans hi0, by omega⟩
  rw [toNat_sub_word hacked, hread]
  exact peek_getD_slice stream 0 h1

theorem carries_retransDatagram (hp : p ∈ c.packetQ) : (c.retransDatagram p).Carries stream := by
  intro _ _
  have hsound := h.order.queue.sound p hp
  obtain ⟨h0, -, -⟩ := h.mem_bounds hp
  have hend : p.seqNum.toNat + p.payloadLen.toNat ≤ stream.length := hsound.hi_le
  have hseq : (c.retransDatagram p).hdr.seq = p.seqNum := hsound.seq
  have hpay : (c.retransDatagram p).payload = (stream.drop p.seqNum.toNat).take p.payloadLen.toNat := by
    rw [retransDatagram, payload_mkDatagram hsound.header]
    exact h.peek_eq h0 hend
  have hlen : (c.retransDatagram p).payload.length = p.payloadLen.toNat := by
    rw [retransDatagram, payload_mkDatagram hsound.header, length_peek]
  rw [hseq, hlen]
  exact ⟨h.fin_eq hp, hend, hpay⟩

end Intact

/-! ## Steps that leave the send side alone -/

theorem isOpen_of_slips : ∀ {s s' : SockState}, s.slips s' = true → s.isOpen = true → s'.isOpen = true := by decide

theorem unanswered_of_slips : ∀ {s s' : SockState}, s.slips s' = true → s = .synRcvd ∨ s = .closed →
    s' = .synRcvd ∨ s' = .closed := by decide

theorem Intact.of_quiet {base : ℕ} {stream : List UInt8} {c c' : DtpContext} (h : Intact base stream c)
    (hq : Quiet c c') : Intact base stream c' := by
  have hb : c'.writeBuf = c.writeBuf := congrArg SendSide.writeBuf hq.sendSide
  refine ⟨hq.sendOrder h.order, ?_, hq.finSent.trans h.finSent, ?_, ?_, ?_, ?_, isOpen_of_slips hq.state h.isOpen, ?_⟩
  · cases hc : c'.closeCalled with
    | false => rfl
    | true => exact absurd (h.closeCalled.symm.trans (hq.closeCalled hc)) Bool.false_ne_true
  · rw [hq.packetQ, hq.acked, hq.sent]
    exact h.tiles
  · rw [hb, hq.acked]
    exact h.bytes
  · intro x hx
    cases hq.wire x hx with
    | inl hmem => exact h.wire x hmem
    | inr hctl => exact hctl.carries h.sent_le
  · rw [hq.congested, hq.packetQ]
    exact h.lone
  · rw [hq.acked, ← or_assoc]
    exact (or_assoc.mpr h.answered).imp_left (unanswered_of_slips hq.state)

/-! ## `DTPWriteAvail` -/

section Write
variable {base : ℕ} {stream : List UInt8} {c : DtpContext} {f : Flags} {l : ℤ}

/-- Without a close there is no FIN. -/
theorem dtpWriteAvail_open (hc : c.closeCalled = false) : c.dtpWriteAvail = (c.writeFlush fun _ => true).1 := by
  have hframe := FlushFrame.writeFlush (fun _ => true) c
  obtain heq | ⟨-, hwant, -⟩ := dtpWriteAvail_cases c
  · exact heq
  · rw [wantsFIN, Bool.and_eq_true, Bool.and_eq_true] at hwant
    have hclose := (congrArg Lifecycle.closeCalled hframe.lifecycle).symm.trans hwant.1.1
    exact absurd (hc.symm.trans hclose) Bool.false_ne_true

/-- A new packet goes on where the last one has ended. -/
theorem tiles_writeOne {a : ℕ} (ht : Tiles (c.packetQ.map DtpPkt.ival) a c.lastByteSent.toNat)
    (hsent : (c.writeOne f l).lastByteSent.toNat = c.lastByteSent.toNat + (c.writeLen f l).toNat) :
    Tiles ((c.writeOne f l).packetQ.map DtpPkt.ival) a (c.writeOne f l).lastByteSent.toNat := by
  have hnew : (c.writePkt f l).ival.hi = (c.writeOne f l).lastByteSent.toNat := hi_writePkt.trans hsent.symm
  change Tiles ((c.packetQ ++ [c.writePkt f l]).map DtpPkt.ival) _ _
  rw [List.map_append, ← hnew]
  refine ht.concat rfl ?_
  change c.lastByteSent.toNat ≤ (c.writePkt f l).ival.hi
  rw [hnew, hsent]
  exact Nat.le_add_right _ _

namespace Intact

/-- One round of the loop sends the next part of the stream. -/
theorem writeOne (h : Intact base stream c) (hc : c.isCongested = false) (hs : c.state ≠ .synSent)
    (hfin : f.fin = false) (hpos : 0 < l) (hle : l ≤ (c.lastByteWritten.toNat : ℤ) - c.lastByteSent.toNat) :
    Intact base stream (c.writeOne f l) := by
  have hid := h.order.localID
  obtain ⟨hw0, hw1⟩ := writeLen_bounds (f := f) hid hs hpos
  have hw := h.written
  have hbase := h.tiles.le
  have hend : c.lastByteSent.toNat + (c.writeLen f l).toNat ≤ stream.length := by omega
  have hsmall := h.order.small'
  have hsent : (c.writeOne f l).lastByteSent.toNat =
      c.lastByteSent.toNat + (c.writeLen f l).toNat := toNat_add_u32 hw0.le (by omega)
  have hwf := writeHeader_wf c f hid
  have hpay : (c.writeDatagram f l).payload = (stream.drop c.lastByteSent.toNat).take (c.writeLen f l).toNat := by
    rw [writeDatagram, payload_mkDatagram hwf]
    exact h.peek_eq hbase hend
  have hlen : (c.writeDatagram f l).payload.length = (c.writeLen f l).toNat := by
    rw [writeDatagram, payload_mkDatagram hwf, length_peek]
  refine ⟨h.order.writeOne h.finSent hs hfin hpos hle, h.closeCalled, h.finSent, ?_, h.bytes, ?_,
    ?_, h.isOpen, h.answered⟩
  · exact tiles_writeOne h.tiles hsent
  · intro x hx
    cases List.mem_append.mp hx with
    | inl hmem => exact h.wire x hmem
    | inr hmem =>
      rw [List.mem_singleton.mp hmem]
      intro _ _
      have hseq : (c.writeDatagram f l).hdr.seq = c.lastByteSent := writeHeader_seq c f
      have hf : (c.writeDatagram f l).hdr.fin = false := (fin_writePkt (l := l)).trans hfin
      exact ⟨hf, hseq ▸ hlen ▸ hend, hseq ▸ hlen ▸ hpay⟩
  · exact fun hc' => absurd (hc.symm.trans hc') Bool.false_ne_true

theorem dtpWriteAvail (h : Intact base stream c) : Intact base stream c.dtpWriteAvail := by
  rw [dtpWriteAvail_open h.closeCalled]
  refine SendOrder.writeFlush_rule (P := Intact base stream) (fun h => h.order) ?_ (fun h => h.of_quiet { Quiet.refl _ with }) h
  intro c f l h hc _ hs hfin hpos hle
  exact h.writeOne hc hs hfin hpos hle

end Intact
end Write

/-! ## Acknowledgements -/

section Ack
variable {base : ℕ} {stream : List UInt8} {c : DtpContext} {a : UInt32} {w : UInt16}

/-- Sliding the write buffer keeps the unacknowledged part of the stream in it. -/
theorem Intact.slide (h : Intact base stream c) (h0 : c.lastByteAcked.toNat ≤ a.toNat) (hb : base ≤ a.toNat)
    (h1 : a.toNat ≤ stream.length) :
    Holds (c.shiftAcked a).writeBuf a.toNat (fun i => stream.getD i 0) fun i => a.toNat ≤ i ∧ i < stream.length := by
  have hw := h.written
  have hsmall := h.order.small'
  have hoff : i32 (c.lastByteWritten - a) = (stream.length : ℤ) - a.toNat := by
    rw [i32_sub (by omega) (by omega), hw]
  have hmove : i32 (a - c.lastByteAcked) = (a.toNat : ℤ) - c.lastByteAcked.toNat :=
    i32_sub (by omega) (by omega)
  have hold : Holds c.writeBuf c.lastByteAcked.toNat (fun i => stream.getD i 0)
      fun i => a.toNat ≤ i ∧ i < stream.length := h.bytes.mono fun i hi => by omega
  change Holds (if 0 < i32 (c.lastByteWritten - a) then
    move c.writeBuf 0 (i32 (a - c.lastByteAcked)).toNat (i32 (c.lastByteWritten - a)).toNat
    else c.writeBuf) _ _ _
  split_ifs with hpos
  · have hslid := hold.slide (n := (i32 (a - c.lastByteAcked)).toNat)
      (k := (i32 (c.lastByteWritten - a)).toNat) fun i hi => by omega
    have hto : c.lastByteAcked.toNat + (i32 (a - c.lastByteAcked)).toNat = a.toNat := by omega
    rwa [hto] at hslid
  · intro i hi
    omega

/-- Moving the acknowledged offset and cutting the queue there. -/
theorem Intact.shiftRemove (h : Intact base stream c) (h0 : c.lastByteAcked.toNat ≤ a.toNat) (hb : base ≤ a.toNat)
    (h1 : a.toNat ≤ stream.length) : Intact base stream ((c.shiftAcked a).removePacket a) := by
  have hsent := toNat_shiftAcked_sent (c := c) (a := a)
  have hmax : max a.toNat base = a.toNat := max_eq_left hb
  have hsound := h.order.queue.sound
  have hsmall := h.order.small'
  refine ⟨h.order.shiftRemove h0 (h1.trans h.written.ge), h.closeCalled, h.finSent, ?_, ?_, h.wire,
    ?_, h.isOpen, Or.inr (Or.inr hb)⟩
  · rw [packetQ_removePacket]
    change Tiles ((cutQueue a c.packetQ).rest.map DtpPkt.ival) (max a.toNat base)
      (c.shiftAcked a).lastByteSent.toNat
    rw [hmax, hsent]
    refine tiles_cut_max hsound hsmall (fun p hp hf => ?_) h.tiles (max_le h0 hb)
    exact absurd ((h.fin_eq hp).symm.trans hf) Bool.false_ne_true
  · change Holds (c.shiftAcked a).writeBuf a.toNat _ _
    refine (h.slide h0 hb h1).mono fun i hi => ?_
    exact ⟨le_trans (le_max_left _ _) hi.1, hi.2⟩
  · exact lone_cut h.lone

theorem Intact.recordACK (h : Intact base stream c) (h0 : c.lastByteAcked.toNat ≤ a.toNat) (hb : base ≤ a.toNat)
    (h1 : a.toNat ≤ stream.length) : Intact base stream (c.recordACK a) := by
  have hcut := h.shiftRemove h0 hb h1
  have ho := h.order.recordACK h0 (h1.trans h.written.ge)
  simp only [DtpContext.recordACK, DtpContext.creditACK, DtpContext.establish] at ho ⊢
  split_ifs at ho ⊢
  · exact { hcut with order := ho, isOpen := rfl, answered := Or.inr (Or.inr hb) }
  · exact { hcut with order := ho }
  · exact hcut

end Ack

/-! ## Retransmission -/

section Retransmit
variable {base : ℕ} {stream : List UInt8} {c : DtpContext} {p : DtpPkt} {q : List DtpPkt}
  {a : UInt32} {w : UInt16}

theorem Intact.send (h : Intact base stream c) (addr : SockAddr) {d : Datagram}
    (hd : d.Carries stream) : Intact base stream (c.send addr d) := by
  refine ⟨h.order.send addr hd.endsBy, h.closeCalled, h.finSent, h.tiles, h.bytes, ?_, h.lone, h.isOpen, h.answered⟩
  intro x hx
  cases List.mem_append.mp hx with
  | inl hmem => exact h.wire x hmem
  | inr hmem =>
    rw [List.mem_singleton.mp hmem]
    exact hd

theorem Intact.mark (h : Intact base stream c) (hq : c.packetQ = p :: q) :
    Intact base stream (c.setQueue ({ p with isRetrans := true } :: q)) := by
  have ht := h.tiles
  rw [hq] at ht
  exact { h with order := h.order.mark hq, tiles := ht, lone := lone_mark (c := c) h.lone hq }

/-- Falling back to the first packet, with no FIN to take back. -/
theorem fallBack_eq (hf : c.isFINSent = false) : c.fallBack p =
    ({ c with isCongested := true, lastByteSent := p.stop } : DtpContext).timeoutSlowStart := by
  simp only [fallBack, unsendFIN, hf, Bool.false_and, Bool.false_eq_true, if_false]

theorem Intact.fallBack (h : Intact base stream c) (hq : c.packetQ = p :: q) :
    Intact base stream ((c.fallBack p).pruneRest [{ p with isRetrans := true }] q) := by
  have hmem : p ∈ c.packetQ := hq ▸ List.mem_cons_self
  have hstop := (h.order.queue.sound p hmem).toNat_stop h.order.small'
  have ho := h.order.fallBack hq
  obtain ⟨hseq, -, -⟩ := (hq ▸ h.tiles : Tiles ((p :: q).map DtpPkt.ival) _ _)
  rw [fallBack_eq h.finSent] at ho ⊢
  refine ⟨ho, h.closeCalled, h.finSent, ?_, h.bytes, h.wire, ?_, h.isOpen, h.answered⟩
  · change Tiles [(p.ival : Ival ℕ)] (max c.lastByteAcked.toNat base) p.stop.toNat
    rw [hstop]
    exact ⟨hseq, (h.mem_bounds hmem).2.1, rfl⟩
  · exact fun _ => ⟨_, rfl, rfl⟩

theorem Intact.dtpSlowStart (h : Intact base stream c) (hf : c.finInFlight) : Intact base stream c.dtpSlowStart :=
  { h with
    order := h.order.dtpSlowStart hf
    lone := fun hc => (Bool.false_ne_true hc).elim }

end Retransmit

/-! ## `dtp_send` -/

section Send
variable {base : ℕ} {stream : List UInt8} {c : DtpContext}

/-- A longer stream has the same bytes at the same places. -/
theorem Datagram.Carries.append {d : Datagram} (h : d.Carries stream) (more : List UInt8) :
    d.Carries (stream ++ more) := by
  intro h0 h1
  obtain ⟨hfin, hle, hpay⟩ := h h0 h1
  refine ⟨hfin, ?_, ?_⟩
  · rw [List.length_append]
    omega
  · rw [List.drop_append_of_le_length (by omega), List.take_append_of_le_length]
    · exact hpay
    · rw [List.length_drop]
      omega

/-- The accepted bytes go behind the stream in the write buffer. -/
theorem Intact.copyBytes (h : Intact base stream c) (data : List UInt8) {m : ℕ} (hm : (m : ℤ) ≤ c.getAvailWriteBufSize)
    (hdata : m ≤ data.length) (hrange : stream.length + m + (c.closeCalled || c.isFINSent).toNat < 2147483648) :
    Intact base (stream ++ data.take m) (c.copyBytes data m) := by
  have hlen : (stream ++ data.take m).length = stream.length + m := by
    rw [List.length_append, List.length_take, min_eq_left hdata]
  have hw := h.written
  have hal := h.order.acked_le
  have hsl := h.order.sent_le
  have hlt := h.order.written_lt
  have hoff : c.lastByteAcked.toNat + c.getWriteBufOff.toNat = stream.length := by
    rw [getWriteBufOff, i32_sub hlt (by omega), hw]
    omega
  refine ⟨?_, h.closeCalled, h.finSent, h.tiles, ?_, ?_, h.lone, h.isOpen, h.answered⟩
  · rw [hlen]
    exact h.order.copyBytes data h.finSent hm hrange
  · have hold : Holds c.writeBuf c.lastByteAcked.toNat (fun i => (stream ++ data.take m).getD i 0)
        fun i => max c.lastByteAcked.toNat base ≤ i ∧ i < stream.length := by
      intro i hi
      rw [h.bytes i hi]
      simp only [List.getD_eq_getElem?_getD, List.getElem?_append_left hi.2]
    have hsrc : ∀ i < m, data.getD i 0 = (stream ++ data.take m).getD (stream.length + i) 0 := by
      intro i hi
      simp only [List.getD_eq_getElem?_getD, List.getElem?_append_right (Nat.le_add_right _ _), Nat.add_sub_cancel_left,
        List.getElem?_take_of_lt hi]
    have hnew := hold.blit (fun i hi => le_trans (le_max_left _ _) hi.1) hoff hsrc
    change Holds (blit c.writeBuf c.getWriteBufOff.toNat (fun i => data.getD i 0) m) _ _ _
    refine hnew.mono fun i hi => ?_
    rw [hlen] at hi
    have hlo : max c.lastByteAcked.toNat base ≤ i := hi.1
    omega
  · exact fun x hx => (h.wire x hx).append _

end Send

/-! ## Events -/

section Events
variable {base : ℕ} {stream : List UInt8} {c : DtpContext}

theorem Intact.not_ending (h : Intact base stream c) : c.state ≠ .lastAck ∧ c.inFinWait = false := by
  have hopen := h.isOpen
  cases hs : c.state <;> simp_all [SockState.isOpen, inFinWait]

theorem Intact.rule : SenderRule base (fun _ => True) (fun _ => True) (Intact base) (Intact base) where
  order h := h.order
  live _ := trivial
  back _ := id
  quiet h hq _ := h.of_quiet hq
  write h _ _ := h.dtpWriteAvail
  reopen h _ := { h with order := h.order.of_view rfl id }
  record h _ h0 h1 hb := h.recordACK h0 hb (h1.trans h.written.le)
  resume h hf := h.dtpSlowStart hf
  copy h _ hdata hroom hrange := (h.copyBytes _ hroom hdata hrange).of_quiet (.noteFull _)
  again h hp := h.send _ (h.carries_retransDatagram hp)
  mark h hq := h.mark hq
  avoid h _ := { h with order := h.order.of_view rfl id }
  fallBack h hq := h.fallBack hq
  pruneAll h hc hall := (not_pruned h.lone hc hall).elim
  lastAck h hs _ _ _ := absurd hs h.not_ending.1
  accept h hwait _ := absurd (h.not_ending.2.symm.trans hwait) Bool.false_ne_true

/-- What the peer can acknowledge is in the stream. -/
theorem Intact.transmitted_le (h : Intact base stream c) {ackNum : UInt32}
    (ha : Transmitted c ackNum) : ackNum.toNat ≤ stream.length := by
  cases ha with
  | inl hle =>
    rw [UInt32.le_iff_toNat_le] at hle
    have hacked := h.order.acked_le
    have hsent := h.sent_le
    omega
  | inr hx =>
    obtain ⟨x, hx, h0, h1, hle⟩ := hx
    obtain ⟨hfin, hend, -⟩ := h.wire x hx h0 h1
    rw [hfin] at hle
    exact hle.trans hend

end Events

/-! ## Runs -/

section Runs
variable {k : Crypto} {base : ℕ} {opening : List UInt8} {c₀ : DtpContext}

theorem FreshSender.intact (h : FreshSender base opening c₀) : Intact base opening c₀ := by
  obtain ⟨hlo, -⟩ := h.base_le
  have hmax : max c₀.lastByteAcked.toNat base = base := max_eq_right hlo
  have hsent : c₀.lastByteSent.toNat = opening.length :=
    (congrArg UInt32.toNat h.sent).trans h.written
  refine ⟨h.sendOrder, h.closeCalled, h.finSent, ?_, ?_, h.wire, ?_, ?_, ?_⟩
  · rw [hmax, hsent]
    exact h.tiles
  · rw [hmax]
    exact h.bytes
  · exact fun hc => absurd (h.congested.symm.trans hc) Bool.false_ne_true
  · obtain hs | hs | hs := h.state <;> rw [hs] <;> rfl
  · cases h.acked with
    | inl heq => exact Or.inr (Or.inr heq.ge)
    | inr hle => exact Or.inl hle.1

/-- The runs of a sender in which `dtp_close` is not called. -/
def openSender (k : Crypto) (base : ℕ) (opening : List UInt8) (c₀ : DtpContext) :
    Machine Sending Event :=
  (sender k base opening c₀).restrict fun _ e => e ≠ .close

instance (e : Event) : Decidable (e = .close) :=
  decidable_of_iff (e.ctorIdx = Event.close.ctorIdx) (by cases e <;> simp [Event.ctorIdx])

instance (s : Sending) (e : Event) : Decidable ((openSender k base opening c₀).allowed s e) :=
  inferInstanceAs (Decidable (_ ∧ e ≠ .close))

/-- A step of such a run keeps what the rule is about. -/
theorem SenderRule.step_open {P B : List UInt8 → DtpContext → Prop}
    (R : SenderRule base (fun _ => True) (fun _ => True) P B) {s : Sending} (h : P s.stream s.ctx)
    (hi : Intact base s.stream s.ctx) {e : Event} (he : (openSender k base opening c₀).allowed s e) :
    P ((openSender k base opening c₀).apply s e).stream ((openSender k base opening c₀).apply s e).ctx := by
  obtain ⟨⟨hoff, hpeer, hrange⟩, hclose⟩ := he
  have hopen : s.ctx.finInFlight := fun hf => absurd (hi.finSent.symm.trans hf) Bool.false_ne_true
  refine R.apply h hoff ?_ ?_ (fun _ _ => trivial) (fun heq => absurd heq hclose) ?_ trivial
  · cases e with
    | batch p =>
      intro ackNum window hack _ _
      rw [UInt32.le_iff_toNat_le, hi.written]
      exact hi.transmitted_le (hpeer ackNum window hack).1
    | rsp d addr => exact fun _ => hopen
    | auth addr rnd => exact fun _ => hopen
    | _ => exact fun hf => absurd (hi.finSent.symm.trans hf) Bool.false_ne_true
  · cases e with
    | batch p => exact fun ackNum window hack => (hpeer ackNum window hack).2
    | rst d hid fid => exact hpeer
    | _ => trivial
  · cases e <;> first | exact fun _ => hrange | exact fun hne => absurd rfl hne

theorem intact_of_reachable (h₀ : FreshSender base opening c₀) {s : Sending}
    (hs : (openSender k base opening c₀).Reachable s) : Intact base s.stream s.ctx := by
  refine Machine.Reachable.invariant (P := fun s => Intact base s.stream s.ctx) ?_ ?_ hs
  · intro t ht
    obtain rfl : t = ⟨c₀, opening⟩ := ht
    exact h₀.intact
  · intro t e ht he
    exact Intact.rule.step_open ht ht he

/-- The first packet of the queue starts where the acknowledged bytes end, so the
assertions of `HandleDuplicateACK` hold. -/
theorem Intact.head_bounds {stream : List UInt8} {c : DtpContext} {p : DtpPkt} {q : List DtpPkt}
    (h : Intact base stream c) (hb : base ≤ c.lastByteAcked.toNat) (hq : c.packetQ = p :: q) :
    p.seqNum = c.lastByteAcked ∧ c.lastByteAcked ≤ p.seqNum + u32 p.payloadLen := by
  have hmem : p ∈ c.packetQ := hq ▸ List.mem_cons_self
  have hsound := h.order.queue.sound p hmem
  have hpay := hsound.payload
  have hle := hsound.hi_le
  have hsmall := h.order.small'
  obtain ⟨hseq, -, -⟩ := (hq ▸ h.tiles : Tiles ((p :: q).map DtpPkt.ival) _ _)
  have hstart : p.seqNum.toNat = c.lastByteAcked.toNat := hseq.trans (max_eq_left hb)
  refine ⟨UInt32.toNat_inj.mp hstart, ?_⟩
  rw [DtpPkt.hi] at hle
  rw [UInt32.le_iff_toNat_le, toNat_add_u32 hpay (by omega), hstart]
  exact Nat.le_add_right _ _

/-- **Send-side integrity.**  In every run without a close, whatever is lost, acknowledged
late or out of order, or moved to another address: the offsets are in order, the queue
tiles what is in flight, the assertions on it hold, and every datagram carries the stream
at its sequence number. -/
theorem sender_integrity (h₀ : FreshSender base opening c₀) {s : Sending}
    (hs : (openSender k base opening c₀).Reachable s) :
    s.ctx.lastByteAcked ≤ s.ctx.lastByteSent ∧ s.ctx.lastByteSent ≤ s.ctx.lastByteWritten ∧
      (s.ctx.lastByteWritten.toNat : ℤ) ≤ s.ctx.lastByteAcked.toNat + s.ctx.writeBufLen ∧
      s.ctx.lastByteWritten.toNat = s.stream.length ∧ (s.ctx.state ≠ .synRcvd → s.ctx.state ≠ .closed →
        Tiles (s.ctx.packetQ.map DtpPkt.ival) s.ctx.lastByteAcked.toNat s.ctx.lastByteSent.toNat ∧
        ∀ p q, s.ctx.packetQ = p :: q → p.seqNum = s.ctx.lastByteAcked ∧
          s.ctx.lastByteAcked ≤ p.seqNum + u32 p.payloadLen) ∧ (∀ p ∈ s.ctx.packetQ, p.header.hdr.seq = p.seqNum) ∧
      ∀ x ∈ s.ctx.wire, x.2.Carries s.stream := by
  have h := intact_of_reachable h₀ hs
  have hw := h.written
  have hbuf := h.order.buffered
  obtain ⟨hpos, -⟩ := h.order.bufLen
  refine ⟨UInt32.le_iff_toNat_le.mpr h.order.acked_le, UInt32.le_iff_toNat_le.mpr h.order.sent_le,
    by omega, hw, ?_, fun p hp => (h.order.queue.sound p hp).seq, h.wire⟩
  intro hrcvd hclosed
  have hbase : base ≤ s.ctx.lastByteAcked.toNat := by
    obtain hs' | hs' | hb := h.answered
    · exact absurd hs' hrcvd
    · exact absurd hs' hclosed
    · exact hb
  have htiles := h.tiles
  rw [max_eq_left hbase] at htiles
  exact ⟨htiles, fun p q hq => h.head_bounds hbase hq⟩

end Runs

/-- Three bytes are sent and time out, two more are accepted meanwhile, and the ACK of the
first three lets them go. -/
def lateStart : List Event :=
  [.send [1, 2, 3], .timeout firstExpired, .send [4, 5], .batch (ackOnly 3 2)]

theorem sender_integrity_late_start :
    ∃ s, (openSender sampleCrypto 0 [] sampleSender).Reachable s ∧ s.stream = [1, 2, 3, 4, 5] ∧
      s.ctx.wire.length = 3 ∧ s.ctx.packetQ.length = 1 ∧ Tiles (s.ctx.packetQ.map DtpPkt.ival) s.ctx.lastByteAcked.toNat
        s.ctx.lastByteSent.toNat ∧ ∀ x ∈ s.ctx.wire, x.2.Carries s.stream := by
  have hadm : (openSender sampleCrypto 0 [] sampleSender).Admits ⟨sampleSender, []⟩ lateStart := by
    decide +kernel
  have hrun := Machine.Reachable.run (.init rfl) hadm
  obtain ⟨-, -, -, -, htiles, -, hwire⟩ := sender_integrity sampleSender_fresh hrun
  exact ⟨_, hrun, by decide +kernel, by decide +kernel, by decide +kernel,
    (htiles (by decide +kernel) (by decide +kernel)).1, hwire⟩

end Cedos.Dtp
