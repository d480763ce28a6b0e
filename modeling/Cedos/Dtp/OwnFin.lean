import Cedos.Dtp.FinAfterData
import Cedos.Dtp.InFlight
import Cedos.Dtp.SendIntegrity
import Cedos.Dtp.StateOrder

/-!
# The packet the peer's FIN removes

When `HandleFINPacket` accepts a FIN in `FIN_WAIT_1` it frees the first packet of the queue, taken to be the FIN of
this side. Whether it accepts the FIN it decides by its ACK number alone; the number is not given to `RemovePacket`
before. So the first packet is whatever the ACKs handled so far have left there: data, if the last of them did not
cover it, and nothing, if a timeout has taken the FIN back and the data behind it waits for a window.

As long as the FIN is not the peer's the queue tiles what is between `tc_lastByteAcked` and the end of the stream, and
a FIN that counts as sent is its last packet. So the first packet is the FIN exactly when it counts as sent and
everything before it has been acknowledged.
-/

namespace Cedos.Dtp

open DtpContext

/-! ## Accepting a FIN -/

/-- `HandleFINPacket` gets to its ACK. -/
def DtpContext.acceptsFIN (c : DtpContext) (h : DtpHdr) : Bool :=
  !c.ignoresFIN &&
    if c.inFinWait && h.ackSeq != c.lastByteWritten then c.nearbyAck h.ackSeq
    else !(decide (c.state = .established) && decide (h.seq ≠ c.nextByteExpected))

/-- The first packet of the queue is a FIN, and no packet carries data. -/
structure FreesOwnFIN (c : DtpContext) : Prop where
  first : ∃ p, c.packetQ.head? = some p ∧ p.header.hdr.fin = true
  noData : ∀ p ∈ c.packetQ, p.payloadLen = 0

theorem state_dtpCloseContext (c : DtpContext) : c.dtpCloseContext.state = c.state := by
  simp only [dtpCloseContext]
  split_ifs <;> rfl

theorem packetQ_acceptFIN {c : DtpContext} (hs : c.state = .finWait1) :
    c.acceptFIN.packetQ = c.packetQ.tail ∧ c.acceptFIN.state = .timeWait := by
  have hfree : ∀ x : DtpContext, x.freeFirst.packetQ = x.packetQ.tail := by
    intro x
    rw [freeFirst]
    cases hq : x.packetQ with
    | nil => exact hq
    | cons p q => rfl
  have hnoted : c.dtpSendACKPacket.noteFIN.state = .finWait1 := by
    change (if c.state = .established then SockState.closeWait else c.state) = _
    rw [hs]
    rfl
  have haccept : c.acceptFIN = c.dtpSendACKPacket.noteFIN.enterTimeWait := by
    simp [acceptFIN, hnoted, inFinWait]
  rw [haccept, enterTimeWait, if_pos hnoted]
  exact ⟨(congrArg SendSide.packetQ sendSide_dtpCloseContext).trans (hfree _), state_dtpCloseContext _⟩

theorem packetQ_handleFINPacket {c : DtpContext} {h : DtpHdr} (hs : c.state = .finWait1) (ha : c.acceptsFIN h = true) :
    (c.handleFINPacket h).packetQ = c.packetQ.tail ∧ (c.handleFINPacket h).state = .timeWait := by
  simp only [acceptsFIN, ignoresFIN, inFinWait, hs] at ha
  simp only [DtpContext.handleFINPacket, ignoresFIN, inFinWait, hs]
  split_ifs with hign hwait hnear hseq
  · simp at hign
  · simp_all
  · exact packetQ_acceptFIN (c := (c.assert c.closeCalled).assert (h.seq == c.nextByteExpected)) hs
  · simp at hseq
  · exact packetQ_acceptFIN hs

/-! ## The invariant -/

theorem awaitsFIN_of_leads : ∀ {s s' : SockState}, s.leads s' = true → s'.awaitsFIN = true →
    s.awaitsFIN = true := by decide

/-- The queue tiles what is in flight, and ends with the FIN if there is one. -/
structure Closing (base n : ℕ) (c : DtpContext) : Prop where
  order : SendOrder n c
  tiles : c.lastByteAcked.toNat ≤ n →
    Tiles (c.packetQ.map DtpPkt.ival) (max c.lastByteAcked.toNat base) (min c.lastByteSent.toNat n)
  empty : ∀ p ∈ c.packetQ, p.header.hdr.fin = true ↔ p.payloadLen = 0
  queued : c.isFINSent = true → c.lastByteAcked.toNat ≤ n → ∃ p ∈ c.packetQ, p.header.hdr.fin = true
  lone : c.isCongested = true → ∃ p, c.packetQ = [p] ∧ p.isRetrans = true
  answered : c.state = .synRcvd ∨ base ≤ c.lastByteAcked.toNat
  finRcvd : c.isFINRcvd = false

namespace Closing
variable {base n : ℕ} {c c' : DtpContext} {p : DtpPkt} {q : List DtpPkt}

theorem synRcvd_of_slips : ∀ {s s' : SockState}, s.slips s' = true → s'.awaitsFIN = true → s = .synRcvd →
    s' = .synRcvd := by decide

variable (h : Closing base n c)
include h

theorem of_quiet (hq : Quiet c c') (hs : c'.state.awaitsFIN = true) : Closing base n c' := by
  constructor
  · exact hq.sendOrder h.order
  · rw [hq.packetQ, hq.acked, hq.sent]
    exact h.tiles
  · rw [hq.packetQ]
    exact h.empty
  · rw [hq.packetQ, hq.acked, hq.finSent]
    exact h.queued
  · rw [hq.congested, hq.packetQ]
    exact h.lone
  · rw [hq.acked]
    exact h.answered.imp_left (synRcvd_of_slips hq.state hs)
  · cases hq.finRcvd with
    | inl heq => exact heq.trans h.finRcvd
    | inr hoff => exact absurd (hoff.symm.trans hs) Bool.false_ne_true

theorem sent_le (hf : c.isFINSent = false) : c.lastByteSent.toNat ≤ n := by
  have hw := h.order.written
  have hs := h.order.sent_le
  rw [hf, Bool.toNat_false] at hw
  omega

theorem acked_le (hf : c.isFINSent = false) : c.lastByteAcked.toNat ≤ n :=
  h.order.acked_le.trans (h.sent_le hf)

/-! ## `DTPWriteAvail` -/

theorem writeOne (hc : c.isCongested = false) (hf : c.isFINSent = false)
    (hs : c.state ≠ .synSent) {f : Flags} (hfin : f.fin = false) {l : ℤ} (hpos : 0 < l)
    (hle : l ≤ (c.lastByteWritten.toNat : ℤ) - c.lastByteSent.toNat) : Closing base n (c.writeOne f l) := by
  obtain ⟨hw0, hw1⟩ := writeLen_bounds (f := f) h.order.localID hs hpos
  have hw := h.order.written
  rw [hf, Bool.toNat_false, Nat.add_zero] at hw
  have hsmall := h.order.small'
  have hend : c.lastByteSent.toNat + (c.writeLen f l).toNat ≤ n := by omega
  have hsent : (c.writeOne f l).lastByteSent.toNat = c.lastByteSent.toNat + (c.writeLen f l).toNat :=
    toNat_add_u32 hw0.le (by omega)
  constructor
  · exact h.order.writeOne hf hs hfin hpos hle
  · intro ha
    have ht := h.tiles ha
    rw [min_eq_left (h.sent_le hf)] at ht
    rw [min_eq_left (hsent.trans_le hend)]
    exact tiles_writeOne ht hsent
  · intro p hp
    cases List.mem_append.mp hp with
    | inl hmem => exact h.empty p hmem
    | inr hmem =>
      rw [List.mem_singleton.mp hmem, fin_writePkt, hfin, payloadLen_writePkt]
      simp only [Bool.false_eq_true, false_iff]
      omega
  · exact fun hf' => absurd (hf.symm.trans hf') Bool.false_ne_true
  · exact fun hc' => absurd (hc.symm.trans hc') Bool.false_ne_true
  · exact h.answered
  · exact h.finRcvd

theorem dtpSendFINPacket (hf : c.isFINSent = false) (hclose : c.closeCalled = true)
    (hc : c.isCongested = false) (heq : c.lastByteSent = c.lastByteWritten) : Closing base n c.dtpSendFINPacket := by
  have ho := h.order.dtpSendFINPacket hf hclose hc heq
  have hw := h.order.written
  rw [hf, Bool.toNat_false, Nat.add_zero] at hw
  have hsent : c.lastByteSent.toNat = n := by rw [heq, hw]
  have hpast : n ≤ c.dtpSendFINPacket.lastByteSent.toNat := by
    have hlast : c.dtpSendFINPacket.lastByteSent = c.dtpSendFINPacket.lastByteWritten := by
      change c.lastByteSent + 1 = c.lastByteWritten + 1
      rw [heq]
    rw [hlast, ho.written]
    exact Nat.le_add_right _ _
  constructor
  · exact ho
  · intro ha
    have ht := h.tiles ha
    rw [hsent, min_self] at ht
    have hfin : c.finPkt.ival.hi = n := hi_finPkt.trans hsent
    rw [min_eq_right hpast, ← hfin]
    change Tiles ((c.packetQ ++ [c.finPkt]).map DtpPkt.ival) _ _
    rw [List.map_append]
    exact ht.concat hsent (Nat.le_add_right _ _)
  · intro p hp
    cases List.mem_append.mp hp with
    | inl hmem => exact h.empty p hmem
    | inr hmem =>
      rw [List.mem_singleton.mp hmem, payloadLen_finPkt]
      exact iff_of_true rfl rfl
  · exact fun _ _ => ⟨c.finPkt, List.mem_append_right _ List.mem_cons_self, rfl⟩
  · exact fun hc' => absurd (hc.symm.trans hc') Bool.false_ne_true
  · change finState c.state = .synRcvd ∨ _
    rcases h.answered with hs | hbase
    · rw [hs]
      exact .inl rfl
    · exact .inr hbase
  · exact h.finRcvd

theorem writeFlush : Closing base n (c.writeFlush fun _ => true).1 := by
  refine SendOrder.writeFlush_rule (P := Closing base n) (fun h => h.order) ?_
    (fun h => { h with order := h.order.of_view rfl id }) h
  intro c f l h hc hf hs hfin hpos hle
  exact h.writeOne hc hf hs hfin hpos hle

/-- Not having heard the peer's FIN, `DTPWriteAvail` sends its own after all data. -/
theorem dtpWriteAvail : Closing base n c.dtpWriteAvail := by
  have hframe := FlushFrame.writeFlush (fun _ => true) c
  obtain heq | ⟨heq, hwant, hc⟩ := dtpWriteAvail_cases c
  · rw [heq]
    exact h.writeFlush
  · rw [heq]
    simp only [wantsFIN, Bool.and_eq_true, Bool.or_eq_true, Bool.not_eq_true', decide_eq_true_eq] at hwant
    obtain ⟨⟨hclose, hf⟩, hrcvd | hall⟩ := hwant
    · exact absurd (h.writeFlush.finRcvd.symm.trans hrcvd) Bool.false_ne_true
    · exact h.writeFlush.dtpSendFINPacket hf hclose (hframe.congested.trans hc) hall

end Closing

/-! ## Acknowledgements -/

namespace Closing
variable {base n : ℕ} {c c' : DtpContext} {p : DtpPkt} {q : List DtpPkt} {a : UInt32} {w : UInt16}

section
variable (h : Closing base n c)
include h

theorem packetQ_of_lt (hlt : n < c.lastByteAcked.toNat) : c.packetQ = [] := by
  refine List.eq_nil_iff_forall_not_mem.mpr fun p hp => ?_
  have hhi := (h.order.queue.sound p hp).hi_le
  have hlo := (h.order.queue.bounds p hp).1
  omega

/-- Moving the acknowledged offset and cutting the queue there. -/
theorem shiftRemove (h0 : c.lastByteAcked.toNat ≤ a.toNat) (h1 : a.toNat ≤ c.lastByteWritten.toNat)
    (hb : base ≤ a.toNat) : Closing base n ((c.shiftAcked a).removePacket a) := by
  have hsent := toNat_shiftAcked_sent (c := c) (a := a)
  have hsound := h.order.queue.sound
  have hsmall := h.order.small'
  have hempty : ∀ p ∈ c.packetQ, p.header.hdr.fin = true → p.payloadLen = 0 :=
    fun p hp hf => (h.empty p hp).mp hf
  constructor
  · exact h.order.shiftRemove h0 h1
  · intro ha
    change a.toNat ≤ n at ha
    have ht := h.tiles (h0.trans ha)
    rw [packetQ_removePacket]
    change Tiles ((cutQueue a c.packetQ).rest.map DtpPkt.ival) (max a.toNat base)
      (min (c.shiftAcked a).lastByteSent.toNat n)
    rw [max_eq_left hb, hsent, min_max_distrib_right, min_eq_left ha]
    exact tiles_cut_max hsound hsmall hempty ht (max_le h0 hb)
  · rw [packetQ_removePacket]
    change ∀ p ∈ (cutQueue a c.packetQ).rest, _
    by_cases hacked : c.lastByteAcked.toNat ≤ n
    · exact empty_cut hsound hsmall h.empty (h.tiles hacked) (max_le h0 hb)
    · rw [h.packetQ_of_lt (by omega)]
      simp [cutQueue]
  · intro hf ha
    obtain ⟨p, hp, hfin⟩ := h.queued hf (h0.trans ha)
    rw [packetQ_removePacket]
    exact fin_mem_cut hsound hsmall hp hfin ha
  · exact lone_cut h.lone
  · exact .inr hb
  · exact h.finRcvd

theorem recordACK (h0 : c.lastByteAcked.toNat ≤ a.toNat)
    (h1 : a.toNat ≤ c.lastByteWritten.toNat) (hb : base ≤ a.toNat) : Closing base n (c.recordACK a) := by
  have hcut := h.shiftRemove h0 h1 hb
  have ho := h.order.recordACK h0 h1
  simp only [DtpContext.recordACK, creditACK, establish] at ho ⊢
  split_ifs at ho ⊢
  · exact { hcut with order := ho, answered := .inr hb }
  · exact { hcut with order := ho }
  · exact hcut

theorem mark (hq : c.packetQ = p :: q) : Closing base n (c.setQueue ({ p with isRetrans := true } :: q)) := by
  have ht := h.tiles
  have he := h.empty
  have hqd := h.queued
  rw [hq] at ht he hqd
  refine { h with order := h.order.mark hq, tiles := ht, empty := ?_, queued := ?_, lone := lone_mark (c := c) h.lone hq }
  · intro x hx
    cases List.mem_cons.mp hx with
    | inl heq => exact heq ▸ he p List.mem_cons_self
    | inr hmem => exact he x (List.mem_cons_of_mem p hmem)
  · intro hf ha
    obtain ⟨x, hx, hfin⟩ := hqd hf ha
    cases List.mem_cons.mp hx with
    | inl heq => exact ⟨_, List.mem_cons_self, heq ▸ hfin⟩
    | inr hmem => exact ⟨x, List.mem_cons_of_mem _ hmem, hfin⟩

/-! ## Timeouts -/

/-- Falling back to the first packet takes back a FIN behind it. -/
theorem fallBack (hq : c.packetQ = p :: q) :
    Closing base n ((c.fallBack p).pruneRest [{ p with isRetrans := true }] q) := by
  have ho := h.order.fallBack hq
  have hmem : p ∈ c.packetQ := hq ▸ List.mem_cons_self
  have hsound := h.order.queue.sound p hmem
  have hstop := hsound.toNat_stop h.order.small'
  have hstate : (c.fallBack p).state = c.state ∧ (c.fallBack p).isFINRcvd = c.isFINRcvd ∧
      (c.fallBack p).lastByteAcked = c.lastByteAcked ∧ (c.fallBack p).lastByteSent = p.stop := by
    rw [DtpContext.fallBack, unsendFIN]
    split_ifs <;> exact ⟨rfl, rfl, rfl, rfl⟩
  obtain ⟨hs, hrcvd, hacked, hsent⟩ := hstate
  constructor
  · exact ho
  · intro ha
    change (c.fallBack p).lastByteAcked.toNat ≤ n at ha
    rw [hacked] at ha
    obtain ⟨hseq, hle, -⟩ := (hq ▸ h.tiles ha : Tiles ((p :: q).map DtpPkt.ival) _ _)
    change Tiles [(p.ival : Ival ℕ)] (max (c.fallBack p).lastByteAcked.toNat base)
      (min (c.fallBack p).lastByteSent.toNat n)
    rw [hacked, hsent, hstop, min_eq_left hsound.hi_le]
    exact ⟨hseq, hle, rfl⟩
  · intro x hx
    rw [List.mem_singleton.mp hx]
    exact h.empty p hmem
  · intro hf _
    -- the FIN is still counted as sent, so it is the packet itself
    refine ⟨{ p with isRetrans := true }, List.mem_cons_self, ?_⟩
    exact ho.lone hf isCongested_fallBack _ List.mem_cons_self
  · exact fun _ => ⟨_, rfl, rfl⟩
  · change (c.fallBack p).state = _ ∨ base ≤ (c.fallBack p).lastByteAcked.toNat
    rw [hs, hacked]
    exact h.answered
  · exact hrcvd.trans h.finRcvd

theorem dtpSlowStart (hf : c.finInFlight) : Closing base n c.dtpSlowStart :=
  { h with
    order := h.order.dtpSlowStart hf
    lone := fun hc => (Bool.false_ne_true hc).elim }

/-! ## `dtp_send` and `dtp_close` -/

theorem copyBytes (data : List UInt8) (hf : c.isFINSent = false) {m : ℕ}
    (hm : (m : ℤ) ≤ c.getAvailWriteBufSize) (hrange : n + m + (c.closeCalled || c.isFINSent).toNat < 2147483648) :
    Closing base (n + m) (c.copyBytes data m) := by
  constructor
  · exact h.order.copyBytes data hf hm hrange
  · intro _
    have ht := h.tiles (h.acked_le hf)
    have hsent := h.sent_le hf
    change Tiles (c.packetQ.map DtpPkt.ival) (max c.lastByteAcked.toNat base) (min c.lastByteSent.toNat (n + m))
    rw [min_eq_left (by omega)]
    rwa [min_eq_left hsent] at ht
  · exact h.empty
  · exact fun hf' => absurd (hf.symm.trans hf') Bool.false_ne_true
  · exact h.lone
  · exact h.answered
  · exact h.finRcvd

theorem noteFull : Closing base n c.noteFull := by
  have ho := (Quiet.noteFull c).sendOrder h.order
  simp only [DtpContext.noteFull] at ho ⊢
  split_ifs at ho ⊢
  · exact { h with order := ho }
  · exact h

theorem dtpClose (hrange : n + 1 < 2147483648) (hs : c.dtpClose.1.state.awaitsFIN = true) :
    Closing base n c.dtpClose.1 := by
  have hcalled : Closing base n { c with closeCalled := true } := by
    refine { h with order := { h.order with small := ?_ } }
    change n + (true || c.isFINSent).toNat < _
    simpa using hrange
  simp only [DtpContext.dtpClose] at hs ⊢
  split_ifs at hs ⊢
  · exact h
  · exact { hcalled.dtpWriteAvail with order := hcalled.dtpWriteAvail.order.of_view rfl id }
  · exact hcalled.dtpWriteAvail
  · exact hcalled.of_quiet (.dtpCloseContext _) hs
  · exact hcalled

end

/-- Where a FIN is accepted it ends the state in which it is awaited. -/
theorem rule : SenderRule base (fun t => t.awaitsFIN = true) (fun _ => True)
    (fun s c => Closing base s.length c ∧ c.state.awaitsFIN = true) (fun s => Closing base s.length) where
  order h := h.1.order
  live h := h.2
  back := awaitsFIN_of_slips
  quiet h hq hs := ⟨h.1.of_quiet hq hs, hs⟩
  write h _ hs := ⟨h.dtpWriteAvail, hs⟩
  reopen h _ := { h.1 with order := h.1.order.of_view rfl id }
  record h _ h0 h1 hb := h.1.recordACK h0 h1 hb
  resume h hf := h.1.dtpSlowStart hf
  copy h hf hdata hroom hrange := by
    rw [List.length_append, List.length_take, min_eq_left hdata]
    exact (h.1.copyBytes _ hf hroom hrange).noteFull
  again h hp := ⟨{ h.1 with order := h.1.order.send _ (endsBy_retransDatagram (h.1.order.queue.sound _ hp)) }, h.2⟩
  mark h hq := ⟨h.1.mark hq, h.2⟩
  avoid h _ := ⟨{ h.1 with order := h.1.order.of_view rfl id }, h.2⟩
  fallBack h hq := by
    refine ⟨h.1.fallBack hq, ?_⟩
    change (DtpContext.fallBack _ _).state.awaitsFIN = true
    rw [DtpContext.fallBack, unsendFIN]
    split_ifs <;> exact h.2
  pruneAll h hc hall := (not_pruned h.1.lone hc hall).elim
  lastAck h hs _ _ _ := by
    have hawaits := h.2
    rw [hs] at hawaits
    cases hawaits
  accept {s c} h hwait hs := by
    have hfin : c.state = .finWait1 := by
      have hawaits := h.2
      cases hst : c.state <;> simp_all [SockState.awaitsFIN, inFinWait]
    rw [(packetQ_acceptFIN hfin).2] at hs
    cases hs

end Closing

/-! ## Runs -/

/-- A step that keeps the send side in order: of an event, that it is none of those which lose the order of the
offsets, that it heeds the opening, and that the sequence numbers stay below `2 ^ 31`; of a SYN of the flow, that it
names another host; of an option, that it sets no mark and leaves room for what is in the send buffer. -/
def ConnEvent.Regular (k : Crypto) (base : ℕ) (c : DtpContext) : ConnEvent → Prop
  | .own e => OrderlyOffsets k c e ∧ e.HeedsOpening base c ∧
      c.lastByteWritten.toNat + (e.accepted c).length + 1 < 2147483648
  | .syn _ _ hid _ _ => c.hostID ≠ hid
  | .option (.rcvLoBuf _ _) _ => False
  | .option (.sndBuf m) _ => 0 ≤ i32 (u32 (2 * m)) ∧
      c.lastByteWritten.toNat ≤ c.lastByteAcked.toNat + (i32 (u32 (2 * m))).toNat
  | .option _ _ => True

/-- The runs of a context whose steps all do. -/
def regularConnection (k : Crypto) (base : ℕ) (c₀ : DtpContext) : Machine DtpContext ConnEvent :=
  (connection k c₀).restrict fun c e => e.Regular k base c

/-- A context after its opening, which has queued nothing but data and heard nothing. -/
structure FreshFlow (base : ℕ) (opening : List UInt8) (c : DtpContext) : Prop extends
    FreshSender base opening c where
  filled : ∀ p ∈ c.packetQ, 0 < p.payloadLen
  finRcvd : c.isFINRcvd = false

section Runs
variable {k : Crypto} {base n : ℕ} {opening : List UInt8} {c₀ c : DtpContext}

theorem FreshFlow.closing (h : FreshFlow base opening c₀) : Closing base opening.length c₀ := by
  have hintact := h.toFreshSender.intact
  have hsent := hintact.sent_le
  constructor
  · exact h.sendOrder
  · intro _
    rw [min_eq_left hsent]
    exact hintact.tiles
  · intro p hp
    have hpos := h.filled p hp
    rw [(h.plain p hp).1]
    simp only [Bool.false_eq_true, false_iff]
    omega
  · exact fun hf => absurd (h.finSent.symm.trans hf) Bool.false_ne_true
  · exact hintact.lone
  · rcases h.acked with hacked | hacked
    · exact .inr hacked.ge
    · exact .inl hacked.1
  · exact h.finRcvd

theorem ConnEvent.awaitsFIN_of_apply {e : ConnEvent} (hs : (e.apply k c).state.awaitsFIN = true) :
    c.state.awaitsFIN = true := by
  cases e with
  | own e =>
    by_cases hsyn : c.state = .synSent
    · rw [hsyn]
      rfl
    · exact awaitsFIN_of_leads (Onward.apply k (.inl hsyn)).state hs
  | syn d addr hid key pad =>
    rw [← state_repeatSYN k.toRsa c d addr hid key pad]
    exact hs
  | option o env =>
    rw [← (dtpSetsockopt_frame c o env).2.2]
    exact hs

theorem Closing.setWriteBufLen (h : Closing base n c) {m : ℤ} (hpos : 0 ≤ i32 (u32 (2 * m)))
    (hroom : c.lastByteWritten.toNat ≤ c.lastByteAcked.toNat + (i32 (u32 (2 * m))).toNat) :
    Closing base n (c.setWriteBufLen m) := by
  have hlt : i32 (u32 (2 * m)) < 2147483648 := by
    have hword := toNat_lt_word (u32 (2 * m))
    simp only [i32]
    split_ifs <;> omega
  have hn : n ≤ c.lastByteWritten.toNat := by
    rw [h.order.written]
    exact Nat.le_add_right _ _
  exact { h with order := { h.order with bufLen := ⟨hpos, hlt⟩, buffered := hn.trans hroom } }

theorem Closing.dtpSetsockopt (h : Closing base n c) {o : SockOpt} {env : SockoptEnv}
    (hr : (ConnEvent.option o env).Regular k base c) : Closing base n (c.dtpSetsockopt o env).1 := by
  have hadj := adjusts_dtpSetsockopt c o env
  generalize (c.dtpSetsockopt o env).1 = c' at hadj ⊢
  cases hadj with
  | same => exact h
  | readLen m => exact { h with order := h.order.of_view rfl id }
  | writeLen m => exact h.setWriteBufLen hr.1 hr.2
  | marks high low => exact hr.elim
  | block m => exact { h with order := h.order.of_view rfl id }
  | tune => exact { h with order := h.order.of_view rfl id }

theorem Closing.step (h : Closing base n c) (hawaits : c.state.awaitsFIN = true) {e : ConnEvent}
    (he : (regularConnection k base c₀).allowed c e) (hs : (e.apply k c).state.awaitsFIN = true) :
    ∃ n, Closing base n (e.apply k c) := by
  obtain ⟨hoff, hr⟩ := he
  cases e with
  | own e =>
    obtain ⟨ho, hb, hrange⟩ := hr
    have hw := h.order.written
    have hflag := Bool.toNat_le (c.closeCalled || c.isFINSent)
    -- any stream of this length will do
    obtain ⟨stream, rfl⟩ : ∃ stream : List UInt8, n = stream.length :=
      ⟨List.replicate n 0, List.length_replicate.symm⟩
    refine ⟨_, (Closing.rule.apply ⟨h, hawaits⟩ hoff ho hb (fun _ _ => trivial) ?_ ?_ hs).1⟩
    · rintro rfl
      exact ⟨h.dtpClose (by omega) hs, hs⟩
    · exact fun _ => by omega
  | syn d addr hid key pad =>
    have hrst : c.repeatSYN k.toRsa d addr hid key pad = c.sendRSTPacket d.hdr.fid addr := if_neg hr
    refine ⟨n, ?_⟩
    change Closing base n (c.repeatSYN k.toRsa d addr hid key pad)
    rw [hrst]
    exact h.of_quiet (.sendRSTPacket h.order.localID _ addr) hawaits
  | option o env => exact ⟨n, h.dtpSetsockopt hr⟩

/-- Up to `FIN_WAIT_1` every state of such a run is closing. -/
theorem closing_of_reachable (h₀ : FreshFlow base opening c₀) (hc : (regularConnection k base c₀).Reachable c) :
    c.state.awaitsFIN = true → ∃ n, Closing base n c := by
  refine Machine.Reachable.invariant (P := fun c => c.state.awaitsFIN = true → ∃ n, Closing base n c) ?_ ?_ hc
  · intro c hinit _
    obtain rfl : c = c₀ := hinit
    exact ⟨_, h₀.closing⟩
  · intro c e ih he hs
    have hawaits := ConnEvent.awaitsFIN_of_apply hs
    obtain ⟨n, hclosing⟩ := ih hawaits
    exact hclosing.step hawaits he hs

/-- The first packet is the FIN when everything before it is acknowledged, and only then. -/
theorem Closing.freesOwnFIN_iff (h : Closing base n c) (hs : c.state = .finWait1) :
    FreesOwnFIN c ↔ c.isFINSent = true ∧ c.lastByteAcked + 1 = c.lastByteWritten := by
  have hbase : base ≤ c.lastByteAcked.toNat := by
    have hans := h.answered
    rw [hs] at hans
    simpa using hans
  have hw := h.order.written
  have hlt := h.order.written_lt
  have hacked := h.order.acked_le.trans h.order.sent_le
  have hone : (1 : UInt32).toNat = 1 := rfl
  constructor
  · rintro ⟨⟨p, hhead, hfin⟩, hnone⟩
    obtain ⟨q, hq⟩ : ∃ q, c.packetQ = p :: q := by
      cases hq : c.packetQ with
      | nil => simp [hq] at hhead
      | cons x q => exact ⟨q, by simpa [hq] using hhead⟩
    have hmem : p ∈ c.packetQ := hq ▸ List.mem_cons_self
    have hsent := h.order.finSent p hmem hfin
    have hend := (h.order.queue.sound p hmem).fin hfin
    have hlo := (h.order.queue.bounds p hmem).1
    obtain ⟨hseq, -, -⟩ := (hq ▸ h.tiles (by omega) : Tiles ((p :: q).map DtpPkt.ival) _ _)
    have hstart : p.seqNum.toNat = c.lastByteAcked.toNat := hseq.trans (max_eq_left hbase)
    rw [DtpPkt.hi, hnone p hmem, Int.toNat_zero, hstart] at hend
    rw [hsent, Bool.toNat_true] at hw
    refine ⟨hsent, UInt32.toNat_inj.mp ?_⟩
    rw [toNat_add_word (by omega), hone, hw]
    omega
  · rintro ⟨hsent, heq⟩
    have hnext : c.lastByteAcked.toNat + 1 = c.lastByteWritten.toNat := by
      rw [← heq, toNat_add_word (by omega), hone]
    rw [hsent, Bool.toNat_true] at hw
    have hall : c.lastByteAcked.toNat = n := by omega
    have ht := h.tiles hall.le
    have hnone : ∀ p ∈ c.packetQ, p.payloadLen = 0 := by
      intro p hp
      obtain ⟨hlo, -, hhi⟩ := ht.mem_bounds p.ival (List.mem_map_of_mem hp)
      change max c.lastByteAcked.toNat base ≤ p.seqNum.toNat at hlo
      change p.seqNum.toNat + p.payloadLen.toNat ≤ _ at hhi
      have hpay := (h.order.queue.sound p hp).payload
      omega
    refine ⟨?_, hnone⟩
    obtain ⟨x, hx, -⟩ := h.queued hsent hall.le
    cases hq : c.packetQ with
    | nil =>
      rw [hq] at hx
      cases hx
    | cons p q =>
      have hmem : p ∈ c.packetQ := hq ▸ List.mem_cons_self
      exact ⟨p, rfl, (h.empty p hmem).mpr (hnone p hmem)⟩

/-- **The peer's FIN removes our FIN.**  In `FIN_WAIT_1` each FIN that is accepted removes the first packet of the
queue; in runs of regular steps this is the FIN of this side, with no data in the queue, exactly when it counts as
sent and everything before it has been acknowledged. -/
theorem fin_frees_own_fin_iff (h₀ : FreshFlow base opening c₀)
    (hc : (regularConnection k base c₀).Reachable c) (hs : c.state = .finWait1) :
    (∀ h : DtpHdr, c.acceptsFIN h = true → (c.handleFINPacket h).packetQ = c.packetQ.tail ∧ FreesOwnFIN c) ↔
      c.isFINSent = true ∧ c.lastByteAcked + 1 = c.lastByteWritten := by
  obtain ⟨n, hclosing⟩ := closing_of_reachable h₀ hc (by rw [hs]; rfl)
  rw [← hclosing.freesOwnFIN_iff hs]
  constructor
  · intro hall
    -- a FIN that acknowledges all that is written is accepted
    refine (hall { peerFIN with ackSeq := c.lastByteWritten } ?_).2
    simp [acceptsFIN, ignoresFIN, inFinWait, hs]
  · intro hfree h ha
    exact ⟨(packetQ_handleFINPacket hs ha).1, hfree⟩

end Runs

/-! ## Three runs -/

theorem sampleSender_freshFlow : FreshFlow 0 [] sampleSender where
  toFreshSender := sampleSender_fresh
  filled := by decide
  finRcvd := by decide

/-- Three bytes and the FIN are sent, and the bytes are acknowledged. -/
def ackedClose : List ConnEvent := [.own (.send [1, 2, 3]), .own .close, .own (.batch (ackOnly 3 2))]

theorem fin_frees_own_fin_acked :
    ∃ c, (regularConnection sampleCrypto 0 sampleSender).Reachable c ∧ c.state = .finWait1 ∧
      ∀ h : DtpHdr, c.acceptsFIN h = true → (c.handleFINPacket h).packetQ = c.packetQ.tail ∧ FreesOwnFIN c := by
  have hadm : (regularConnection sampleCrypto 0 sampleSender).Admits sampleSender ackedClose := by
    refine ⟨⟨trivial, ?_, trivial, ?_⟩, ⟨trivial, fun _ => rfl, trivial, ?_⟩, ⟨?_, ?_, ?_, ?_⟩, trivial⟩
    · change sampleSender.isFINSent = true → _
      decide +kernel
    · decide +kernel
    · decide +kernel
    · exact ⟨by decide +kernel, by decide +kernel⟩
    · rintro ackNum window ⟨⟩ -
      decide +kernel
    · rintro ackNum window ⟨⟩ hlt
      exact absurd hlt (Nat.not_lt_zero _)
    · decide +kernel
  have hrun := Machine.Reachable.run (.init rfl) hadm
  have hstate : ((regularConnection sampleCrypto 0 sampleSender).run sampleSender ackedClose).state =
      .finWait1 := by decide +kernel
  refine ⟨_, hrun, hstate, (fin_frees_own_fin_iff sampleSender_freshFlow hrun hstate).mpr ⟨?_, ?_⟩⟩
  · decide +kernel
  · decide +kernel

/-- Three bytes and the FIN are sent. -/
def unackedClose : List ConnEvent := [.own (.send [1, 2, 3]), .own .close]

/-- Two bytes and the FIN are sent, the first byte times out, and its ACK closes the window. -/
def blockedClose : List ConnEvent :=
  [.own (.send [1]), .own (.send [2]), .own .close, .own (.timeout firstExpired), .own (.batch (ackOnly 1 0))]

/-- The ACK of everything comes with the peer's FIN, which then frees the data; and when a timeout has taken the FIN
back there may be nothing to free. -/
theorem fin_frees_data :
    (∃ c, (connection sampleCrypto sampleSender).Reachable c ∧ c.state = .finWait1 ∧
      c.acceptsFIN { peerFIN with ackSeq := 4 } = true ∧
      (∃ p, c.packetQ.head? = some p ∧ p.header.hdr.fin = false ∧ p.payloadLen = 3) ∧ ¬FreesOwnFIN c) ∧
    ∃ c, (connection sampleCrypto sampleSender).Reachable c ∧ c.state = .finWait1 ∧
      c.acceptsFIN { peerFIN with ackSeq := 2 } = true ∧ c.packetQ = [] ∧ ¬FreesOwnFIN c := by
  constructor
  · have hadm : (connection sampleCrypto sampleSender).Admits sampleSender unackedClose :=
      ⟨trivial, trivial, trivial⟩
    have hrun := Machine.Reachable.run (.init rfl) hadm
    have hdata : ∃ p ∈ ((connection sampleCrypto sampleSender).run sampleSender unackedClose).packetQ.head?,
        p.header.hdr.fin = false ∧ p.payloadLen = 3 := by decide +kernel
    obtain ⟨p, hp, hfin, hlen⟩ := hdata
    refine ⟨_, hrun, by decide +kernel, by decide +kernel, ⟨p, hp, hfin, hlen⟩, ?_⟩
    intro hfree
    have hzero := hfree.noData p (List.mem_of_mem_head? hp)
    omega
  · have hadm : (connection sampleCrypto sampleSender).Admits sampleSender blockedClose :=
      ⟨trivial, trivial, trivial, trivial, ⟨by decide +kernel, by decide +kernel⟩, trivial⟩
    have hrun := Machine.Reachable.run (.init rfl) hadm
    have hlen : ((connection sampleCrypto sampleSender).run sampleSender blockedClose).packetQ.length = 0 := by
      decide +kernel
    have hnil := List.length_eq_zero_iff.mp hlen
    refine ⟨_, hrun, by decide +kernel, by decide +kernel, hnil, ?_⟩
    rintro ⟨⟨p, hp, -⟩, -⟩
    rw [hnil] at hp
    cases hp

end Cedos.Dtp
