import Cedos.Dtp.SendRule

/-!
# Send offsets across close

The invariant of `Cedos.Dtp.SendOrder` for every event, and what the four places are
where the code loses it.

An ACK for a FIN that a timeout has taken back moves `tc_lastByteSent` above
`tc_lastByteWritten`. An address migration while a FIN has timed out clears
`tc_isCongested` and makes `DTPWriteAvail` send the FIN's sequence number as a data
byte. A received FIN makes `DTPWriteAvail` send its own before the data that is left.
And `dtp_send` in `SYN_RCVD` accepts data after the FIN. The runs of `closingSender` have
none of these steps, and in them the offsets stay in order.
-/

namespace Cedos.Dtp

open DtpContext

/-! ## Room for the data before the FIN -/

/-- `DTPWriteAvail` gets to its loop. -/
def DtpContext.mayWrite (x : DtpContext) : Bool :=
  x.isNetConnected && !x.isCongested && !(x.wantsSYN && x.isSYNSent)

/-- The peer's window and the congestion window have room for all that is left. -/
def DtpContext.Fits (x : DtpContext) : Prop :=
  let unsent := (x.lastByteWritten - x.lastByteSent).toNat
  unsent = 0 ∨ (unsent < 2147483648 ∧ unsent ≤ (x.rcvWindow - (x.lastByteSent - x.lastByteAcked)).toNat ∧
    (unsent : ℤ) ≤ x.cwnd - x.segSent)

instance (x : DtpContext) : Decidable x.Fits := inferInstanceAs (Decidable (_ ∨ _))

/-- Called after the peer's FIN to send its own, `DTPWriteAvail` finds room for what is
left. -/
def DrainsBeforeFIN (x : DtpContext) : Prop :=
  x.isFINRcvd = true → x.closeCalled = true → x.isFINSent = false → x.mayWrite = true → x.Fits

instance (x : DtpContext) : Decidable (DrainsBeforeFIN x) := inferInstanceAs (Decidable (_ → _))

section Loop
variable {c x : DtpContext} {f : Flags} {l : ℤ}

/-- After `dtp_close` the loop waits for nothing and sends all it may. -/
theorem writeLoop_closed (hid : c.localID.length = sha1DigestLength) (hs : c.state ≠ .synSent)
    (hclose : c.closeCalled = true) {fuel : ℕ} (hfuel : l.toNat ≤ fuel) (k : ℕ) :
    (writeLoop (fun _ => true) fuel k f l c).1.lastByteSent = c.lastByteSent + u32 (max 0 l) ∧
      (writeLoop (fun _ => true) fuel k f l c).2 = true := by
  have hnone (hl : l ≤ 0) : c.lastByteSent = c.lastByteSent + u32 (max 0 l) := by
    rw [max_eq_left hl]
    simp [u32]
  induction fuel generalizing k f l c with
  | zero => exact ⟨hnone (by omega), rfl⟩
  | succ fuel ih =>
    simp only [writeLoop, Bool.not_true, Bool.false_eq_true, if_false, hs]
    by_cases hg : c.writeGuard l = true
    · have hpos := pos_of_writeGuard hg
      obtain ⟨hwpos, hwmax⟩ := writeLen_bounds (f := f) hid hs hpos
      have hnext := ih (c := c.writeOne f l) (f := laterFlags f) (l := l - c.writeLen f l) hid hs hclose
        (by omega) (k + 1) ?_
      · simp only [hg, Bool.not_true, Bool.false_eq_true, if_false]
        refine ⟨hnext.1.trans ?_, hnext.2⟩
        change c.lastByteSent + u32 (c.writeLen f l) + u32 (max 0 (l - c.writeLen f l)) = _
        rw [max_eq_right (by omega), max_eq_right (by omega), UInt32.add_assoc, u32_add_u32]
        congr 2
        omega
      · intro hl
        rw [max_eq_left hl]
        simp [u32]
    · have hl : l ≤ 0 := by
        by_contra hl
        simp [writeGuard, hclose, show 0 < l by omega] at hg
      simp only [hg, Bool.not_false, if_true, and_true]
      exact hnone hl

/-- What `DTPWriteAvail` sends after `dtp_close`. -/
theorem writeFlush_closed (hid : x.localID.length = sha1DigestLength) (hs : x.state ≠ .synSent)
    (hclose : x.closeCalled = true) (hmay : x.mayWrite = true) : (x.writeFlush fun _ => true).1.lastByteSent =
    x.lastByteSent + u32 (max 0 x.sendLen) ∧ (x.writeFlush fun _ => true).2 = true := by
  simp only [mayWrite, Bool.and_eq_true, Bool.not_eq_true'] at hmay
  have hgo : (x.writeFlush fun _ => true) =
      writeLoop (fun _ => true) x.sendLen.toNat 0 x.writeFlags x.sendLen x.beginWrite := by
    simp [writeFlush, hmay.1.1, hmay.1.2, hmay.2]
  rw [hgo]
  exact writeLoop_closed (c := x.beginWrite) hid hs hclose le_rfl 0

/-- The loop sends everything just when there is room for it. -/
theorem sent_all_iff (hid : x.localID.length = sha1DigestLength) (hs : x.state ≠ .synSent)
    (hclose : x.closeCalled = true) (hmay : x.mayWrite = true) :
    (x.writeFlush fun _ => true).1.lastByteSent = x.lastByteWritten ↔ x.Fits := by
  rw [(writeFlush_closed hid hs hclose hmay).1]
  have hsum : x.lastByteSent + u32 (max 0 x.sendLen) = x.lastByteWritten ↔
      u32 (max 0 x.sendLen) = x.lastByteWritten - x.lastByteSent := by
    constructor
    · intro h
      rw [← h, UInt32.add_comm, UInt32.add_sub_cancel]
    · intro h
      rw [h, UInt32.add_comm, UInt32.sub_add_cancel]
  rw [hsum, Fits, sendLen]
  have hunsent := toNat_lt_word (x.lastByteWritten - x.lastByteSent)
  have hroom := toNat_lt_word (x.rcvWindow - (x.lastByteSent - x.lastByteAcked))
  generalize x.lastByteWritten - x.lastByteSent = u at *
  generalize x.rcvWindow - (x.lastByteSent - x.lastByteAcked) = w at *
  rw [u32_i32]
  have hmin := toNat_min u w
  generalize min u w = m at hmin
  have hm := toNat_lt_word m
  have hsmall : i32 m < 2147483648 := by
    simp only [i32]
    split_ifs <;> omega
  rw [← UInt32.toNat_inj, toNat_u32 (by omega) (by omega)]
  by_cases hlow : m.toNat < 2147483648
  · rw [i32_of_lt hlow]
    omega
  · rw [i32_of_ge (by omega)]
    omega

theorem mayWrite_of_writeFlush (h : (x.writeFlush fun _ => true).2 = true) : x.mayWrite = true := by
  simp only [writeFlush] at h
  split_ifs at h with h0 h1
  simp only [Bool.or_eq_true, Bool.not_eq_true', not_or, Bool.not_eq_false, Bool.not_eq_true] at h0
  simp only [mayWrite, h0.1, h0.2, Bool.not_false, Bool.and_true, Bool.true_and, Bool.not_eq_true']
  exact Bool.eq_false_iff.mpr h1

/-- `DTPWriteAvail` sends the FIN: why, and what of it was decided before the call. -/
theorem sendsFIN_cases (h : x.sendsFIN = true) :
    x.mayWrite = true ∧ x.closeCalled = true ∧ x.isFINSent = false ∧
      (x.isFINRcvd = true ∨ (x.writeFlush fun _ => true).1.lastByteSent =
        (x.writeFlush fun _ => true).1.lastByteWritten) := by
  have hlife := (FlushFrame.writeFlush (fun _ => true) x).lifecycle
  simp only [sendsFIN, wantsFIN, Bool.and_eq_true, Bool.or_eq_true, Bool.not_eq_true', decide_eq_true_eq] at h
  obtain ⟨hdone, ⟨hclose, hfin⟩, hwhy⟩ := h
  refine ⟨mayWrite_of_writeFlush hdone, ?_, ?_, ?_⟩
  · exact (congrArg Lifecycle.closeCalled hlife).symm.trans hclose
  · exact (congrArg Lifecycle.isFINSent hlife).symm.trans hfin
  · rcases hwhy with hrcvd | hall
    · exact .inl ((congrArg Lifecycle.isFINRcvd hlife).symm.trans hrcvd)
    · exact .inr hall

/-- The FIN comes after the data when there is room for it. -/
theorem finAfterData_of_drains (hid : x.localID.length = sha1DigestLength)
    (hs : x.mayWrite = true → x.state ≠ .synSent) (h : DrainsBeforeFIN x) : FinAfterData x := by
  intro hsends
  obtain ⟨hmay, hclose, hfin, hrcvd | hall⟩ := sendsFIN_cases hsends
  · rw [(FlushFrame.writeFlush (fun _ => true) x).written]
    exact (sent_all_iff hid (hs hmay) hclose hmay).mpr (h hrcvd hclose hfin hmay)
  · exact hall

end Loop

/-! ## The steps of the rule -/

section Ends
variable {n : ℕ} {c : DtpContext}

namespace SendOrder

theorem freeFirst (h : SendOrder n c) : SendOrder n c.freeFirst := by
  rw [DtpContext.freeFirst]
  split
  · exact h.of_view rfl id
  · rename_i p q hq
    exact (h.dropFirst hq).of_view rfl id

/-- In `FIN_WAIT_1` the first packet is freed with the FIN. -/
theorem acceptFIN (h : SendOrder n c) (hwait : c.inFinWait = true) : SendOrder n c.acceptFIN := by
  have hacked : SendOrder n c.dtpSendACKPacket := (Quiet.of_act (.ack c) (by decide)).sendOrder h
  have hstate : c.dtpSendACKPacket.noteFIN.state ≠ .synSent ∧ c.dtpSendACKPacket.noteFIN.state ≠ .closeWait ∧
      c.dtpSendACKPacket.noteFIN.inFinWait = true := by
    have hnoted : c.dtpSendACKPacket.noteFIN.state = if c.state = .established then .closeWait else c.state := rfl
    simp only [DtpContext.inFinWait, hnoted] at hwait ⊢
    cases hs : c.state <;> simp_all
  obtain ⟨hsyn, hclose, hnoted⟩ := hstate
  have hheard : SendOrder n c.dtpSendACKPacket.noteFIN := hacked.of_view rfl fun hs => absurd hs hsyn
  have htimed (x : DtpContext) (hx : SendOrder n x) :
      SendOrder n ({ x with state := .timeWait } : DtpContext).dtpCloseContext :=
    (Quiet.dtpCloseContext _).sendOrder (hx.of_view rfl fun hs => by cases hs)
  simp only [DtpContext.acceptFIN, DtpContext.enterTimeWait, hclose, hnoted, if_false, if_true]
  split_ifs
  · exact htimed _ hheard.freeFirst
  · exact htimed _ hheard

theorem dtpClose (h : SendOrder n c) (hrange : n + 1 < 2147483648)
    (hfin : ∀ x, Event.close.flush k c = some x → FinAfterData x) : SendOrder n c.dtpClose.1 := by
  have hcalled : SendOrder n { c with closeCalled := true } := by
    refine { h with small := ?_ }
    change n + (true || c.isFINSent).toNat < _
    simpa using hrange
  simp only [Event.flush] at hfin
  simp only [DtpContext.dtpClose]
  split_ifs with hact hopen
  · exact h
  · exact (hcalled.dtpWriteAvail (hfin _ (if_pos (by simp_all)))).of_view rfl id
  · exact hcalled.dtpWriteAvail (hfin _ (if_pos (by simp_all)))
  · exact (Quiet.dtpCloseContext _).sendOrder hcalled
  · exact hcalled

theorem lastAck (h : SendOrder n c) {p : DtpPkt} {q : List DtpPkt} (hq : c.packetQ = p :: q) {c' : DtpContext}
    (hc' : c' = (c.prunePacket p q).expire ∨ c' = { c with packetQ := q, state := .closed }) : SendOrder n c' := by
  rcases hc' with rfl | rfl
  · exact (Quiet.of_acts (Acts.expire _) (by decide)).sendOrder (h.prunePacket hq)
  · exact (h.dropFirst hq).of_view rfl fun hs => by cases hs

/-- The order of the send offsets, where the FIN comes last. -/
theorem rule : SenderRule 0 (fun _ => True) FinAfterData
    (fun s => SendOrder s.length) (fun s => SendOrder s.length) where
  order := id
  live _ := trivial
  back _ := id
  quiet h hq _ := hq.sendOrder h
  write h hfin _ := h.dtpWriteAvail hfin
  reopen h _ := h.of_view rfl id
  record h _ h0 h1 _ := h.recordACK h0 h1
  resume h hf := h.dtpSlowStart hf
  copy h hf hdata hroom hrange := by
    rw [List.length_append, List.length_take, min_eq_left hdata]
    exact (h.copyBytes _ hf hroom hrange).of_view sendView_noteFull fun hs => state_noteFull.symm.trans hs
  again h hp := h.send _ (endsBy_retransDatagram (h.queue.sound _ hp))
  mark h hq := h.mark hq
  avoid h _ := h.of_view rfl id
  fallBack h hq := h.fallBack hq
  pruneAll h _ _ := h.pruneAll
  lastAck h _ hq hc' _ := h.lastAck hq hc'
  accept h hwait _ := h.acceptFIN hwait

end SendOrder
end Ends

/-! ## A fresh context -/

/-- A context on which nothing has been sent yet. -/
def sampleSender : DtpContext :=
  { DtpContext.dtpCreateContext with state := .established, recvWindowScale := 0 }

theorem sampleSender_fresh : FreshSender 0 [] sampleSender where
  state := by decide
  written := by decide
  sent := by decide
  acked := by decide
  small := by decide
  bufLen := by decide
  buffered := by decide
  tiles := rfl
  sound := by simp [sampleSender, dtpCreateContext, dtpSlowStart, useWindowScaleOf]
  plain := by decide
  bytes i hi := absurd hi.2 (Nat.not_lt_zero i)
  wire := by simp [sampleSender, dtpCreateContext, dtpSlowStart, useWindowScaleOf]
  closeCalled := by decide
  finSent := by decide
  congested := by decide
  synSent := by decide
  opening := by decide
  connected := by decide
  ackInserted := by decide
  localID := by decide
  rcvLoBuf := by decide

/-- The first packet of the queue has timed out. -/
def firstExpired : TimerEnv where
  waitExpired := false
  keepAliveExpired := false
  persistExpired := false
  ifaceSet := false
  expired i := i == 0
  lastExpired _ := false

/-- An ACK and nothing else. -/
def ackOnly (ackNum : UInt32) (window : UInt16) : AdjPktInfo := ⟨some (ackNum, window), []⟩

/-! ## Runs -/

section Runs
variable {k : Crypto} {base n : ℕ} {opening : List UInt8} {c₀ c x : DtpContext} {e : Event}

/-- The runs of a sender in which the offsets stay in order and `DTPWriteAvail` finds room for
the data that is left when it sends the FIN after the peer's. -/
def closingSender (k : Crypto) (base : ℕ) (opening : List UInt8) (c₀ : DtpContext) :
    Machine Sending Event :=
  (sender k base opening c₀).restrict fun s e =>
    OrderlyOffsets k s.ctx e ∧ ∀ x, e.flush k s.ctx = some x → DrainsBeforeFIN x

instance (s : Sending) (e : Event) : Decidable ((closingSender k base opening c₀).allowed s e) :=
  inferInstanceAs (Decidable ((sender k base opening c₀).allowed s e ∧ OrderlyOffsets k s.ctx e ∧
    ∀ x ∈ e.flush k s.ctx, DrainsBeforeFIN x))

/-- Outside its opening a context that may write is not in `SYN_SENT`. -/
theorem SendOrder.flush_state (h : SendOrder n c) (hx : e.flush k c = some x) (hmay : x.mayWrite = true) :
    x.state ≠ .synSent := by
  intro hs
  have hstart := (apply_of_flush hx).2
  have hsend := h.opening (hstart.state hs)
  simp [mayWrite, wantsSYN, hs, hstart.sendSYN, hstart.isSYNSent, hsend, h.synSent hsend] at hmay

theorem SendOrder.finAfterData (h : SendOrder n c) (hx : e.flush k c = some x) (hd : DrainsBeforeFIN x) :
    FinAfterData x := by
  refine finAfterData_of_drains ?_ (h.flush_state hx) hd
  rw [(apply_of_flush hx).2.localID]
  exact h.localID

theorem SendOrder.step {s : Sending} (h : SendOrder s.stream.length s.ctx)
    (he : (closingSender k base opening c₀).allowed s e) :
    SendOrder ((closingSender k base opening c₀).apply s e).stream.length
      ((closingSender k base opening c₀).apply s e).ctx := by
  obtain ⟨⟨hoff, hpeer, hrange⟩, ho, hdrain⟩ := he
  have hfin : ∀ x, e.flush k s.ctx = some x → FinAfterData x := fun x hx => h.finAfterData hx (hdrain x hx)
  refine SendOrder.rule.apply h hoff ho ?_ hfin ?_ ?_ trivial
  · cases e with
    | rst d hid fid => exact hpeer
    | batch p => exact fun _ _ _ hlt => absurd hlt (Nat.not_lt_zero _)
    | _ => trivial
  · rintro rfl
    exact h.dtpClose hrange hfin
  · cases e <;> first | exact fun _ => hrange | exact fun hne => absurd rfl hne

theorem sendOrder_of_closing (h₀ : FreshSender base opening c₀) {s : Sending}
    (hs : (closingSender k base opening c₀).Reachable s) : SendOrder s.stream.length s.ctx := by
  refine Machine.Reachable.invariant (P := fun s => SendOrder s.stream.length s.ctx) ?_ ?_ hs
  · intro t ht
    obtain rfl : t = ⟨c₀, opening⟩ := ht
    exact h₀.sendOrder
  · intro t e ht he
    exact ht.step he

/-- **Send offsets across close.**  Whenever `dtp_close` is called, whatever is lost or
times out, and wherever the peer moves: in these runs the offsets are in order, and no
data packet reaches past what `dtp_send` has accepted. -/
theorem closing_order (h₀ : FreshSender base opening c₀) {s : Sending}
    (hs : (closingSender k base opening c₀).Reachable s) :
    s.ctx.lastByteAcked ≤ s.ctx.lastByteSent ∧ s.ctx.lastByteSent ≤ s.ctx.lastByteWritten ∧
      ∀ x ∈ s.ctx.wire, x.2.EndsBy s.stream.length := by
  have h := sendOrder_of_closing h₀ hs
  exact ⟨UInt32.le_iff_toNat_le.mpr h.acked_le, UInt32.le_iff_toNat_le.mpr h.sent_le, h.wire⟩

end Runs

/-- Three bytes and a FIN are sent, and both are acknowledged. -/
def quietClose : List Event :=
  [.send [1, 2, 3], .close, .batch (ackOnly 4 2)]

theorem closing_order_quiet :
    ∃ s, (closingSender sampleCrypto 0 [] sampleSender).Reachable s ∧
      s.ctx.state = .finWait2 ∧ s.ctx.lastByteSent ≤ s.ctx.lastByteWritten := by
  have hadm : (closingSender sampleCrypto 0 [] sampleSender).Admits ⟨sampleSender, []⟩ quietClose := by
    decide +kernel
  have hrun := Machine.Reachable.run (.init rfl) hadm
  exact ⟨_, hrun, by decide +kernel, (closing_order sampleSender_fresh hrun).2.1⟩

/-! ## A run that loses the order -/

/-- Three bytes and a FIN are sent, the data times out, and then the peer's ACK of both
arrives. -/
def lateAck : List Event :=
  [.send [1, 2, 3], .close, .timeout firstExpired, .batch (ackOnly 4 2)]

theorem late_ack_breaks_order :
    FreshSender 0 [] sampleSender ∧ ∃ s, (sender sampleCrypto 0 [] sampleSender).Reachable s ∧
        s.ctx.lastByteWritten < s.ctx.lastByteSent ∧ ∃ x ∈ s.ctx.wire, ¬x.2.EndsBy s.stream.length := by
  have hadm : (sender sampleCrypto 0 [] sampleSender).Admits ⟨sampleSender, []⟩ lateAck := by
    decide +kernel
  refine ⟨sampleSender_fresh, _, Machine.Reachable.run (.init rfl) hadm, ?_, ?_⟩
  · decide +kernel
  · simp only [Datagram.EndsBy]
    decide +kernel

end Cedos.Dtp
