import Cedos.Dtp.SendIntegrity

/-!
# The sender does not stall

Two timers wake a sender when no ACK does: the retransmission timer runs while the queue
is not empty, and the persist timer while the peer's window is zero. As long as a
connection is established and bytes are unacknowledged, one of them is running.

`DTPWriteAvail` holds back data for four reasons: a timed-out packet, the peer's window,
the congestion window, and the wait for a full packet. The queue can be empty only when
none but the second of these applies: the congestion window never falls below one full
packet, and what counts against it is in the queue.
-/

namespace Cedos.Dtp

open DtpContext

/-- The windows leave room for a full packet, or the peer's window is known to be zero. -/
structure Flow (c : DtpContext) : Prop where
  writeBuf : 1452 ≤ c.writeBufLen
  readBuf : 0 < c.readBufLen ∧ c.readBufLen < 4294967296
  cwnd : 1452 ≤ c.cwnd
  inFlight : c.segSent ≤ queueLen c.packetQ
  window : c.isHerWindowZero = true ∨ 0 < c.rcvWindow
  opening : c.state = .synSent → c.packetQ ≠ []

/-- An established connection with an empty queue has sent everything or is probing the
peer's window. -/
structure Awake (c : DtpContext) : Prop extends Flow c where
  busy : c.state = .established → c.packetQ = [] → c.lastByteSent = c.lastByteWritten ∨ c.isHerWindowZero = true

/-- The fields these are about. -/
structure FlowView where
  writeBufLen : ℤ
  readBufLen : ℤ
  cwnd : ℤ
  segSent : ℤ
  packetQ : List DtpPkt
  isHerWindowZero : Bool
  rcvWindow : UInt32
  lastByteSent : UInt32
  lastByteWritten : UInt32

def DtpContext.flowView (c : DtpContext) : FlowView where
  writeBufLen := c.writeBufLen
  readBufLen := c.readBufLen
  cwnd := c.cwnd
  segSent := c.segSent
  packetQ := c.packetQ
  isHerWindowZero := c.isHerWindowZero
  rcvWindow := c.rcvWindow
  lastByteSent := c.lastByteSent
  lastByteWritten := c.lastByteWritten

section Views
variable {c c' : DtpContext}

theorem Flow.awake_of_cons (h : Flow c) (hq : c.packetQ ≠ []) : Awake c :=
  { h with busy := fun _ hnil => absurd hnil hq }

theorem Flow.of_view (h : Flow c) (hv : c'.flowView = c.flowView) (hs : c'.state = c.state) : Flow c' := by
  obtain ⟨h1, h2, h3, h4, h5, h6, h7, -, -⟩ := FlowView.mk.inj hv
  refine ⟨h1 ▸ h.writeBuf, h2 ▸ h.readBuf, h3 ▸ h.cwnd, ?_, ?_, ?_⟩
  · rw [h4, h5]
    exact h.inFlight
  · rw [h6, h7]
    exact h.window
  · rw [hs, h5]
    exact h.opening

theorem established_of_slips : ∀ {s : SockState}, s.slips .established = true → s = .established ∨ s = .synSent := by
  decide

/-- The SYN is still in the queue when the connection is established. -/
theorem Awake.of_quiet (h : Awake c) (hq : Quiet c c') : Awake c' := by
  refine ⟨⟨?_, hq.readBufLen ▸ h.readBuf, hq.cwnd ▸ h.cwnd, ?_, hq.window h.window, ?_⟩, ?_⟩
  · exact hq.bufLen ▸ h.writeBuf
  · rw [hq.packetQ, hq.segSent]
    exact h.inFlight
  · intro hs
    rw [hq.packetQ]
    exact h.opening (synSent_of_slips hq.state hs)
  · intro hs hnil
    have hfrom := hq.state
    rw [hs] at hfrom
    rw [hq.packetQ] at hnil
    rw [hq.sent, hq.written]
    cases established_of_slips hfrom with
    | inl hest => exact (h.busy hest hnil).imp_right hq.zero
    | inr hsyn => exact absurd hnil (h.opening hsyn)

end Views

/-! ## `DTPWriteAvail` -/

section Write
variable {base : ℕ} {stream : List UInt8} {c : DtpContext} {f : Flags} {l : ℤ}

theorem Flow.writeOne (h : Flow c) : Flow (c.writeOne f l) := by
  have hq : (c.writeOne f l).packetQ = c.packetQ ++ [c.writePkt f l] := rfl
  refine ⟨h.writeBuf, h.readBuf, h.cwnd, ?_, h.window, ?_⟩
  · have hseg : (c.writeOne f l).segSent = c.segSent + c.writeLen f l := rfl
    have hle := h.inFlight
    rw [hseg, hq, queueLen_append, queueLen_cons, queueLen_nil, payloadLen_writePkt]
    omega
  · simp [hq]

/-- The loop keeps the windows open, and the queue only grows. -/
theorem Flow.writeLoop (h : Flow c) (fuel k : ℕ) : Flow (writeLoop (fun _ => true) fuel k f l c).1 ∧
    (c.packetQ ≠ [] → (writeLoop (fun _ => true) fuel k f l c).1.packetQ ≠ []) := by
  induction fuel generalizing k f l c with
  | zero => exact ⟨h, id⟩
  | succ fuel ih =>
    have hne : (c.writeOne f l).packetQ ≠ [] :=
      List.append_ne_nil_of_right_ne_nil _ (List.cons_ne_nil _ _)
    simp only [writeLoop, Bool.not_true, Bool.false_eq_true, if_false]
    split_ifs
    · exact ⟨h, id⟩
    · exact ⟨h.writeOne, fun _ => hne⟩
    · have hrest := ih (c := c.writeOne f l) (f := laterFlags f)
        (l := l - c.writeLen f l) h.writeOne (k + 1)
      exact ⟨hrest.1, fun _ => hrest.2 hne⟩

theorem Flow.writeFlush (h : Flow c) : Flow (c.writeFlush fun _ => true).1 ∧
    (c.packetQ ≠ [] → (c.writeFlush fun _ => true).1.packetQ ≠ []) := by
  have hbegin : Flow c.beginWrite :=
    ⟨h.writeBuf, h.readBuf, h.cwnd, h.inFlight, h.window, h.opening⟩
  simp only [DtpContext.writeFlush]
  split_ifs
  · exact ⟨h, id⟩
  · exact ⟨h, id⟩
  · exact hbegin.writeLoop _ _

/-- With nothing in flight and the peer's window open, a full packet or the whole rest
can go out. -/
theorem Flow.writeGuard (h : Flow c) (hi : Intact base stream c) (hq : c.packetQ = [])
    (hsent : c.lastByteSent = c.lastByteAcked) (hz : c.isHerWindowZero = false)
    (hne : c.lastByteSent ≠ c.lastByteWritten) : c.writeGuard c.sendLen = true := by
  have hle := hi.order.sent_le
  have hlt := hi.order.written_lt
  have hflight := h.inFlight
  have hcwnd := h.cwnd
  rw [hq, queueLen_nil] at hflight
  have hwin : 0 < c.rcvWindow.toNat := by
    have hpos := h.window.resolve_left fun ht => Bool.false_ne_true (hz.symm.trans ht)
    exact UInt32.lt_iff_toNat_lt.mp hpos
  have hun : c.lastByteSent.toNat ≠ c.lastByteWritten.toNat := fun heq =>
    hne (UInt32.toNat_inj.mp heq)
  have hunsent := i32_sub hlt (show c.lastByteSent.toNat < 2147483648 by omega)
  have hlen : c.sendLen = min (min ((c.lastByteWritten.toNat : ℤ) - c.lastByteSent.toNat)
      c.rcvWindow.toNat) (c.cwnd - c.segSent) := by
    have hzero : c.rcvWindow - (c.lastByteSent - c.lastByteAcked) = c.rcvWindow := by
      simp [hsent]
    have hmin : (min (u32 ((c.lastByteWritten.toNat : ℤ) - c.lastByteSent.toNat))
        c.rcvWindow).toNat = min (c.lastByteWritten.toNat - c.lastByteSent.toNat) c.rcvWindow.toNat := by
      rw [toNat_min, toNat_u32 (by omega) (by omega)]
      omega
    rw [DtpContext.sendLen, hunsent, hzero, i32_of_lt (by omega), hmin]
    omega
  have hdiff : (c.lastByteWritten - c.lastByteSent).toNat =
      c.lastByteWritten.toNat - c.lastByteSent.toNat := toNat_sub_word hle
  have h1452 : (1452 : UInt32).toNat = 1452 := rfl
  simp only [DtpContext.writeGuard, Bool.or_eq_true, Bool.and_eq_true, decide_eq_true_eq,
    UInt32.lt_iff_toNat_lt, hdiff, h1452, maxPayload, hi.closeCalled, Bool.false_eq_true,
    or_false, hlen, le_min_iff, lt_min_iff]
  omega

/-- The queue of an established connection that `DTPWriteAvail` leaves empty. -/
theorem Flow.sends (h : Flow c) (hi : Intact base stream c) (hs : c.state = .established) (hq : c.packetQ = [])
    (hz : c.isHerWindowZero = false) (hne : c.lastByteSent ≠ c.lastByteWritten) :
    (c.writeFlush fun _ => true).1.packetQ ≠ [] := by
  have hsent : c.lastByteSent = c.lastByteAcked := by
    have ht := hi.tiles
    have hans := hi.answered
    simp only [hs, reduceCtorEq, false_or] at hans
    rw [hq, max_eq_left hans] at ht
    exact (UInt32.toNat_inj.mp ht).symm
  have hguard := h.writeGuard hi hq hsent hz hne
  have hcong : c.isCongested = false := by
    cases hc : c.isCongested with
    | false => rfl
    | true =>
      obtain ⟨p, hp, -⟩ := hi.lone hc
      rw [hq] at hp
      cases hp
  have hsyn : c.wantsSYN = false := by simp [DtpContext.wantsSYN, hs]
  obtain ⟨n, hn⟩ : ∃ n, c.sendLen.toNat = n + 1 := by
    have hpos := pos_of_writeGuard hguard
    exact ⟨c.sendLen.toNat - 1, by omega⟩
  have hguard' : c.beginWrite.writeGuard c.sendLen = true := hguard
  have hstate : ¬c.beginWrite.state = .synSent := by
    rw [show c.beginWrite.state = c.state from rfl, hs]
    decide
  simp only [DtpContext.writeFlush, hi.order.connected, hcong, hsyn, hn, DtpContext.writeLoop,
    hguard', hstate, Bool.not_true, Bool.or_self, Bool.false_and, Bool.false_eq_true, if_false]
  have hbegin : Flow c.beginWrite :=
    ⟨h.writeBuf, h.readBuf, h.cwnd, h.inFlight, h.window, h.opening⟩
  exact (hbegin.writeOne.writeLoop n 1).2
    (List.append_ne_nil_of_right_ne_nil _ (List.cons_ne_nil _ _))

theorem Flow.dtpWriteAvail (h : Flow c) (hi : Intact base stream c) : Awake c.dtpWriteAvail := by
  have hafter := hi.dtpWriteAvail.tiles
  have hframe := FlushFrame.writeFlush (fun _ => true) c
  obtain ⟨hflow, hgrow⟩ := h.writeFlush
  rw [dtpWriteAvail_open hi.closeCalled] at hafter ⊢
  refine { hflow with busy := fun hs hnil => ?_ }
  rw [congrArg Lifecycle.state hframe.lifecycle] at hs
  have hq : c.packetQ = [] := by
    by_contra hne
    exact hgrow hne hnil
  have hsame : (c.writeFlush fun _ => true).1.lastByteSent = c.lastByteSent := by
    have hbefore := hi.tiles
    rw [hq] at hbefore
    rw [hnil, hframe.acked] at hafter
    exact UInt32.toNat_inj.mp (hafter.symm.trans hbefore)
  rw [hsame, hframe.written, congrArg PeerWindow.isHerWindowZero hframe.peerWindow]
  cases hz : c.isHerWindowZero with
  | true => exact Or.inr rfl
  | false =>
    left
    by_contra hne
    exact h.sends hi hs hq hz hne hnil

end Write

/-! ## `HandleACKPacket` -/

section Ack
variable {base : ℕ} {stream : List UInt8} {c : DtpContext} {p : DtpPkt} {q : List DtpPkt}
  {a : UInt32} {w : UInt16}

/-- The congestion window never falls below a full packet. -/
theorem le_cwnd_moveCongestionWindow (hb : 1452 ≤ c.writeBufLen) (hc : 1452 ≤ c.cwnd) {m : ℤ}
    (hm : 0 ≤ m) : 1452 ≤ (c.moveCongestionWindow m).cwnd := by
  have hgrow : ∀ x v : ℤ, 1452 ≤ v → 1452 ≤ if 0 < x then v + (x * mtu).tdiv v else v := by
    intro x v hv
    split_ifs with hx
    · have hpos : 0 ≤ (x * mtu).tdiv v := Int.tdiv_nonneg (by simp [mtu, hx.le]) (by omega)
      omega
    · exact hv
  have hslow : 1452 ≤ if decide (c.cwnd < c.ssthresh) = true then c.cwnd + m else c.cwnd := by
    split_ifs <;> omega
  have hcap : ∀ v : ℤ, 1452 ≤ v → 1452 ≤ if c.writeBufLen < v then c.writeBufLen else v := by
    intro v hv
    split_ifs
    · exact hb
    · exact hv
  exact hcap _ (hgrow _ _ hslow)

theorem Flow.creditACK (h : Flow c) {m : ℤ} (hm : 0 ≤ m) : Flow (c.creditACK m) := by
  have hcwnd := le_cwnd_moveCongestionWindow (c := c.establish) (m := m)
  simp only [DtpContext.creditACK, DtpContext.establish] at hcwnd ⊢
  split_ifs at hcwnd ⊢
  · exact ⟨h.writeBuf, h.readBuf, hcwnd h.writeBuf h.cwnd hm, h.inFlight, h.window, fun hs => by cases hs⟩
  · exact ⟨h.writeBuf, h.readBuf, hcwnd h.writeBuf h.cwnd hm, h.inFlight, h.window, h.opening⟩
  · exact h
  · exact h

theorem Flow.shiftRemove (h : Flow c) (hs : c.state ≠ .synSent) : Flow ((c.shiftAcked a).removePacket a) := by
  refine ⟨h.writeBuf, h.readBuf, h.cwnd, ?_, h.window, fun hs' => absurd hs' hs⟩
  have hle : (c.shiftAcked a).segSent ≤ queueLen (c.shiftAcked a).packetQ := h.inFlight
  rw [segSent_removePacket, packetQ_removePacket, removed_cutQueue]
  omega

end Ack

/-! ## Timeouts and address changes -/

section Timeout
variable {base : ℕ} {stream : List UInt8} {c : DtpContext} {p : DtpPkt} {q : List DtpPkt}

theorem Flow.fallBack (h : Flow c) (hf : c.isFINSent = false) (hq : c.packetQ = p :: q) :
    Flow ((c.fallBack p).pruneRest [{ p with isRetrans := true }] q) := by
  rw [fallBack_eq hf]
  refine ⟨h.writeBuf, h.readBuf, le_rfl, ?_, h.window, fun _ => List.cons_ne_nil _ _⟩
  change c.segSent - queueLen q ≤ queueLen [{ p with isRetrans := true }]
  have hle := h.inFlight
  rw [hq, queueLen_cons] at hle
  rw [queueLen_cons, queueLen_nil]
  simp only [DtpPkt.payloadLen] at hle ⊢
  omega

theorem Intact.queueLen_nonneg (hi : Intact base stream c) : 0 ≤ queueLen c.packetQ := by
  refine List.sum_nonneg ?_
  intro x hx
  obtain ⟨p, hp, rfl⟩ := List.mem_map.mp hx
  exact (hi.order.queue.sound p hp).payload

/-- A slow start forgets the peer's window and what is in flight. -/
theorem Flow.dtpSlowStart (h : Flow c) (hi : Intact base stream c) : Flow c.dtpSlowStart := by
  refine ⟨h.writeBuf, h.readBuf, le_rfl, hi.queueLen_nonneg, Or.inr ?_, h.opening⟩
  obtain ⟨h0, h1⟩ := h.readBuf
  change 0 < u32 c.readBufLen
  have hz : (0 : UInt32).toNat = 0 := rfl
  rw [UInt32.lt_iff_toNat_lt, toNat_u32 h0.le h1]
  omega

end Timeout

/-! ## Runs -/

section Runs
variable {k : Crypto} {base : ℕ} {opening : List UInt8} {c₀ : DtpContext}

theorem Awake.rule : SenderRule base (fun _ => True) (fun _ => True)
    (fun s c => Intact base s c ∧ Awake c) (fun s c => Intact base s c ∧ Flow c) where
  order h := h.1.order
  live _ := trivial
  back _ := id
  quiet h hq _ := ⟨h.1.of_quiet hq, h.2.of_quiet hq⟩
  write h _ _ := ⟨h.1.dtpWriteAvail, h.2.dtpWriteAvail h.1⟩
  reopen h hpos := ⟨Intact.rule.reopen h.1 hpos, { h.2.toFlow with window := Or.inr hpos }⟩
  record {s c a} h hs h0 h1 hb := by
    have hwritten := h.1.order.written_lt
    refine ⟨Intact.rule.record h.1 hs h0 h1 hb, (Flow.shiftRemove h.2.toFlow hs).creditACK ?_⟩
    rw [i32_sub (by omega) (by omega)]
    omega
  resume h hf := ⟨h.1.dtpSlowStart hf, h.2.toFlow.dtpSlowStart h.1⟩
  copy {s c data m} h hf hdata hroom hrange := by
    have hcopy : Flow (c.copyBytes data m) := { h.2.toFlow with }
    refine ⟨Intact.rule.copy h.1 hf hdata hroom hrange, hcopy.of_view ?_ state_noteFull⟩
    simp only [noteFull]
    split_ifs <;> rfl
  again h hp := ⟨Intact.rule.again h.1 hp, { h.2 with }⟩
  mark {s c p q} h hq := by
    have hle := h.2.inFlight
    rw [hq] at hle
    exact ⟨h.1.mark hq,
      Flow.awake_of_cons { h.2.toFlow with inFlight := hle, opening := fun _ => List.cons_ne_nil _ _ } (List.cons_ne_nil _ _)⟩
  avoid {s c} h hq := by
    have hcwnd : 1452 ≤ c.congestionAvoidance.cwnd := by
      simp only [congestionAvoidance, halvedWindow, mtu, hdrSize]
      split_ifs <;> omega
    exact ⟨Intact.rule.avoid h.1 hq, Flow.awake_of_cons { h.2.toFlow with cwnd := hcwnd } hq⟩
  fallBack h hq :=
    ⟨h.1.fallBack hq, (h.2.toFlow.fallBack h.1.finSent hq).awake_of_cons (List.cons_ne_nil _ _)⟩
  pruneAll h hc hall := (not_pruned h.1.lone hc hall).elim
  lastAck h hs _ _ _ := absurd hs h.1.not_ending.1
  accept h hwait _ := absurd (h.1.not_ending.2.symm.trans hwait) Bool.false_ne_true

theorem awake_of_reachable (h₀ : FreshSender base opening c₀) (hflow : Flow c₀) {s : Sending}
    (hs : (openSender k base opening c₀).Reachable s) : Intact base s.stream s.ctx ∧ Awake s.ctx := by
  refine Machine.Reachable.invariant
    (P := fun s => Intact base s.stream s.ctx ∧ Awake s.ctx) ?_ ?_ hs
  · intro t ht
    obtain rfl : t = ⟨c₀, opening⟩ := ht
    exact ⟨h₀.intact, { hflow with busy := fun _ _ => Or.inl h₀.sent }⟩
  · intro t e ht he
    exact Awake.rule.step_open ht ht.1 he

/-- **No silent stall.**  In every run without a close, while the connection is
established: as long as bytes are unacknowledged, the retransmission timer or the persist
timer is running. A congested sender has a packet to send again. -/
theorem sender_awake (h₀ : FreshSender base opening c₀) (hflow : Flow c₀) {s : Sending}
    (hs : (openSender k base opening c₀).Reachable s) (hest : s.ctx.state = .established) :
    (s.ctx.lastByteAcked < s.ctx.lastByteWritten → s.ctx.packetQ ≠ [] ∨ s.ctx.isHerWindowZero = true) ∧
    (s.ctx.isCongested = true → ∃ p q, s.ctx.packetQ = p :: q ∧ p.isRetrans = true) := by
  obtain ⟨hi, h⟩ := awake_of_reachable h₀ hflow hs
  constructor
  · intro hlt
    by_cases hq : s.ctx.packetQ = []
    · -- nothing is queued, so nothing is in flight
      have hans := hi.answered
      simp only [hest, reduceCtorEq, false_or] at hans
      have ht := hi.tiles
      rw [hq, max_eq_left hans] at ht
      have hsent : s.ctx.lastByteAcked = s.ctx.lastByteSent := UInt32.toNat_inj.mp ht
      obtain heq | hz := h.busy hest hq
      · rw [hsent, heq] at hlt
        exact absurd hlt (UInt32.lt_irrefl _)
      · exact Or.inr hz
    · exact Or.inl hq
  · intro hc
    obtain ⟨p, hq, hr⟩ := hi.lone hc
    exact ⟨p, [], hq, hr⟩

end Runs

/-! ## The default context -/

theorem sampleSender_flow : Flow sampleSender where
  writeBuf := by decide
  readBuf := by decide
  cwnd := by decide
  inFlight := by decide
  window := by decide
  opening := by decide

/-- The peer closes its window with its ACK, and more data is accepted. -/
def closedWindow : List Event :=
  [.send [1, 2, 3], .batch (ackOnly 3 0), .send [4, 5]]

def closedSender : Sending := (openSender sampleCrypto 0 [] sampleSender).run ⟨sampleSender, []⟩ closedWindow

theorem sender_awake_closed_window :
    ∃ s, (openSender sampleCrypto 0 [] sampleSender).Reachable s ∧ s.ctx.lastByteAcked < s.ctx.lastByteWritten ∧
      (s.ctx.packetQ ≠ [] ∨ s.ctx.isHerWindowZero = true) := by
  have hadm : (openSender sampleCrypto 0 [] sampleSender).Admits ⟨sampleSender, []⟩ closedWindow := by
    decide +kernel
  have hrun : (openSender sampleCrypto 0 [] sampleSender).Reachable closedSender := .run (.init rfl) hadm
  have hest : closedSender.ctx.state = .established := by decide +kernel
  have hlt : closedSender.ctx.lastByteAcked < closedSender.ctx.lastByteWritten := by decide +kernel
  exact ⟨_, hrun, hlt, (sender_awake sampleSender_fresh sampleSender_flow hrun hest).1 hlt⟩

end Cedos.Dtp
