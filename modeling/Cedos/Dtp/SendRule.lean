import Cedos.Dtp.Flush

/-!
# What the events do to the send side

Most of what a handler does leaves the send side alone: it answers with control packets, notes a
window, or opens or ends the connection. `Quiet` says what such a step can still change. The few
steps that are left are the obligations of `SenderRule`; whoever meets them has an invariant of all
events, by one walk through the handlers.
-/

namespace Cedos.Dtp

open DtpContext

/-! ## Steps that leave the send side alone -/

/-- The states in which a context has not heard the peer's FIN, and its own is not acknowledged. -/
def SockState.awaitsFIN : SockState → Bool
  | .synSent | .synRcvd | .established | .finWait1 => true
  | _ => false

/-- The states such a step can lead to. -/
def SockState.slips (s s' : SockState) : Bool :=
  s' == s || s' == .closed || (s == .synSent && s' == .established) ||
    ((s == .synSent || s == .established) && s' == .closeWait) || (s == .finWait1 && s' == .finWait2)

theorem slips_closed : ∀ s : SockState, s.slips .closed = true := by decide

theorem slips_trans : ∀ {s s' s'' : SockState}, s.slips s' = true → s'.slips s'' = true →
    s.slips s'' = true := by decide

theorem synSent_of_slips : ∀ {s s' : SockState}, s.slips s' = true → s' = .synSent → s = .synSent := by
  decide

theorem awaitsFIN_of_slips : ∀ {s s' : SockState}, s.slips s' = true → s'.awaitsFIN = true →
    s.awaitsFIN = true := by decide

/-- A step that sends control packets. It may hear of the peer's window and of the peer's FIN, and open or end the
connection. -/
structure Quiet (c c' : DtpContext) : Prop extends Replies c c' where
  congested : c'.isCongested = c.isCongested
  closeCalled : c'.closeCalled = true → c.closeCalled = true
  finSent : c'.isFINSent = c.isFINSent
  cwnd : c'.cwnd = c.cwnd
  segSent : c'.segSent = c.segSent
  sendSYN : c'.sendSYN = c.sendSYN ∨ (c'.sendSYN = false ∧ c'.state ≠ .synSent)
  finRcvd : c'.isFINRcvd = c.isFINRcvd ∨ c'.state.awaitsFIN = false
  state : c.state.slips c'.state = true

namespace Quiet
variable {c c' c'' : DtpContext} {n : ℕ}

theorem refl (c : DtpContext) : Quiet c c :=
  ⟨.refl c, rfl, id, rfl, rfl, rfl, Or.inl rfl, Or.inl rfl, by simp [SockState.slips]⟩

theorem trans (h : Quiet c c') (h' : Quiet c' c'') : Quiet c c'' where
  toReplies := h.toReplies.trans h'.toReplies
  congested := h'.congested.trans h.congested
  closeCalled hc := h.closeCalled (h'.closeCalled hc)
  finSent := h'.finSent.trans h.finSent
  cwnd := h'.cwnd.trans h.cwnd
  segSent := h'.segSent.trans h.segSent
  sendSYN := by
    rcases h'.sendSYN, h.sendSYN with ⟨heq | hoff, heq' | ⟨hoff', hs⟩⟩
    · exact Or.inl (heq.trans heq')
    · exact Or.inr ⟨heq.trans hoff', fun hs' => hs (synSent_of_slips h'.state hs')⟩
    · exact Or.inr hoff
    · exact Or.inr hoff
  finRcvd := by
    rcases h'.finRcvd, h.finRcvd with ⟨heq | hoff, heq' | hoff'⟩
    · exact Or.inl (heq.trans heq')
    · refine Or.inr (Bool.eq_false_iff.mpr fun hs => ?_)
      exact Bool.false_ne_true (hoff'.symm.trans (awaitsFIN_of_slips h'.state hs))
    · exact Or.inr hoff
    · exact Or.inr hoff
  state := slips_trans h.state h'.state

theorem send (c : DtpContext) (addr : SockAddr) {d : Datagram} (hd : d.Control c.lastByteSent) :
    Quiet c (c.send addr d) :=
  { refl c with toReplies := .send c addr hd }

theorem sendRSTPacket (hid : c.localID.length = sha1DigestLength) (fid : UInt32) (addr : SockAddr) :
    Quiet c (c.sendRSTPacket fid addr) := by
  refine send c addr (Or.inr (Or.inr ⟨rfl, ?_, ?_⟩))
  · exact payload_mkDatagram (wf_rstDatagram hid fid) []
  · exact UInt32.le_iff_toNat_le.mpr (Nat.zero_le _)

theorem noteAckWindow (c : DtpContext) (w : UInt16) : Quiet c (c.noteAckWindow w) :=
  { refl c with toReplies := { Replies.noteWindow c (scaledWindow w c.sendWindowScale) with } }

theorem dtpCloseContext (c : DtpContext) : Quiet c c.dtpCloseContext := by
  simp only [DtpContext.dtpCloseContext]
  split_ifs
  · exact { refl c with }
  · exact refl c
  · exact refl c
  · exact { refl c with closeCalled := fun h => (Bool.false_ne_true h).elim }

theorem noteFull (c : DtpContext) : Quiet c c.noteFull := by
  simp only [DtpContext.noteFull]
  split_ifs
  · exact { refl c with }
  · exact refl c

theorem of_recv (h : RecvFrame c c') : Quiet c c' where
  toReplies := h.toReplies
  congested := congrArg Congestion.isCongested h.congestion
  closeCalled hc := (congrArg Lifecycle.closeCalled h.lifecycle).symm.trans hc
  finSent := congrArg Lifecycle.isFINSent h.lifecycle
  cwnd := congrArg Congestion.cwnd h.congestion
  segSent := congrArg Congestion.segSent h.congestion
  sendSYN := by
    rw [h.state]
    exact h.sendSYN
  finRcvd := Or.inl (congrArg Lifecycle.isFINRcvd h.lifecycle)
  state := by
    rw [h.state]
    exact (refl c).state

/-- The acts that leave the send side alone, apart from those of the receive side. -/
def acts : List ActKind :=
  [.note, .ack, .probe, .auth, .backOff, .finAcked, .waits, .woken, .closes, .reset, .timedOut, .released,
    .challenge, .address, .adopted]

theorem of_act {k : ActKind} (h : Act k c c') (hk : k ∈ acts) : Quiet c c' := by
  -- a step to another state that otherwise only sets flags
  have hmoved {x : DtpContext} (hx : Quiet { c with state := x.state } x) (hs : c.state.slips x.state = true) :
      Quiet c x := { hx with state := hs }
  cases h with
  | note | backOff | waits | woken | forget | adopt | rebind | named => exact { refl c with }
  | ack => exact send c _ (control_mkDatagram rfl ..)
  | probe => exact send c _ (control_mkDatagram rfl ..)
  | auth => exact { send c c.peerAddr (control_mkDatagram rfl ..) with }
  | closes | reset | timedOut => exact hmoved { refl _ with } (slips_closed _)
  | finAcked hs => exact hmoved { refl _ with } (by simp [SockState.slips, hs])
  | adopted hs => exact hmoved { refl _ with } (by simp [SockState.slips, hs, adoptSYNACK])
  | released => exact dtpCloseContext c
  | challenge _ addr rnd =>
    have hmarked : Quiet c (c.markChallenge.freshNonce rnd) := { refl c with }
    exact hmarked.trans (send _ addr (Or.inl rfl))
  | respond _ hmac d =>
    have hstored : Quiet c (c.storeNonce d) := { refl c with }
    exact hstored.trans (send _ _ (Or.inr (Or.inl rfl)))
  | _ => exact absurd hk (by decide)

theorem of_acts {K : List ActKind} (h : Acts K c c') (hK : ∀ k ∈ K, k ∈ acts) : Quiet c c' :=
  h.invariant (P := Quiet c) (fun k hk _ _ ha hx => hx.trans (of_act ha (hK k hk))) (refl c)

/-- Outside `FIN_WAIT_1` and `FIN_WAIT_2` a FIN is acknowledged and noted. -/
theorem acceptFIN (hign : c.ignoresFIN = false) (hwait : c.inFinWait = false) : Quiet c c.acceptFIN := by
  have hstate : c.dtpSendACKPacket.noteFIN.state = if c.state = .established then .closeWait else c.state := rfl
  have hnoted : Quiet c c.dtpSendACKPacket.noteFIN := by
    refine { send c c.peerAddr (control_mkDatagram rfl ..) with sendSYN := Or.inl rfl, finRcvd := Or.inr ?_, state := ?_ }
    · rw [hstate]
      cases hs : c.state <;> simp_all [ignoresFIN, inFinWait, SockState.awaitsFIN]
    · rw [hstate]
      cases hs : c.state <;> simp_all [SockState.slips]
  have hopen : c.dtpSendACKPacket.noteFIN.inFinWait = false := by
    simp only [inFinWait, hstate] at hwait ⊢
    cases hs : c.state <;> simp_all
  simp only [DtpContext.acceptFIN, hopen, Bool.false_eq_true, if_false]
  split_ifs
  · exact { hnoted with }
  · exact hnoted

/-- The order of the send offsets does not see such a step. -/
theorem sendOrder (h : Quiet c c') (ho : SendOrder n c) : SendOrder n c' := by
  constructor
  · rw [h.written, h.finSent]; exact ho.written
  · have hsmall := ho.small
    rw [h.finSent]
    cases hc : c'.closeCalled with
    | false => exact lt_of_le_of_lt (Nat.add_le_add_left (Bool.toNat_le_toNat (Bool.right_le_or _ _)) n) hsmall
    | true => rwa [h.closeCalled hc] at hsmall
  · rw [h.acked, h.sent]; exact ho.acked_le
  · rw [h.sent, h.written]; exact ho.sent_le
  · rw [h.bufLen]; exact ho.bufLen
  · rw [h.acked, h.bufLen]; exact ho.buffered
  · rw [h.acked, h.sent, h.packetQ]; exact ho.queue
  · rw [h.packetQ, h.finSent]; exact ho.finSent
  · rw [h.finSent, h.congested, h.sent, h.written]; exact ho.flight
  · rw [h.finSent, h.congested, h.packetQ]; exact ho.lone
  · intro x hx
    cases h.wire x hx with
    | inl hmem => exact ho.wire x hmem
    | inr hctl => exact hctl.endsBy n
  · intro hsyn
    rw [h.isSYNSent]
    cases h.sendSYN with
    | inl heq => exact ho.synSent (heq.symm.trans hsyn)
    | inr hoff => exact absurd (hoff.1.symm.trans hsyn) Bool.false_ne_true
  · intro hs
    cases h.sendSYN with
    | inl heq => exact heq.trans (ho.opening (synSent_of_slips h.state hs))
    | inr hoff => exact absurd hs hoff.2
  · exact (congrArg Liveness.isNetConnected h.liveness).trans ho.connected
  · exact (congrArg Liveness.isACKInserted h.liveness).trans ho.ackInserted
  · rw [h.localID]; exact ho.localID
  · rw [h.rcvLoBuf]; exact ho.rcvLoBuf

end Quiet

/-- The acts that leave the connection state alone. -/
theorem state_of_acts {K : List ActKind} {c c' : DtpContext} (h : Acts K c c')
    (hK : ∀ k ∈ K, k ∈ Acts.resend ++ .opened :: Acts.receiving) : c'.state = c.state := by
  refine h.invariant (P := fun x => x.state = c.state) ?_ rfl
  intro k hk x y ha hx
  have hk' := hK k hk
  cases ha with
  | note | ack | segment | again | mark | dropACK | store | opened => exact hx
  | reconnect =>
    simp only [dtpReconnect]
    split <;> exact hx
  | _ => exact absurd hk' (by decide)

/-! ## The rule -/

/-- The ACK is not old, does not reopen the window and is not the third duplicate. -/
def DtpContext.Records (c : DtpContext) (ackNum : UInt32) (window : UInt16) : Prop :=
  c.lastByteAcked ≤ ackNum ∧ ¬(c.isHerWindowZero = true ∧ 0 < scaledWindow window c.sendWindowScale) ∧
    ¬(ackNum = c.lastByteAcked ∧ c.numACKRcvd + 1 = 4)

instance (c : DtpContext) (ackNum : UInt32) (window : UInt16) : Decidable (c.Records ackNum window) :=
  inferInstanceAs (Decidable (_ ∧ _))

/-- An event other than a close keeps the offsets in order if an ACK that is recorded is not above what is written, the
connection does not resume while a FIN has timed out, and no data is accepted behind a FIN. -/
def OrderlyOffsets (k : Crypto) (c : DtpContext) (e : Event) : Prop :=
  match e with
  | .batch p => ∀ ackNum window, p.ack = some (ackNum, window) → c.state ≠ .timeWait → c.Records ackNum window →
    ackNum ≤ c.lastByteWritten
  | .rsp d _ => c.validRSP k.hmac d = true → c.finInFlight
  | .auth addr _ => c.peerAddr = addr → c.finInFlight
  | e => c.isFINSent = true → e.accepted c = []

instance (k : Crypto) (c : DtpContext) : ∀ e, Decidable (OrderlyOffsets k c e)
  | .batch _ => decidableOfACK _
  | .rsp _ _ | .auth _ _ => inferInstanceAs (Decidable (_ → _))
  | .send _ | .sendWake _ | .recv _ _ | .recvWake _ _ | .close | .closeWake | .fin _ | .chg _ _ | .checkAddr _ _
  | .synAck _ _ _ | .rst _ _ _ | .timeout _ => inferInstanceAs (Decidable (_ = true → _ = []))

/-- What the opening has sent, up to `base`, is acknowledged as a whole, and its SYN is not refused. -/
def Event.HeedsOpening (base : ℕ) (c : DtpContext) : Event → Prop
  | .batch p => ∀ ackNum window, p.ack = some (ackNum, window) → c.lastByteAcked.toNat < base → base ≤ ackNum.toNat
  | .rst _ _ _ => c.state ≠ .synSent
  | _ => True

/-- An invariant `P` of a stream and a context, in the states `L`, with what it is before a call of `DTPWriteAvail` and
the calls `W` that keep it. -/
structure SenderRule (base : ℕ) (L : SockState → Prop) (W : DtpContext → Prop)
    (P B : List UInt8 → DtpContext → Prop) : Prop where
  order {s c} : P s c → SendOrder s.length c
  live {s c} : P s c → L c.state
  back {t t' : SockState} : t.slips t' = true → L t' → L t
  quiet {s c c'} : P s c → Quiet c c' → L c'.state → P s c'
  write {s x} : B s x → W x → L x.dtpWriteAvail.state → P s x.dtpWriteAvail
  reopen {s c} : P s c → 0 < c.rcvWindow → B s c.clearHerWindowZero
  record {s c} {a : UInt32} : P s c → c.state ≠ .synSent → c.lastByteAcked.toNat ≤ a.toNat →
    a.toNat ≤ c.lastByteWritten.toNat → base ≤ a.toNat → B s (c.recordACK a)
  resume {s c} : P s c → c.finInFlight → B s c.dtpSlowStart
  copy {s c data} {m : ℕ} : P s c → c.isFINSent = false → m ≤ data.length → (m : ℤ) ≤ c.getAvailWriteBufSize →
    s.length + m + (c.closeCalled || c.isFINSent).toNat < 2147483648 →
    B (s ++ data.take m) (c.copyBytes data m).noteFull
  again {s c p} : P s c → p ∈ c.packetQ → P s (c.send c.peerAddr (c.retransDatagram p))
  mark {s c p q} : P s c → c.packetQ = p :: q → P s (c.setQueue ({ p with isRetrans := true } :: q))
  avoid {s c} : P s c → c.packetQ ≠ [] → P s c.congestionAvoidance
  fallBack {s c p q} : P s c → c.packetQ = p :: q → P s ((c.fallBack p).pruneRest [{ p with isRetrans := true }] q)
  pruneAll {s c} : P s c → c.isCongested = true → (∀ p ∈ c.packetQ, p.isRetrans = false) →
    P s (c.pruneRest [] c.packetQ)
  /-- the FIN of `LAST_ACK` times out or is refused -/
  lastAck {s c c' p q} : P s c → c.state = .lastAck → c.packetQ = p :: q →
    (c' = (c.prunePacket p q).expire ∨ c' = { c with packetQ := q, state := .closed }) → L c'.state → P s c'
  /-- the peer's FIN in `FIN_WAIT_1` or `FIN_WAIT_2` -/
  accept {s c} : P s c → c.inFinWait = true → L c.acceptFIN.state → P s c.acceptFIN

section Ack
variable {n : ℕ} {c : DtpContext} {a : UInt32} {w : UInt16}

theorem SendOrder.noWrap (h : SendOrder n c) : ¬c.lastByteAcked + 1472 < c.lastByteAcked := by
  have hacked := h.acked_le
  have hsent := h.sent_le
  have hwritten := h.written_lt
  have h1472 : (1472 : UInt32).toNat = 1472 := rfl
  rw [UInt32.lt_iff_toNat_lt, toNat_add_word (by omega)]
  omega

/-- `Records`, in the words of the tests that `HandleACKPacket` makes. -/
theorem records_iff : c.Records a w ↔ ¬a < c.lastByteAcked ∧
    ¬((c.noteAckWindow w).isHerWindowZero = true ∧ 0 < (c.noteAckWindow w).rcvWindow) ∧
    ¬(a = ((c.noteAckWindow w).countDuplicate a).lastByteAcked ∧
      ((c.noteAckWindow w).countDuplicate a).numACKRcvd = 4) := by
  have hz : ((c.noteAckWindow w).isHerWindowZero = true ∧ 0 < (c.noteAckWindow w).rcvWindow) ↔
      (c.isHerWindowZero = true ∧ 0 < scaledWindow w c.sendWindowScale) := by
    refine and_congr_left fun hpos => ?_
    have hne : scaledWindow w c.sendWindowScale ≠ 0 := UInt32.pos_iff_ne_zero.mp hpos
    simp [noteAckWindow, hne]
  have hdup : (a = ((c.noteAckWindow w).countDuplicate a).lastByteAcked ∧
      ((c.noteAckWindow w).countDuplicate a).numACKRcvd = 4) ↔
      (a = c.lastByteAcked ∧ c.numACKRcvd + 1 = 4) := by
    rw [countDuplicate]
    split_ifs with heq
    · exact Iff.rfl
    · exact iff_of_false (fun h => heq h.1) (fun h => heq h.1)
  rw [Records, UInt32.not_lt, hz, hdup]

/-- The four ways through `HandleACKPacket` when sequence numbers stay below `2 ^ 31`: an old ACK, one that reopens a
closed window, a third duplicate, and all others. -/
theorem handleACKPacket_cases (h : SendOrder n c) :
    (¬c.Records a w ∧ (c.handleACKPacket a w = c ∨
      (0 < (c.noteAckWindow w).rcvWindow ∧ c.flushACK a w = some (c.noteAckWindow w).clearHerWindowZero ∧
        c.handleACKPacket a w = (c.noteAckWindow w).clearHerWindowZero.dtpWriteAvail.dtpWriteBufWakeup) ∨
      c.handleACKPacket a w = ((c.noteAckWindow w).countDuplicate a).handleDuplicateACK a)) ∨
    (c.Records a w ∧ c.flushACK a w = some (((c.noteAckWindow w).countDuplicate a).recordACK a) ∧
      c.handleACKPacket a w =
        (((c.noteAckWindow w).countDuplicate a).recordACK a).dtpWriteAvail.dtpWriteBufWakeup.finishACK a) := by
  simp only [DtpContext.handleACKPacket, flushACK, h.connected, h.noWrap, Bool.not_true, Bool.false_eq_true, if_false,
    not_false_eq_true, and_true]
  by_cases hlt : a < c.lastByteAcked
  · exact .inl ⟨fun hr => (records_iff.mp hr).1 hlt, .inl (if_pos hlt)⟩
  · have hwrap : c.noteWrap a = c := if_neg hlt
    simp only [hlt, if_false, hwrap]
    split_ifs with hz hdup
    · exact .inl ⟨fun hr => (records_iff.mp hr).2.1 hz, .inr (.inl ⟨hz.2, rfl, rfl⟩)⟩
    · exact .inl ⟨fun hr => (records_iff.mp hr).2.2 hdup, .inr (.inr rfl)⟩
    · exact .inr ⟨records_iff.mpr ⟨hlt, hz, hdup⟩, rfl, rfl⟩

end Ack

/-- `dtp_send` accepts nothing, or, with no FIN out, copies what it accepts and sends. -/
theorem SendOrder.sendBody_cases {n : ℕ} {c : DtpContext} {data : List UInt8} (h : SendOrder n c)
    (hclosed : c.isFINSent = true → Event.taken data (c.sendBody data).2 = []) :
    (Event.taken data (c.sendBody data).2 = [] ∧
      ((c.sendBody data).1 = c ∨ (c.sendBody data).1 = { c with isWriteBlocked := true })) ∨
    ∃ m : ℕ, c.isFINSent = false ∧ m ≤ data.length ∧ (m : ℤ) ≤ c.getAvailWriteBufSize ∧
      Event.taken data (c.sendBody data).2 = data.take m ∧ c.flushSend data = some (c.copyBytes data m).noteFull ∧
      (c.sendBody data).1 = (c.copyBytes data m).noteFull.dtpWriteAvail := by
  obtain hnone | ⟨m, hpos, hm, heq⟩ := Dtp.sendBody_cases c data
  · exact Or.inl hnone
  · have hdata : 0 < data.length := pos_of_minSize_pos (hm ▸ hpos)
    have htaken : Event.taken data (c.sendBody data).2 = data.take m.toNat := by rw [heq]; rfl
    have hf : c.isFINSent = false := by
      cases hf : c.isFINSent with
      | false => rfl
      | true =>
        have hnil := congrArg List.length (htaken.symm.trans (hclosed hf))
        rw [List.length_take, List.length_nil] at hnil
        omega
    have havail := h.avail_eq hf
    have hbuf := h.buffered
    obtain ⟨hb0, -⟩ := h.bufLen
    have hle := minSize_le (k := data.length) (m := c.getAvailWriteBufSize) (by omega)
    obtain ⟨k, rfl⟩ : ∃ k : ℕ, m = k := ⟨m.toNat, by omega⟩
    refine Or.inr ⟨k, hf, by omega, hm.trans_le hle.1, htaken, ?_, ?_⟩
    · simp only [flushSend, ← hm, hpos, if_true]
    · rw [heq]
      rfl

namespace SenderRule
variable {base : ℕ} {L : SockState → Prop} {W : DtpContext → Prop} {P B : List UInt8 → DtpContext → Prop}
  (R : SenderRule base L W P B) {s : List UInt8} {c c' : DtpContext} {p : DtpPkt} {q : List DtpPkt} {a : UInt32}
  {w : UInt16} {k : Crypto}

include R

variable (h : P s c)
include h

theorem quietly (hq : Quiet c c') (hs : c'.state = c.state) : P s c' :=
  R.quiet h hq (hs ▸ R.live h)

/-! ## Retransmission -/

theorem dtpRetransmit (hq : c.packetQ = p :: q) : P s ((c.dtpRetransmit p).1.setHead (c.dtpRetransmit p).2) := by
  rw [retransmit_eq (R.order h).connected hq]
  have hchecked := R.quietly h (.of_acts (Acts.assert c (p.seqNum == p.header.hdr.seq)) (by decide)) rfl
  exact R.mark (R.again hchecked (hq ▸ List.mem_cons_self)) hq

theorem retransmitHead : P s c.retransmitHead := by
  simp only [DtpContext.retransmitHead]
  cases hq : c.packetQ with
  | nil => exact h
  | cons p q => exact R.dtpRetransmit h hq

theorem handleDuplicateACK : P s (c.handleDuplicateACK a) := by
  simp only [DtpContext.handleDuplicateACK]
  cases hq : c.packetQ with
  | nil => exact h
  | cons p q =>
    have hchecked : Quiet c ((c.assert (decide (p.seqNum ≤ a))).assert
        (decide (a ≤ p.seqNum + u32 p.payloadLen))) := { Quiet.refl c with }
    refine R.avoid (R.dtpRetransmit (R.quietly h hchecked rfl) hq) ?_
    exact List.cons_ne_nil _ _

/-! ## Acknowledgements -/

theorem handleACKPacket (hs : c.state ≠ .synSent) (ha : c.Records a w → a ≤ c.lastByteWritten)
    (hb : c.lastByteAcked.toNat < base → base ≤ a.toNat) (hW : ∀ x, c.flushACK a w = some x → W x)
    (hL : L (c.handleACKPacket a w).state) : P s (c.handleACKPacket a w) := by
  have ho := R.order h
  have hacked := ho.acked_le.trans ho.sent_le
  have hwritten := ho.written_lt
  have hnoted : P s (c.noteAckWindow w) := R.quietly h (.noteAckWindow c w) rfl
  have hcount : Quiet (c.noteAckWindow w) ((c.noteAckWindow w).countDuplicate a) := by
    rw [countDuplicate]
    split_ifs
    · exact { Quiet.refl _ with }
    · exact Quiet.refl _
  have hcounted := R.quietly hnoted hcount state_countDuplicate
  have hwoken (x : DtpContext) : Quiet x x.dtpWriteBufWakeup := { Quiet.refl x with }
  obtain ⟨-, heq | ⟨hpos, hx, heq⟩ | heq⟩ | ⟨hr, hx, heq⟩ := Dtp.handleACKPacket_cases (a := a) (w := w) ho
  · rw [heq]
    exact h
  · rw [heq] at hL ⊢
    exact R.quietly (R.write (R.reopen hnoted hpos) (hW _ hx) hL) (hwoken _) rfl
  · rw [heq]
    exact R.handleDuplicateACK hcounted
  · rw [heq] at hL ⊢
    have hle := UInt32.le_iff_toNat_le.mp hr.1
    have ha := UInt32.le_iff_toNat_le.mp (ha hr)
    have hside := hcount.sendSide
    have hsame : ((c.noteAckWindow w).countDuplicate a).lastByteAcked = c.lastByteAcked :=
      congrArg SendSide.lastByteAcked hside
    have hlast : ((c.noteAckWindow w).countDuplicate a).lastByteWritten = c.lastByteWritten :=
      congrArg SendSide.lastByteWritten hside
    have hfinish := Quiet.of_acts (Acts.finishACK
      (((c.noteAckWindow w).countDuplicate a).recordACK a).dtpWriteAvail.dtpWriteBufWakeup a) (by decide)
    have hrec := R.record hcounted (by rwa [state_countDuplicate]) (hsame ▸ hle) (hlast ▸ ha) (by omega)
    have hsent := R.write hrec (hW _ hx) (R.back hfinish.state hL)
    exact R.quiet (R.quietly hsent (hwoken _) rfl) hfinish hL

theorem processAggregatePackets (hs : c.state ≠ .synSent) {i : AdjPktInfo}
    (ha : ∀ ackNum window, i.ack = some (ackNum, window) → c.state ≠ .timeWait → c.Records ackNum window →
      ackNum ≤ c.lastByteWritten)
    (hb : ∀ ackNum window, i.ack = some (ackNum, window) → c.lastByteAcked.toNat < base → base ≤ ackNum.toNat)
    (hW : ∀ x, (Event.batch i).flush k c = some x → W x) (hL : L (c.processAggregatePackets i).state) :
    P s (c.processAggregatePackets i) := by
  have hstate := state_of_acts (Acts.processData (c.processACK i.ack) i.pkts) (by decide)
  have hack : P s (c.processACK i.ack) := by
    change L ((c.processACK i.ack).processData i.pkts).state at hL
    rw [hstate] at hL
    cases hi : i.ack with
    | none => exact h
    | some aw =>
      simp only [processACK, hi, Event.flush] at hL hW ⊢
      split_ifs at hL hW ⊢ with hwait
      · exact R.handleACKPacket h hs (ha aw.1 aw.2 hi hwait) (hb aw.1 aw.2 hi) hW hL
      · exact h
  exact R.quietly hack (.of_recv (.processData (R.order hack).ackInserted i.pkts)) hstate

/-! ## Timeouts -/

theorem timeoutQueue (env : TimerEnv) (hL : L (c.timeoutQueue env).state) : P s (c.timeoutQueue env) := by
  have ho := R.order h
  rw [DtpContext.timeoutQueue] at hL ⊢
  obtain heq | ⟨hc, hall, heq⟩ | ⟨p, q, hq, ⟨hs, heq⟩ | heq⟩ := timeoutLoop_cases env ho.connected ho.queue.retrans
  · rw [heq]
    exact h
  · rw [heq]
    exact R.pruneAll h hc hall
  · rw [heq] at hL ⊢
    exact R.lastAck h hs hq (Or.inl rfl) hL
  · rw [heq]
    have hback := R.fallBack h hq
    change P s ((c.afterTimeout p).pruneRest [{ p with isRetrans := true }] q)
    rw [afterTimeout]
    split_ifs
    · rw [dtpRetransmit_eq (isNetConnected_fallBack.trans ho.connected)]
      exact R.quietly (R.again hback List.mem_cons_self) { Quiet.refl _ with } rfl
    · exact hback

theorem handleTimeout (env : TimerEnv) (hL : L (c.handleTimeout env).state) : P s (c.handleTimeout env) := by
  have hrest (x : DtpContext) (hx : P s x)
      (hL : L (((x.switchInterface env).persistProbe env).timeoutQueue env).state) :
      P s (((x.switchInterface env).persistProbe env).timeoutQueue env) := by
    rw [switchInterface_eq env (R.order hx).rcvLoBuf] at hL ⊢
    refine R.timeoutQueue (R.quietly hx (.of_acts (Acts.persistProbe x env) (by decide)) ?_) env hL
    rw [persistProbe]
    split_ifs <;> rfl
  simp only [DtpContext.handleTimeout] at hL ⊢
  split_ifs at hL ⊢
  · exact R.quiet h (.of_acts (Acts.expire c) (by decide)) hL
  · exact h
  · exact R.quiet h (.of_act (.timedOut c) (by decide)) hL
  · exact hrest _ (R.quietly h { Quiet.of_act (.probe c) (by decide) with } rfl) hL
  · exact hrest c h hL

/-! ## Address changes -/

theorem handleRSPPacket {d : Datagram} {addr : SockAddr} (hf : c.validRSP k.hmac d = true → c.finInFlight)
    (hW : ∀ x, (Event.rsp d addr).flush k c = some x → W x) (hL : L (c.handleRSPPacket k.hmac d addr).state) :
    P s (c.handleRSPPacket k.hmac d addr) := by
  simp only [DtpContext.handleRSPPacket, Event.flush] at hL hW ⊢
  cases hv : c.validRSP k.hmac d with
  | false =>
    simp only [Bool.not_false, if_true]
    split_ifs
    · exact R.quietly h (.sendRSTPacket (R.order h).localID _ addr) rfl
    · exact h
  | true =>
    simp only [hv, Bool.not_true, Bool.false_eq_true, if_false, if_true, Option.some.injEq, forall_eq'] at hL hW ⊢
    have hadopted := R.quietly h ((Quiet.of_act (.adopt c addr) (by decide)).trans (.of_act (.auth _) (by decide))) rfl
    rw [state_of_acts (Acts.retransmitHead _) (by decide)] at hL
    have hsent := R.write (R.resume hadopted (hf hv)) hW hL
    exact R.retransmitHead (R.quietly hsent { Quiet.refl _ with } rfl)

theorem handleAUTHPacket {addr : SockAddr} {rnd : UInt32} (hf : c.peerAddr = addr → c.finInFlight)
    (hW : ∀ x, (Event.auth addr rnd).flush k c = some x → W x) (hL : L (c.handleAUTHPacket addr rnd).state) :
    P s (c.handleAUTHPacket addr rnd) := by
  simp only [DtpContext.handleAUTHPacket, Event.flush, flushAUTH, (R.order h).ackInserted, Bool.false_eq_true,
    if_false] at hL hW ⊢
  by_cases haddr : c.peerAddr = addr
  · simp only [haddr, ne_eq, not_true_eq_false, if_false, if_true, Option.some.injEq, forall_eq'] at hL hW ⊢
    have hsent := R.write (R.resume h (hf haddr)) hW hL
    exact R.quietly hsent ((Quiet.of_act (.note ..) (by decide)).trans (.of_act (.ack _) (by decide))) rfl
  · rw [if_pos haddr]
    exact R.quietly h (.of_act (.challenge c addr rnd) (by decide)) rfl

theorem handleCHGPacket {hmac : List UInt8 → List UInt8 → List UInt8} {d : Datagram} {addr : SockAddr}
    (hL : L (c.handleCHGPacket hmac d addr).state) : P s (c.handleCHGPacket hmac d addr) := by
  have hanswer (x : DtpContext) : Quiet x ((x.storeNonce d).sendRSPPacket hmac) :=
    .of_act (.respond x hmac d) (by decide)
  simp only [DtpContext.handleCHGPacket] at hL ⊢
  split_ifs at hL ⊢
  · have hreset := Quiet.of_act (.reset (c.sendRSTPacket d.hdr.fid addr)) (by decide)
    exact R.quiet h (((Quiet.sendRSTPacket (R.order h).localID _ addr).trans hreset).trans (hanswer _)) hL
  · exact R.quiet h (hanswer c) hL

/-! ## The end -/

theorem acceptFIN (hign : c.ignoresFIN = false) (hL : L c.acceptFIN.state) : P s c.acceptFIN := by
  cases hwait : c.inFinWait with
  | true => exact R.accept h hwait hL
  | false => exact R.quiet h (.acceptFIN hign hwait) hL

theorem handleFINPacket (hd : DtpHdr) (hL : L (c.handleFINPacket hd).state) : P s (c.handleFINPacket hd) := by
  simp only [DtpContext.handleFINPacket] at hL ⊢
  split_ifs at hL ⊢ with hign
  · exact h
  · exact h
  · have hopen : c.ignoresFIN = false := by simpa using hign
    exact R.acceptFIN (R.quietly h { Quiet.refl c with } rfl) hopen hL
  · exact h
  · exact R.acceptFIN h (by simpa using hign) hL

theorem handleRSTPacket (hs : c.state ≠ .synSent) {d : Datagram} {hid : List UInt8} {fid : UInt32}
    {r : DtpContext} (hr : c.handleRSTPacket d hid fid = .ok r) (hL : L r.state) : P s r := by
  obtain rfl | ⟨hs', -⟩ | ⟨-, rfl⟩ | ⟨hs', rfl⟩ := handleRSTPacket_cases hr
  · exact h
  · exact absurd hs' hs
  · exact R.quiet h (.of_act (.reset c) (by decide)) hL
  · rw [dropLastAck] at hL ⊢
    cases hq : c.packetQ with
    | nil => exact R.quietly h (.of_act (.note ..) (by decide)) rfl
    | cons p q =>
      rw [hq] at hL
      exact R.lastAck h hs' hq (Or.inr rfl) hL

/-! ## `dtp_send` -/

/-- Once the FIN is out nothing more may be accepted. -/
theorem sendBody {data : List UInt8}
    (hclosed : c.isFINSent = true → Event.taken data (c.sendBody data).2 = [])
    (hrange : s.length + (Event.taken data (c.sendBody data).2).length +
      (c.closeCalled || c.isFINSent).toNat < 2147483648)
    (hW : ∀ x, c.flushSend data = some x → W x) (hL : L (c.sendBody data).1.state) :
    P (s ++ Event.taken data (c.sendBody data).2) (c.sendBody data).1 := by
  obtain ⟨hnone, heq | heq⟩ | ⟨m, hf, hdata, hroom, htaken, hx, heq⟩ := (R.order h).sendBody_cases hclosed
  · rw [hnone, heq, List.append_nil]
    exact h
  · rw [hnone, heq, List.append_nil]
    exact R.quietly h { Quiet.refl c with } rfl
  · rw [htaken, List.length_take, min_eq_left hdata] at hrange
    rw [heq] at hL
    rw [htaken, heq]
    exact R.write (R.copy h hf hdata hroom hrange) (hW _ hx) hL

theorem dtpSend {data : List UInt8}
    (hclosed : c.isFINSent = true → Event.taken data (c.dtpSend data).2 = [])
    (hrange : s.length + (Event.taken data (c.dtpSend data).2).length +
      (c.closeCalled || c.isFINSent).toNat < 2147483648)
    (hW : ∀ x, (Event.send data).flush k c = some x → W x) (hL : L (c.dtpSend data).1.state) :
    P (s ++ Event.taken data (c.dtpSend data).2) (c.dtpSend data).1 := by
  have hkeep : P (s ++ []) c := by
    rw [List.append_nil]
    exact h
  simp only [DtpContext.dtpSend, Event.flush] at hclosed hrange hL hW ⊢
  split_ifs at hclosed hrange hL ⊢ with hact hnone hclosing hreset
  · exact hkeep
  · simpa [Event.taken] using h
  · exact hkeep
  · exact hkeep
  · rw [if_pos (by simp_all)] at hW
    exact R.sendBody h hclosed hrange hW hL

/-! ## Events -/

/-- One event other than a call of `dtp_send`. -/
theorem handle {e : Event} (hoff : e.offered c) (ho : OrderlyOffsets k c e) (hb : e.HeedsOpening base c)
    (hW : ∀ x, e.flush k c = some x → W x) (hclose : e = .close → P s c.dtpClose.1) (hL : L (e.apply k c).state)
    (hsend : ∀ data, e ≠ .send data) (hwake : ∀ data, e ≠ .sendWake data) : P s (e.apply k c) := by
  cases e with
  | send data => exact absurd rfl (hsend data)
  | sendWake data => exact absurd rfl (hwake data)
  | recv length msgPeek => exact R.quiet h (.of_recv (.dtpRecv c length msgPeek)) hL
  | recvWake length msgPeek => exact R.quiet h (.of_recv (.dtpRecvWake c length msgPeek)) hL
  | close => exact hclose rfl
  | closeWake => exact R.quiet h (.of_acts (Acts.dtpCloseWake c) (by decide)) hL
  | batch i => exact R.processAggregatePackets h hoff.1 ho hb hW hL
  | fin hd => exact R.handleFINPacket h hd hL
  | chg d addr => exact R.handleCHGPacket h hL
  | rsp d addr => exact R.handleRSPPacket h ho hW hL
  | auth addr rnd => exact R.handleAUTHPacket h ho hW hL
  | checkAddr addr rnd => exact R.quiet h (.of_acts (Acts.checkAddress c addr rnd) (by decide)) hL
  | synAck d addr hid =>
    simp only [Event.apply] at hL ⊢
    cases hr : c.handleSYNACKPacket k.toRsa d addr hid with
    | ok r =>
      simp only [hr] at hL
      exact R.quiet h (.of_acts (Acts.handleSYNACKPacket hr) (by decide)) hL
    | error err => exact h
  | rst d hid fid =>
    simp only [Event.apply] at hL ⊢
    cases hr : c.handleRSTPacket d hid fid with
    | ok r =>
      simp only [hr] at hL
      exact R.handleRSTPacket h hb hr hL
    | error err => exact h
  | timeout env => exact R.handleTimeout h env hL

/-- One event. The stream grows by what is accepted. -/
theorem apply {e : Event} (hoff : e.offered c) (ho : OrderlyOffsets k c e) (hb : e.HeedsOpening base c)
    (hW : ∀ x, e.flush k c = some x → W x) (hclose : e = .close → P s c.dtpClose.1)
    (hrange : e ≠ .close → s.length + (e.accepted c).length + (c.closeCalled || c.isFINSent).toNat < 2147483648)
    (hL : L (e.apply k c).state) : P (s ++ e.accepted c) (e.apply k c) := by
  cases e with
  | send data => exact R.dtpSend h ho (hrange (by rintro ⟨⟩)) hW hL
  | sendWake data =>
    have hwoken : Quiet c { c with isWriteBlocked := false } := { Quiet.refl c with }
    exact R.sendBody (R.quietly h hwoken rfl) ho (hrange (by rintro ⟨⟩)) hW hL
  | _ =>
    simp only [Event.accepted, List.append_nil]
    exact R.handle h hoff ho hb hW hclose hL (by rintro data ⟨⟩) (by rintro data ⟨⟩)

end SenderRule
end Cedos.Dtp
