import Cedos.Dtp.AckSound
import Cedos.Dtp.Batch
import Cedos.Dtp.ChallengeBinding
import Cedos.Dtp.SendIntegrity
import Cedos.Dtp.UnsentAck

/-!
# Both ends of a connection

Two established contexts, each with an application that sends and reads, over a network that
loses, repeats, delays and reorders what they put on the wire. The packets that reach one end
are those the other has sent, so what the results about one end ask of its peer is here proved
of the other. Challenges, responses, refusals and addresses are not restricted: they can be
anybody's. Neither application closes.
-/

namespace Cedos.Dtp

/-! ## What is acknowledged is held -/

/-- All numbers sent are at most `tc_nextByteExpected`, which is at least `n`, and the application
has read up to `r`. -/
structure Held (n r : UInt32) (c : DtpContext) : Prop where
  next : n ≤ c.nextByteExpected
  finRcvd : c.isFINRcvd = false
  wire : ∀ x ∈ c.wire, x.2.hdr.ackSeq ≤ c.nextByteExpected
  queue : ∀ p ∈ c.packetQ, p.header.hdr.ackSeq ≤ c.nextByteExpected
  read : c.isActive = true → c.lastByteRead = r

namespace Held
variable {n r : UInt32} {c c' : DtpContext} (h : Held n r c)
include h

theorem ackFrom {a : UInt32} (ha : AckFrom c a) : a ≤ c.nextByteExpected := by
  obtain rfl | rfl | rfl | ⟨p, hp, rfl⟩ := ha
  · exact UInt32.zero_le
  · exact UInt32.le_refl _
  · simp [DtpContext.getAckNumber, h.finRcvd]
  · exact h.queue p hp

theorem of_only (ho : AckOnly c c') : Held n r c' where
  next := ho.next ▸ h.next
  finRcvd := ho.finRcvd.trans h.finRcvd
  wire x hx := ho.next ▸ (ho.wire x hx).elim (h.wire x) h.ackFrom
  queue p hp := ho.next ▸ h.ackFrom (ho.queue p hp)
  read ha := by
    obtain ⟨hact, heq⟩ := ho.recvSide ha
    exact (congrArg RecvSide.lastByteRead heq).trans (h.read hact)

/-- Storing a segment only moves `tc_nextByteExpected` up. -/
theorem storeSegment (d : Datagram) (bodyLen : UInt32) : Held n r (c.storeSegment d bodyLen).1 := by
  have hup : c.nextByteExpected ≤ (c.storeSegment d bodyLen).1.nextByteExpected := by
    change _ ≤ expectedAfter _ _
    unfold expectedAfter
    split
    · exact UInt32.le_refl _
    · split_ifs with hin
      · exact UInt32.le_of_lt hin.2
      · exact UInt32.le_refl _
  exact ⟨UInt32.le_trans h.next hup, h.finRcvd, fun x hx => UInt32.le_trans (h.wire x hx) hup,
    fun p hp => UInt32.le_trans (h.queue p hp) hup, h.read⟩

theorem processData (hins : c.isACKInserted = false) (ds : List Datagram) : Held n r (c.processData ds) := by
  refine ((Acts.processData c ds).invariant (P := fun x => Held n r x ∧ x.isACKInserted = false) ?_ ⟨h, hins⟩).1
  rintro k hk x y ha ⟨hx, hi⟩
  cases ha with
  | store => exact ⟨hx.storeSegment _ _, hi⟩
  | dropACK hins' => exact absurd (hi.symm.trans hins') (by decide)
  | note | segment | opened => exact ⟨{ hx with }, hi⟩
  | ack => exact ⟨hx.of_only (.dtpSendACKPacket x), hi⟩
  | _ => exact absurd hk (by decide)

/-- `dtp_recv` moves the place up to which is read. -/
theorem reading (hacts : Acts Acts.reading c c') : Held n c'.lastByteRead c' := by
  refine hacts.invariant (P := fun x => Held n x.lastByteRead x) ?_ { h with read := fun _ => rfl }
  intro k hk x y hact hx
  cases hact with
  | ack => exact hx.of_only (.dtpSendACKPacket x)
  | note | advance | take | slide | charge => exact { hx with read := fun _ => rfl }
  | _ => exact absurd hk (by decide)

end Held

/-! ## Reading -/

/-- What has been read is what `S` has from `start` on. -/
def Reading.Takes (S : ℕ → UInt8) (start : ℕ) (s : Reading) : Prop :=
  s.ctx.lastByteRead.toNat = start + s.delivered.length ∧ s.delivered = peek S start s.delivered.length

section Takes
variable {S : ℕ → UInt8} {start : ℕ} {s : Reading} (h : s.Takes S start)
include h

theorem Reading.Takes.keep {c : DtpContext} (hc : c.lastByteRead = s.ctx.lastByteRead) (msgPeek : Bool)
    {r : CallResult (List UInt8)} (hr : r.bytes = []) : (s.take msgPeek (c, r)).Takes S start := by
  simpa [Takes, Reading.take, hr, hc] using h

variable (hst : s.ctx.state = .established) (hinv : Reassembled S s.ctx.toRecvSide) (length : ℕ) (msgPeek : Bool)
include hst hinv

theorem Reading.Takes.recvBody (woken : Bool) :
    (s.take msgPeek (s.ctx.recvBody length msgPeek woken)).Takes S start := by
  obtain heq | heq | ⟨m, hpos, -, hm, heq⟩ := hinv.recvBody_cases hst length msgPeek woken
  · rw [heq]
    exact h.keep rfl msgPeek rfl
  · rw [heq]
    exact h.keep rfl msgPeek rfl
  · rw [heq]
    cases msgPeek with
    | true => simpa [Reading.take] using h
    | false =>
      obtain ⟨-, -, hmoved, -⟩ := hinv.consumeBytes hpos hm
      have hadd : (s.delivered ++ peek S s.ctx.lastByteRead.toNat m).length = s.delivered.length + m := by simp
      simp only [Takes, Reading.take, CallResult.bytes, Bool.false_eq_true, if_false]
      rw [hadd, hmoved, h.1, peek_add, ← h.2]
      exact ⟨Nat.add_assoc .., rfl⟩

theorem Reading.Takes.dtpRecv : (s.take msgPeek (s.ctx.dtpRecv length msgPeek)).Takes S start := by
  simp only [DtpContext.dtpRecv]
  split_ifs
  · exact h.keep rfl msgPeek rfl
  · exact h.keep rfl msgPeek rfl
  · exact h.keep rfl msgPeek rfl
  · exact h.keep rfl msgPeek rfl
  · exact h.recvBody hst hinv length msgPeek false

theorem Reading.Takes.dtpRecvWake : (s.take msgPeek (s.ctx.dtpRecvWake length msgPeek)).Takes S start := by
  have hwoken : Takes S start { s with ctx := { s.ctx with isReadBlocked := false } } := h
  simp only [DtpContext.dtpRecvWake]
  split_ifs
  · exact h.keep rfl msgPeek rfl
  · exact h.keep rfl msgPeek rfl
  · exact hwoken.recvBody hst hinv length msgPeek true

end Takes

/-! ## One end -/

/-- An end of the connection: its context with what its application has read, and what it has written. -/
structure Peer extends Reading where
  stream : List UInt8

def Reading.after (k : Crypto) (s : Reading) : Event → Reading
  | .recv length msgPeek => s.take msgPeek (s.ctx.dtpRecv length msgPeek)
  | .recvWake length msgPeek => s.take msgPeek (s.ctx.dtpRecvWake length msgPeek)
  | e => { s with ctx := e.apply k s.ctx }

def Peer.step (k : Crypto) (p : Peer) (e : Event) : Peer := ⟨p.toReading.after k e, p.stream ++ e.accepted p.ctx⟩

@[simp] theorem Peer.ctx_step (k : Crypto) (p : Peer) (e : Event) : (p.step k e).ctx = e.apply k p.ctx := by
  cases e <;> rfl

/-- An end whose peer writes `w` in all, of which `start` bytes were acknowledged in the opening, and has recorded the
number `n`. -/
structure Linked (base start : ℕ) (w : List UInt8) (n : UInt32) (p : Peer) : Prop where
  sends : Intact base p.stream p.ctx
  begun : start ≤ w.length
  acks : AckSound (fun i => w.getD i 0) start w.length (· < w.length) False p.ctx
  held : ∃ r, Held n r p.ctx ∧ r.toNat = start + p.delivered.length
  within : start + p.delivered.length ≤ w.length
  delivered : p.delivered = peek (fun i => w.getD i 0) start p.delivered.length

/-- A packet that carries what the stream has at its place is a part of it. -/
theorem Datagram.Carries.partOf {w : List UInt8} {d : Datagram} (h : d.Carries w) (hchg : d.hdr.chg = false)
    (hrsp : d.hdr.rsp = false) : d.PartOf (fun i => w.getD i 0) w.length := by
  intro hpos
  obtain ⟨-, hle, hpay⟩ := h hchg hrsp
  have hlen : d.payload.length = (getPayloadLen d).toNat := by rw [Datagram.payload, length_peek]
  rw [hlen] at hle hpay
  rw [← peek_getD_slice w 0 hle] at hpay
  refine ⟨fun i hi => ?_, hle⟩
  have hlt : i < (getPayloadLen d).toNat := by
    simp only [u32, UInt32.toNat_ofNat'] at hi
    omega
  have hbyte := congrArg (fun l => l[i]?) hpay
  simpa [Datagram.payload, peek, hlt] using hbyte

namespace Linked
variable {k : Crypto} {base start : ℕ} {w : List UInt8} {n : UInt32} {p : Peer}

/-- Nothing is expected beyond the end of the stream. -/
theorem next_le {S : ℕ → UInt8} {c : DtpContext} (h : AckSound S start w.length (· < w.length) False c)
    (hstart : start ≤ w.length) : c.nextByteExpected.toNat ≤ w.length := by
  by_contra hlt
  exact absurd (h.reaches w.length hstart (not_le.mp hlt)) (lt_irrefl _)

variable (h : Linked base start w n p)
include h

/-- What the peer has recorded is still acknowledged. -/
theorem of_acked {n' : UInt32} (hn : n' ≤ p.ctx.nextByteExpected) : Linked base start w n' p := by
  obtain ⟨r, hr, hlen⟩ := h.held
  exact { h with held := ⟨r, { hr with next := hn }, hlen⟩ }

theorem intact_apply {e : Event} (hoff : e.offered p.ctx) (ho : OrderlyOffsets k p.ctx e)
    (hst : p.ctx.state = .established) (hclose : e ≠ .close)
    (hrange : p.stream.length + (e.accepted p.ctx).length < 2147483648) :
    Intact base (p.stream ++ e.accepted p.ctx) (e.apply k p.ctx) := by
  have hbase : base ≤ p.ctx.lastByteAcked.toNat := by
    simpa [hst] using h.sends.answered
  refine Intact.rule.apply h.sends hoff ho ?_ (fun _ _ => trivial) (fun heq => absurd heq hclose) ?_ trivial
  · cases e with
    | batch i => exact fun _ _ _ hlt => absurd hbase (not_le.mpr hlt)
    | rst => exact fun hs => absurd (hst.symm.trans hs) (by decide)
    | _ => trivial
  · simpa [h.sends.closeCalled, h.sends.finSent] using fun _ => hrange

/-- An event at this end, with packets of the peer in order. -/
theorem step {e : Event} (hact : p.ctx.isActive = true) (hst : p.ctx.state = .established) (hoff : e.offered p.ctx)
    (hp : PeerSends (fun i => w.getD i 0) w.length e) (hord : InOrder p.ctx e) (ho : OrderlyOffsets k p.ctx e)
    (hclose : e ≠ .close) (hfin : e.finHeaders = [])
    (hrange : p.stream.length + (e.accepted p.ctx).length < 2147483648) : Linked base start w n (p.step k e) := by
  have hnew : ∀ d ∈ e.datagrams, ∀ i, d.Brings i → i < w.length := by
    cases e with
    | batch q =>
      intro d hd i hi
      have hend := (hp d hd (by have := hi.1; have := hi.2; omega)).2
      exact hi.2.trans_le hend
    | _ => exact fun d hd => absurd hd List.not_mem_nil
  have hacks := h.acks.apply (k := k) hact hp hord hnew (by simp [hfin]) (fun _ => id) h.begun
  have hsends := h.intact_apply (k := k) hoff ho hst hclose hrange
  obtain ⟨r, hr, hlen⟩ := h.held
  have htakes : p.toReading.Takes (fun i => w.getD i 0) start := ⟨by rw [hr.read hact, hlen], h.delivered⟩
  have hinv := (h.acks.held hact).1
  have hin (hact' : (e.apply k p.ctx).isActive = true) : (e.apply k p.ctx).lastByteRead.toNat ≤ w.length :=
    (hacks.held hact').1.expected.le.trans (next_le hacks h.begun)
  have hheld : (∃ r, Held n r (e.apply k p.ctx) ∧ r.toNat = start + (p.toReading.after k e).delivered.length) ∧
      start + (p.toReading.after k e).delivered.length ≤ w.length ∧ (p.toReading.after k e).delivered =
        peek (fun i => w.getD i 0) start (p.toReading.after k e).delivered.length := by
    cases e with
    | recv length msgPeek =>
      have ht := htakes.dtpRecv hst hinv length msgPeek
      have hsame := congrArg Lifecycle.isActive (RecvFrame.dtpRecv p.ctx length msgPeek).lifecycle
      exact ⟨⟨_, hr.reading (.dtpRecv _ length msgPeek), ht.1⟩, ht.1 ▸ hin (hsame.trans hact), ht.2⟩
    | recvWake length msgPeek =>
      have ht := htakes.dtpRecvWake hst hinv length msgPeek
      have hsame := congrArg Lifecycle.isActive (RecvFrame.dtpRecvWake p.ctx length msgPeek).lifecycle
      exact ⟨⟨_, hr.reading (.dtpRecvWake _ length msgPeek), ht.1⟩, ht.1 ▸ hin (hsame.trans hact), ht.2⟩
    | batch q =>
      have hack := h.acks.processACK hord
      exact ⟨⟨r, (hr.of_only hack).processData (h.acks.of_only hack).ackInserted q.pkts, hlen⟩, h.within, h.delivered⟩
    | fin hd => exact absurd hfin (List.cons_ne_nil _ _)
    | _ => exact ⟨⟨r, hr.of_only (h.acks.only rfl), hlen⟩, h.within, h.delivered⟩
  rw [← p.ctx_step k e] at hacks hsends hheld
  exact ⟨hsends, h.begun, hacks, hheld.1, hheld.2.1, hheld.2.2⟩

end Linked

/-! ## Runs -/

/-- Not the data or the FIN of the peer, and no call of `dtp_close`. -/
def Event.isOwn : Event → Bool
  | .batch _ | .fin _ | .close => false
  | _ => true

/-- What happens at one of the ends: an event of its own, or packets of the other arrive. -/
inductive DuplexEvent
  | own (x : Side) (e : Event)
  | deliver (x : Side) (ds : List Datagram)

/-- The ends `c₀`, with what the opening has put into their streams. A packet that is on the wire
can arrive any number of times, at any time, with any others. An end that is no longer open
takes part in nothing, and sequence numbers stay below `2 ^ 31`. -/
def duplex (k : Crypto) (opening : Side → List UInt8) (c₀ : Side → DtpContext) : Machine (Side → Peer) DuplexEvent where
  init s := s = fun x => ⟨⟨c₀ x, []⟩, opening x⟩
  allowed s
    | .own x e => (s x).ctx.isActive = true ∧ (s x).ctx.state = .established ∧ e.isOwn = true ∧ e.offered (s x).ctx ∧
        (s x).stream.length + (e.accepted (s x).ctx).length < 2147483648
    | .deliver x ds => (s x).ctx.isActive = true ∧ (s x).ctx.state = .established ∧
        (∀ d ∈ ds, d.hdr.chg = false ∧ d.hdr.rsp = false ∧ ∃ y ∈ (s x.other).ctx.wire, y.2 = d) ∧
        (s x.other).stream.length + (s x).ctx.readBufLen.toNat < 2147483648
  apply s
    | .own x e => Function.update s x ((s x).step k e)
    | .deliver x ds => Function.update s x ((s x).step k (.batch (ds.foldl AdjPktInfo.add ⟨none, []⟩)))

section Runs
variable {k : Crypto} {opening : Side → List UInt8} {c₀ : Side → DtpContext} {s : Side → Peer} {b : Side → ℕ}

/-- Both ends, whatever the other will have written in the end. -/
def BothLinked (b : Side → ℕ) (s : Side → Peer) : Prop :=
  ∀ x w, (s x.other).stream <+: w → Linked (b x) (b x.other) w (s x.other).ctx.lastByteAcked (s x)

/-- Something happens at the end `x`. -/
theorem BothLinked.update (h : BothLinked b s) {x : Side} {p : Peer} (hgrow : (s x).stream <+: p.stream)
    (hx : ∀ w, (s x.other).stream <+: w → Linked (b x) (b x.other) w (s x.other).ctx.lastByteAcked p)
    (hacked : p.ctx.lastByteAcked ≤ (s x.other).ctx.nextByteExpected) : BothLinked b (Function.update s x p) := by
  have hold := h x.other
  rw [Side.other_other] at hold
  intro y w hw
  obtain rfl | rfl : y = x ∨ y = x.other := by cases x <;> cases y <;> decide
  · rw [Function.update_of_ne (Side.other_ne _)] at hw ⊢
    rw [Function.update_self]
    exact hx w hw
  · rw [Side.other_other, Function.update_self] at hw ⊢
    rw [Function.update_of_ne x.other_ne]
    exact (hold w (hgrow.trans hw)).of_acked hacked

/-- The other end is past what this one has recorded, and not past what this one has written. -/
theorem BothLinked.expected (h : BothLinked b s) (x : Side) :
    (s x).ctx.lastByteAcked ≤ (s x.other).ctx.nextByteExpected ∧
      (s x.other).ctx.nextByteExpected.toNat ≤ (s x).stream.length := by
  have hlink := h x.other _ List.prefix_rfl
  rw [Side.other_other] at hlink
  obtain ⟨r, hr, -⟩ := hlink.held
  exact ⟨hr.next, Linked.next_le hlink.acks hlink.begun⟩

/-- A bound on what has been acknowledged, and on the ACK. -/
theorem acked_processACK {c : DtpContext} {o : Option (UInt32 × UInt16)} {n : UInt32} (hc : c.lastByteAcked ≤ n)
    (ho : ∀ {a v}, o = some (a, v) → a ≤ n) : (c.processACK o).lastByteAcked ≤ n := by
  cases o with
  | none => exact hc
  | some aw =>
    simp only [DtpContext.processACK]
    split_ifs
    · obtain heq | heq := (handleACKPacket_acked c aw.1 aw.2).1
      · rwa [heq]
      · rw [heq]
        exact ho rfl
    · exact hc

theorem BothLinked.step (h : BothLinked b s) {e : DuplexEvent} (he : (duplex k opening c₀).allowed s e) :
    BothLinked b ((duplex k opening c₀).apply s e) := by
  have hnow (x : Side) := h x _ List.prefix_rfl
  have hnext (x : Side) := (h.expected x).1
  cases e with
  | own x e =>
    obtain ⟨hact, hst, hown, hoff, hrange⟩ := he
    have hopen : ¬(s x).ctx.isFINSent = true := by simp [(hnow x).sends.finSent]
    have hclose : e ≠ .close := by
      rintro rfl
      exact absurd hown Bool.false_ne_true
    refine h.update (List.prefix_append _ _) (fun w hw => (h x w hw).step hact hst hoff ?_ ?_ ?_ hclose ?_ hrange) ?_
    · cases e <;> trivial
    · cases e <;> trivial
    · cases e with
      | batch => exact absurd hown Bool.false_ne_true
      | rsp | auth => exact fun _ hf => absurd hf hopen
      | _ => exact fun hf => absurd hf hopen
    · cases e <;> first | rfl | exact absurd hown Bool.false_ne_true
    · have hsame : SameAck (s x).ctx (e.apply k (s x).ctx) :=
        SameAck.apply (e := .own e) (by rintro p ⟨⟩; exact absurd hown Bool.false_ne_true)
      rw [Peer.ctx_step, hsame.acked]
      exact hnext x
  | deliver x ds =>
    obtain ⟨hact, hst, hsent, hrange⟩ := he
    have hpkts : (ds.foldl AdjPktInfo.add ⟨none, []⟩).pkts = ds := by simp [pkts_foldl_add]
    have hack {a : UInt32} {v : UInt16} (ha : (ds.foldl AdjPktInfo.add ⟨none, []⟩).ack = some (a, v)) :
        a ≤ (s x.other).ctx.nextByteExpected := by
      obtain ⟨d, hd, -, rfl, -⟩ := collected_mem ha
      obtain ⟨-, -, y, hy, rfl⟩ := hsent d hd
      obtain ⟨r, hr, -⟩ := (hnow x.other).held
      exact hr.wire y hy
    have hcarries : ∀ d ∈ ds, d.Carries (s x.other).stream := by
      intro d hd
      obtain ⟨-, -, y, hy, rfl⟩ := hsent d hd
      exact (hnow x.other).sends.wire y hy
    change BothLinked b (Function.update s x ((s x).step k (.batch (ds.foldl AdjPktInfo.add ⟨none, []⟩))))
    generalize ds.foldl AdjPktInfo.add ⟨none, []⟩ = i at hpkts hack
    subst hpkts
    have hsmall := (hnow x).sends.order.small'
    refine h.update (List.prefix_append _ _)
      (fun w hw => (h x w hw).step hact hst (by simp [Event.offered, hst]) ?_ ⟨?_, ?_⟩ ?_ (by rintro ⟨⟩) rfl hsmall) ?_
    · intro d hd
      obtain ⟨more, rfl⟩ := hw
      exact ((hcarries d hd).append more).partOf (hsent d hd).1 (hsent d hd).2.1
    · intro d hd hpos
      have hend := ((hcarries d hd).partOf (hsent d hd).1 (hsent d hd).2.1 hpos).2
      omega
    · intro a v _ _
      have hle := (hnow x).sends.order.acked_le
      have hsent := (hnow x).sends.sent_le
      rw [UInt32.lt_iff_toNat_lt, toNat_add_word (by change _ + 1472 < _; omega)]
      exact not_lt.mpr (Nat.le_add_right _ _)
    · intro a v ha _ _
      rw [UInt32.le_iff_toNat_le, (hnow x).sends.written]
      exact (UInt32.le_iff_toNat_le.mp (hack ha)).trans (h.expected x).2
    · have hdata : SameAck ((s x).ctx.processACK i.ack) ((s x).ctx.processAggregatePackets i) :=
        .of_acts (.processData _ i.pkts) (by decide)
      rw [Peer.ctx_step, Event.apply, hdata.acked]
      exact acked_processACK (hnext x) hack

variable (hsend : ∀ x, FreshSender (c₀ x).lastByteAcked.toNat (opening x) (c₀ x))
    (hrecv : ∀ x, FreshAcks (opening x.other).length (c₀ x))
    (hmeet : ∀ x, (c₀ x).nextByteExpected = (c₀ x.other).lastByteAcked) (hs : (duplex k opening c₀).Reachable s)
include hsend hrecv hmeet hs

theorem bothLinked_of_reachable :
    BothLinked (fun x => (c₀ x).lastByteAcked.toNat) s := by
  refine Machine.Reachable.invariant (P := BothLinked fun x => (c₀ x).lastByteAcked.toNat) ?_
    (fun _ _ ht he => ht.step he) hs
  intro t ht x w hw
  obtain rfl : t = fun x => ⟨⟨c₀ x, []⟩, opening x⟩ := ht
  have hr := hrecv x
  have hlen := hw.length_le
  have hlong : FreshAcks w.length (c₀ x) := { hr with start_le := hr.start_le.trans hlen }
  have hacks := hlong.ackSound (S := fun i => w.getD i 0) (A := (· < w.length)) (F := False)
  have hheld : Held (c₀ x).nextByteExpected (c₀ x).nextByteExpected (c₀ x) :=
    ⟨UInt32.le_refl _, hr.finRcvd, hr.wire, hr.queue, fun _ => hr.expected.symm⟩
  have hstart := hlong.start_le
  rw [hmeet x] at hacks hheld hstart
  exact ⟨(hsend x).intact, hstart, hacks, ⟨_, hheld, rfl⟩, hstart, rfl⟩

/-- **Delivery between two ends.**  Whatever the network does with the packets of two connected ends, what the
application of one has read is the beginning of what that of the other has written since the opening.
What the other has dropped as acknowledged is below what this end expects next, which is
below what has been written; and while this end is open, what has been read, followed by what its read buffer
has ready, is the whole stream up to there. So no byte is lost, repeated or changed. -/
theorem duplex_delivers (x : Side) :
    let sent := (s x.other).stream.drop (c₀ x.other).lastByteAcked.toNat
    let c := (s x).ctx
    (s x).delivered <+: sent ∧ (s x.other).ctx.lastByteAcked ≤ c.nextByteExpected ∧
      c.nextByteExpected.toNat ≤ (s x.other).stream.length ∧
      (c.isActive = true → (s x).delivered ++ peek c.readBuf 0 (c.nextByteExpected.toNat - c.lastByteRead.toNat) =
        sent.take (c.nextByteExpected.toNat - (c₀ x.other).lastByteAcked.toNat)) := by
  have h := bothLinked_of_reachable hsend hrecv hmeet hs x _ List.prefix_rfl
  obtain ⟨r, hr, hlen⟩ := h.held
  have hnext := Linked.next_le h.acks h.begun
  refine ⟨?_, hr.next, hnext, ?_⟩
  · rw [h.delivered, peek_getD_slice _ _ h.within]
    exact List.take_prefix _ _
  · intro hact
    have hinv := (h.acks.held hact).1
    have hread : (s x).ctx.lastByteRead.toNat = (c₀ x.other).lastByteAcked.toNat + (s x).delivered.length :=
      (congrArg UInt32.toNat (hr.read hact)).trans hlen
    have hle : (s x).ctx.lastByteRead.toNat ≤ (s x).ctx.nextByteExpected.toNat := hinv.expected.le
    have hready := hinv.bytes.peek_eq (q := (s x).ctx.lastByteRead.toNat) le_rfl fun i h0 h1 =>
      hinv.expected.covered i h0 (h1.trans_eq (Nat.add_sub_cancel' hle))
    rw [Nat.sub_self, hread] at hready
    rw [hread] at hle ⊢
    calc (s x).delivered ++ peek (s x).ctx.readBuf 0 _
        = peek _ _ (s x).delivered.length ++ _ := by rw [hready, ← h.delivered]
      _ = peek _ _ ((s x).delivered.length + _) := (peek_add ..).symm
      _ = peek _ (c₀ x.other).lastByteAcked.toNat ((s x).ctx.nextByteExpected.toNat - _) := by
        congr 1
        omega
      _ = _ := peek_getD_slice _ _ (by omega)

/-- **Nothing is dropped too early.**  While an end is open, all it has written that the other does not have in order is
in its write buffer. The packets of its queue follow each other without a gap from the last byte acknowledged to
the last byte sent, and each would be sent again with the bytes of the stream. -/
theorem duplex_retains (x : Side) (hst : (s x).ctx.state = .established) :
    let c := (s x).ctx
    let next := (s x.other).ctx.nextByteExpected.toNat
    peek c.writeBuf (next - c.lastByteAcked.toNat) ((s x).stream.length - next) = (s x).stream.drop next ∧
      Tiles (c.packetQ.map DtpPkt.ival) c.lastByteAcked.toNat c.lastByteSent.toNat ∧
      ∀ p ∈ c.packetQ, (c.retransDatagram p).Carries (s x).stream := by
  have h := bothLinked_of_reachable hsend hrecv hmeet hs
  have hsends : Intact (c₀ x).lastByteAcked.toNat (s x).stream (s x).ctx := (h x _ List.prefix_rfl).sends
  obtain ⟨hacked, hle⟩ := h.expected x
  rw [UInt32.le_iff_toNat_le] at hacked
  have hbase : max (s x).ctx.lastByteAcked.toNat (c₀ x).lastByteAcked.toNat = (s x).ctx.lastByteAcked.toNat := by
    simpa [hst] using hsends.answered
  refine ⟨?_, hbase ▸ hsends.tiles, fun p => hsends.carries_retransDatagram⟩
  rw [hsends.bytes.peek_eq hacked fun i h0 h1 => ⟨by omega, by omega⟩, peek_getD_slice _ _ (by omega),
    List.take_of_length_le (by simp)]

end Runs

theorem sampleSender_freshAcks : FreshAcks 0 sampleSender :=
  ⟨⟨by decide, by decide, by decide, by decide, by decide, by decide, by decide, by decide⟩, by decide, by decide,
    by decide, by decide, by decide, by decide, by decide⟩

def samplePeers : Side → Peer := fun _ => ⟨⟨sampleSender, []⟩, []⟩

def sampleDuplex : Machine (Side → Peer) DuplexEvent := duplex sampleCrypto (fun _ => []) fun _ => sampleSender

/-- The left end sends two packets. -/
def twoSent : List DuplexEvent := [.own .left (.send [1, 2]), .own .left (.send [3, 4, 5])]

/-- They arrive in the wrong order, and the right end reads. -/
def crossed : List DuplexEvent :=
  twoSent ++ [.deliver .right ((sampleDuplex.run samplePeers twoSent .left).ctx.wire.map Prod.snd).reverse,
    .own .right (.recv 4 false)]

theorem duplex_delivers_crossed : ∃ s, sampleDuplex.Reachable s ∧ (s .right).delivered = [1, 2, 3, 4] ∧
    (s .right).delivered <+: (s .left).stream := by
  have hadm : sampleDuplex.Admits samplePeers crossed := by
    refine ⟨⟨by decide, by decide, rfl, trivial, by decide⟩,
      ⟨rfl, rfl, rfl, trivial, by decide⟩, ⟨rfl, rfl, ?_, by decide⟩, ⟨rfl, rfl, rfl, trivial, by decide⟩, trivial⟩
    have hplain : ∀ y ∈ (sampleDuplex.run samplePeers twoSent .left).ctx.wire,
        y.2.hdr.chg = false ∧ y.2.hdr.rsp = false := by decide
    intro d hd
    obtain ⟨y, hy, rfl⟩ := List.mem_map.mp (List.mem_reverse.mp hd)
    exact ⟨(hplain y hy).1, (hplain y hy).2, y, hy, rfl⟩
  have hrun := Machine.Reachable.run (.init rfl) hadm
  have hread := (@duplex_delivers sampleCrypto (fun _ => []) (fun _ => sampleSender) _ (fun _ => sampleSender_fresh)
    (fun _ => sampleSender_freshAcks) (fun _ => rfl) hrun .right).1
  exact ⟨_, hrun, rfl, hread⟩

theorem duplex_retains_twoSent : ∃ s, sampleDuplex.Reachable s ∧ (s .left).ctx.packetQ.length = 2 ∧
    peek (s .left).ctx.writeBuf 0 5 = (s .left).stream := by
  have hrun : sampleDuplex.Reachable (sampleDuplex.run samplePeers twoSent) := .run (.init rfl)
    ⟨⟨rfl, rfl, rfl, trivial, by decide⟩, ⟨rfl, rfl, rfl, trivial, by decide⟩, trivial⟩
  exact ⟨_, hrun, rfl, (@duplex_retains sampleCrypto (fun _ => []) (fun _ => sampleSender) _
    (fun _ => sampleSender_fresh) (fun _ => sampleSender_freshAcks) (fun _ => rfl) hrun .left rfl).1⟩

end Cedos.Dtp
