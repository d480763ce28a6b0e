import Cedos.Dtp.Endpoint
import Cedos.Dtp.Frames
import Cedos.Dtp.QueueCut

/-!
# The order of the send offsets

`tc_lastByteAcked ≤ tc_lastByteSent ≤ tc_lastByteWritten`, and no packet reaches past
the end of what `dtp_send` has accepted.

The delicate part is the FIN. It takes one sequence number in `tc_lastByteSent` and
`tc_lastByteWritten` but no byte of the buffer. When a data packet before it times out
it is taken back; when it times out itself, only `tc_lastByteSent` falls back, and then
nothing but `tc_isCongested` keeps `DTPWriteAvail` from sending the byte that is not
there. `SendOrder.flight` and `SendOrder.lone` say exactly that.

## Main definitions

* `Ordered` — the packets of the queue end in order between two offsets.
* `SendOrder` — the invariant of the send side.
* `SendView` — the fields it depends on.
-/

namespace Cedos.Dtp

open DtpContext

/-! ## The queue -/

/-- The packets of the queue are sound, end in order between `lo` and `hi`, and only the
first one can have been retransmitted. -/
structure Ordered (n lo hi : ℕ) (q : List DtpPkt) : Prop where
  sound : ∀ p ∈ q, p.Sound n
  bounds : ∀ p ∈ q, lo ≤ p.hi ∧ p.hi ≤ hi
  sorted : q.Pairwise fun p p' => p.hi ≤ p'.hi
  retrans : ∀ p ∈ q.tail, p.isRetrans = false

namespace Ordered
variable {n lo hi : ℕ} {q : List DtpPkt} {p : DtpPkt}

theorem nil : Ordered n lo hi [] := ⟨by simp, by simp, List.Pairwise.nil, by simp⟩

theorem single (hp : p.Sound n) (hlo : lo ≤ p.hi) (hhi : p.hi ≤ hi) : Ordered n lo hi [p] :=
  ⟨by simpa using hp, by simpa using ⟨hlo, hhi⟩, List.pairwise_singleton _ _, by simp⟩

theorem tail (h : Ordered n lo hi (p :: q)) : Ordered n lo hi q where
  sound p' hp := h.sound p' (List.mem_cons_of_mem _ hp)
  bounds p' hp := h.bounds p' (List.mem_cons_of_mem _ hp)
  sorted := (List.pairwise_cons.mp h.sorted).2
  retrans p' hp := h.retrans p' (List.mem_of_mem_tail hp)

theorem widen (h : Ordered n lo hi q) {hi' : ℕ} (hle : hi ≤ hi') : Ordered n lo hi' q where
  sound := h.sound
  bounds p hp := ⟨(h.bounds p hp).1, (h.bounds p hp).2.trans hle⟩
  sorted := h.sorted
  retrans := h.retrans

theorem mono (h : Ordered n lo hi q) {m : ℕ} (hle : n ≤ m)
    (hfin : ∀ p ∈ q, p.header.hdr.fin = false) : Ordered m lo hi q where
  sound p hp := (h.sound p hp).mono hle (hfin p hp)
  bounds := h.bounds
  sorted := h.sorted
  retrans := h.retrans

/-- The first packet replaced by one that ends at the same place. -/
theorem replaceHead (h : Ordered n lo hi (p :: q)) {p' : DtpPkt} {lo' : ℕ} (hp : p'.Sound n)
    (hhi : p'.hi = p.hi) (hlo : lo' ≤ p.hi) : Ordered n lo' hi (p' :: q) := by
  have hsorted := List.pairwise_cons.mp h.sorted
  refine ⟨?_, ?_, ?_, h.retrans⟩
  · intro x hx
    cases List.mem_cons.mp hx with
    | inl heq => exact heq ▸ hp
    | inr hmem => exact h.sound x (List.mem_cons_of_mem _ hmem)
  · intro x hx
    cases List.mem_cons.mp hx with
    | inl heq =>
      rw [heq, hhi]
      exact ⟨hlo, (h.bounds p (by simp)).2⟩
    | inr hmem =>
      exact ⟨hlo.trans (hsorted.1 x hmem), (h.bounds x (List.mem_cons_of_mem _ hmem)).2⟩
  · exact List.pairwise_cons.mpr ⟨fun x hx => hhi ▸ hsorted.1 x hx, hsorted.2⟩

/-- A packet at the end that starts where the others stop. -/
theorem concat (h : Ordered n lo hi q) {hi' : ℕ} (hp : p.Sound n) (h0 : hi ≤ p.hi) (h1 : lo ≤ p.hi) (h2 : p.hi ≤ hi')
    (hr : p.isRetrans = false) : Ordered n lo hi' (q ++ [p]) := by
  refine ⟨?_, ?_, ?_, ?_⟩
  · intro x hx
    cases List.mem_append.mp hx with
    | inl hmem => exact h.sound x hmem
    | inr hmem => exact (List.mem_singleton.mp hmem) ▸ hp
  · intro x hx
    cases List.mem_append.mp hx with
    | inl hmem =>
      have hb := h.bounds x hmem
      omega
    | inr hmem => exact (List.mem_singleton.mp hmem) ▸ ⟨h1, h2⟩
  · refine List.pairwise_append.mpr ⟨h.sorted, List.pairwise_singleton _ _, ?_⟩
    intro x hx y hy
    rw [List.mem_singleton.mp hy]
    exact (h.bounds x hx).2.trans h0
  · intro x hx
    cases q with
    | nil => simp at hx
    | cons p₀ q =>
      cases List.mem_append.mp hx with
      | inl hmem => exact h.retrans x hmem
      | inr hmem => exact (List.mem_singleton.mp hmem) ▸ hr

end Ordered

section Cut
variable {n lo hi : ℕ} {q : List DtpPkt} {ack : UInt32}

/-- What `RemovePacket` leaves ends at or above the ACK number. -/
theorem Ordered.cut (h : Ordered n lo hi q) (hn : n < 2147483648) : Ordered n ack.toNat hi (cutQueue ack q).rest := by
  induction q with
  | nil => exact Ordered.nil
  | cons p q ih =>
    have hp := h.sound p (by simp)
    have hstop := hp.toNat_stop hn
    have hsorted := List.pairwise_cons.mp h.sorted
    simp only [cutQueue]
    split_ifs with h0 h1 h2
    · exact ih h.tail
    · refine h.replaceHead hp rfl ?_
      rw [← hstop, h1]
    · refine ⟨h.tail.sound, ?_, h.tail.sorted, h.tail.retrans⟩
      intro x hx
      have hx0 := hsorted.1 x hx
      rw [← hstop, h1] at hx0
      exact ⟨hx0, (h.tail.bounds x hx).2⟩
    · have hlt : ack.toNat < p.hi := by
        rw [UInt32.lt_iff_toNat_lt] at h0
        rw [← UInt32.toNat_inj] at h1
        omega
      have hhi := congrArg Ival.hi (hp.trim_ival hn hlt).1
      exact h.replaceHead (hp.trim hn hlt) hhi hlt.le

theorem lt_ack_of_freed (h : Ordered n lo hi q) (hn : n < 2147483648)
    (hfin : ∀ p ∈ q, p.header.hdr.fin = true) (hf : (cutQueue ack q).freed = true) :
    n < ack.toNat := by
  cases q with
  | nil => simp [cutQueue] at hf
  | cons p q =>
    have hp := h.sound p (by simp)
    have hpf := hfin p (by simp)
    have hstop := hp.toNat_stop hn
    rw [hp.fin hpf] at hstop
    simp only [cutQueue] at hf
    split_ifs at hf with h0
    rw [UInt32.lt_iff_toNat_lt] at h0
    omega

end Cut

/-! ## The invariant -/

/-- The send offsets are in order, the queue lies between them, and nothing on the wire
reaches past the `n` bytes of the stream. -/
structure SendOrder (n : ℕ) (c : DtpContext) : Prop where
  written : c.lastByteWritten.toNat = n + c.isFINSent.toNat
  small : n + (c.closeCalled || c.isFINSent).toNat < 2147483648
  acked_le : c.lastByteAcked.toNat ≤ c.lastByteSent.toNat
  sent_le : c.lastByteSent.toNat ≤ c.lastByteWritten.toNat
  bufLen : 0 ≤ c.writeBufLen ∧ c.writeBufLen < 2147483648
  buffered : n ≤ c.lastByteAcked.toNat + c.writeBufLen.toNat
  queue : Ordered n c.lastByteAcked.toNat c.lastByteSent.toNat c.packetQ
  finSent : ∀ p ∈ c.packetQ, p.header.hdr.fin = true → c.isFINSent = true
  /-- a FIN that has not timed out is in flight -/
  flight : c.isFINSent = true → c.isCongested = false → c.lastByteSent = c.lastByteWritten
  /-- a FIN that has timed out is alone in the queue -/
  lone : c.isFINSent = true → c.isCongested = true → ∀ p ∈ c.packetQ, p.header.hdr.fin = true
  wire : ∀ x ∈ c.wire, x.2.EndsBy n
  synSent : c.sendSYN = true → c.isSYNSent = true
  opening : c.state = .synSent → c.sendSYN = true
  connected : c.isNetConnected = true
  ackInserted : c.isACKInserted = false
  localID : c.localID.length = sha1DigestLength
  rcvLoBuf : c.rcvLoBufHB = 0

/-- The fields the invariant depends on, apart from the state. -/
structure SendView extends SendSide where
  isCongested : Bool
  isFINSent : Bool
  closeCalled : Bool
  sendSYN : Bool
  isSYNSent : Bool
  isNetConnected : Bool
  isACKInserted : Bool
  localID : List UInt8
  rcvLoBufHB : UInt32
  wire : List (SockAddr × Datagram)

def DtpContext.sendView (c : DtpContext) : SendView where
  toSendSide := c.toSendSide
  isCongested := c.isCongested
  isFINSent := c.isFINSent
  closeCalled := c.closeCalled
  sendSYN := c.sendSYN
  isSYNSent := c.isSYNSent
  isNetConnected := c.isNetConnected
  isACKInserted := c.isACKInserted
  localID := c.localID
  rcvLoBufHB := c.rcvLoBufHB
  wire := c.wire

namespace SendOrder
variable {n : ℕ} {c c' : DtpContext}

theorem of_view (h : SendOrder n c) (hv : c'.sendView = c.sendView)
    (hs : c'.state = .synSent → c.state = .synSent) : SendOrder n c' := by
  simp only [sendView, SendView.mk.injEq] at hv
  obtain ⟨hside, hcong, hfin, hclose, hsyn, hsent, hnet, hack, hid, hlo, hwire⟩ := hv
  have ha : c'.lastByteAcked = c.lastByteAcked := congrArg SendSide.lastByteAcked hside
  have hst : c'.lastByteSent = c.lastByteSent := congrArg SendSide.lastByteSent hside
  have hw : c'.lastByteWritten = c.lastByteWritten := congrArg SendSide.lastByteWritten hside
  have hlen : c'.writeBufLen = c.writeBufLen := congrArg SendSide.writeBufLen hside
  have hq : c'.packetQ = c.packetQ := congrArg SendSide.packetQ hside
  constructor
  · rw [hw, hfin]; exact h.written
  · rw [hclose, hfin]; exact h.small
  · rw [ha, hst]; exact h.acked_le
  · rw [hst, hw]; exact h.sent_le
  · rw [hlen]; exact h.bufLen
  · rw [ha, hlen]; exact h.buffered
  · rw [ha, hst, hq]; exact h.queue
  · rw [hq, hfin]; exact h.finSent
  · rw [hfin, hcong, hst, hw]; exact h.flight
  · rw [hfin, hcong, hq]; exact h.lone
  · rw [hwire]; exact h.wire
  · rw [hsyn, hsent]; exact h.synSent
  · rw [hsyn]; exact fun hs' => h.opening (hs hs')
  · rw [hnet]; exact h.connected
  · rw [hack]; exact h.ackInserted
  · rw [hid]; exact h.localID
  · rw [hlo]; exact h.rcvLoBuf

theorem small' (h : SendOrder n c) : n < 2147483648 := by
  have hs := h.small
  omega

theorem written_lt (h : SendOrder n c) : c.lastByteWritten.toNat < 2147483648 := by
  have hw := h.written
  have hs := h.small
  cases hf : c.isFINSent with
  | false =>
    rw [hf] at hw
    simp at hw
    omega
  | true =>
    rw [hf] at hw hs
    simp at hw hs
    omega

theorem send (h : SendOrder n c) (addr : SockAddr) {d : Datagram} (hd : d.EndsBy n) : SendOrder n (c.send addr d) := by
  refine { h with wire := ?_ }
  intro x hx
  cases List.mem_append.mp hx with
  | inl hmem => exact h.wire x hmem
  | inr hmem =>
    rw [List.mem_singleton.mp hmem]
    exact hd

end SendOrder

/-! ## `DTPWriteAvail` -/

section Header
variable (c : DtpContext) (flags : Flags)

theorem writeHeader_seq : (c.writeHeader flags).hdr.seq = c.lastByteSent := by
  simp only [writeHeader]
  split_ifs <;> rfl

theorem writeHeader_flags : (c.writeHeader flags).hdr.toFlags = flags := by
  simp only [writeHeader]
  split_ifs <;> rfl

/-- Host ID, deadline and window scale fit the data offset. -/
theorem writeHeader_wf (hid : c.localID.length = sha1DigestLength) : (c.writeHeader flags).Wf := by
  simp only [writeHeader]
  split_ifs <;>
    first
      | exact wf_dtpGenerateHeader ..
      | (apply wf_dtpAddOptionToHeader
         simp [dtpAddOptionToHeader, dtpGenerateHeader, bytes32, hid, sha1DigestLength])

end Header

section Write
variable {n : ℕ} {c : DtpContext} {f : Flags} {l : ℤ}

/-- Outside `SYN_SENT` a round sends between one byte and what it may. -/
theorem writeLen_bounds (hid : c.localID.length = sha1DigestLength) (hs : c.state ≠ .synSent)
    (hlen : 0 < l) : 0 < c.writeLen f l ∧ c.writeLen f l ≤ l := by
  have hpad := (writeHeader_wf c f hid).padded_le
  rw [writeLen, if_neg hs, mtu]
  omega

theorem payloadLen_writePkt : (c.writePkt f l).payloadLen = c.writeLen f l := by
  simp [DtpPkt.payloadLen, writePkt]

theorem fin_writePkt : (c.writePkt f l).header.hdr.fin = f.fin := congrArg Flags.fin (writeHeader_flags c f)

theorem hi_writePkt : (c.writePkt f l).hi = c.lastByteSent.toNat + (c.writeLen f l).toNat := by
  rw [DtpPkt.hi, payloadLen_writePkt]
  rfl

theorem sound_writePkt (hid : c.localID.length = sha1DigestLength) (hfin : f.fin = false) (h0 : 0 ≤ c.writeLen f l)
    (h1 : c.lastByteSent.toNat + (c.writeLen f l).toNat ≤ n) : (c.writePkt f l).Sound n where
  seq := writeHeader_seq c f
  header := writeHeader_wf c f hid
  headerLen := rfl
  payload := payloadLen_writePkt ▸ h0
  hi_le := hi_writePkt ▸ h1
  fin hf := by
    rw [fin_writePkt, hfin] at hf
    cases hf

theorem endsBy_writeDatagram (hid : c.localID.length = sha1DigestLength)
    (h1 : c.lastByteSent.toNat + (c.writeLen f l).toNat ≤ n) : (c.writeDatagram f l).EndsBy n := by
  intro _ _ _
  have hseq : (c.writeDatagram f l).hdr.seq = c.lastByteSent := writeHeader_seq c f
  rw [hseq, writeDatagram, payload_mkDatagram (writeHeader_wf c f hid), length_peek]
  exact h1

namespace SendOrder

theorem writeOne (h : SendOrder n c) (hf : c.isFINSent = false) (hs : c.state ≠ .synSent) (hfin : f.fin = false)
    (hlen : 0 < l) (hle : l ≤ (c.lastByteWritten.toNat : ℤ) - c.lastByteSent.toNat) : SendOrder n (c.writeOne f l) := by
  obtain ⟨hpos, hmax⟩ := writeLen_bounds (f := f) h.localID hs hlen
  have hwritten := h.written
  rw [hf, Bool.toNat_false, Nat.add_zero] at hwritten
  have hsmall := h.small'
  have hend : c.lastByteSent.toNat + (c.writeLen f l).toNat ≤ n := by omega
  have hsent : (c.writeOne f l).lastByteSent.toNat = c.lastByteSent.toNat + (c.writeLen f l).toNat :=
    toNat_add_u32 hpos.le (by omega)
  have hacked := h.acked_le
  have hhi := hi_writePkt (c := c) (f := f) (l := l)
  refine { h with acked_le := ?_, sent_le := ?_, queue := ?_, finSent := ?_, flight := ?_
                  lone := ?_, wire := ?_, synSent := ?_ }
  · rw [hsent]
    exact hacked.trans (by omega)
  · rw [hsent]
    exact hend.trans hwritten.ge
  · rw [hsent]
    exact h.queue.concat (sound_writePkt h.localID hfin hpos.le hend) (by omega) (by omega)
      (by omega) rfl
  · intro p hp hpf
    cases List.mem_append.mp hp with
    | inl hmem => exact h.finSent p hmem hpf
    | inr hmem =>
      rw [List.mem_singleton.mp hmem, fin_writePkt, hfin] at hpf
      cases hpf
  · exact fun hf' => absurd (hf.symm.trans hf') (by decide)
  · exact fun hf' => absurd (hf.symm.trans hf') (by decide)
  · intro x hx
    cases List.mem_append.mp hx with
    | inl hmem => exact h.wire x hmem
    | inr hmem =>
      rw [List.mem_singleton.mp hmem]
      exact endsBy_writeDatagram h.localID hend
  · intro hsy
    change (c.isSYNSent || f.syn) = true
    rw [h.synSent hsy, Bool.true_or]

end SendOrder

/-- What sending data leaves alone. -/
structure FlushFrame (c c' : DtpContext) : Prop where
  recvSide : c'.toRecvSide = c.toRecvSide
  lifecycle : c'.toLifecycle = c.toLifecycle
  liveness : c'.toLiveness = c.toLiveness
  socketSide : c'.toSocketSide = c.toSocketSide
  written : c'.lastByteWritten = c.lastByteWritten
  acked : c'.lastByteAcked = c.lastByteAcked
  writeBuf : c'.writeBuf = c.writeBuf
  writeBufLen : c'.writeBufLen = c.writeBufLen
  congested : c'.isCongested = c.isCongested
  cwnd : c'.cwnd = c.cwnd
  peerWindow : c'.toPeerWindow = c.toPeerWindow

namespace FlushFrame

theorem refl (c : DtpContext) : FlushFrame c c :=
  ⟨rfl, rfl, rfl, rfl, rfl, rfl, rfl, rfl, rfl, rfl, rfl⟩

theorem trans {c c' c'' : DtpContext} (h : FlushFrame c c') (h' : FlushFrame c' c'') : FlushFrame c c'' :=
  ⟨h'.recvSide.trans h.recvSide, h'.lifecycle.trans h.lifecycle, h'.liveness.trans h.liveness,
    h'.socketSide.trans h.socketSide, h'.written.trans h.written, h'.acked.trans h.acked,
    h'.writeBuf.trans h.writeBuf, h'.writeBufLen.trans h.writeBufLen,
    h'.congested.trans h.congested, h'.cwnd.trans h.cwnd, h'.peerWindow.trans h.peerWindow⟩

theorem writeOne (c : DtpContext) (flags : Flags) (len : ℤ) : FlushFrame c (c.writeOne flags len) :=
  ⟨rfl, rfl, rfl, rfl, rfl, rfl, rfl, rfl, rfl, rfl, rfl⟩

theorem writeQueue (c : DtpContext) (flags : Flags) (len : ℤ) : FlushFrame c (c.writeQueue flags len) :=
  ⟨rfl, rfl, rfl, rfl, rfl, rfl, rfl, rfl, rfl, rfl, rfl⟩

theorem writeLoop (net : ℕ → Bool) (fuel k : ℕ) (flags : Flags) (len : ℤ) (c : DtpContext) :
    FlushFrame c (DtpContext.writeLoop net fuel k flags len c).1 := by
  induction fuel generalizing k flags len c with
  | zero => exact refl c
  | succ fuel ih =>
    simp only [DtpContext.writeLoop]
    split_ifs
    · exact refl c
    · exact writeQueue c flags len
    · exact writeOne c flags len
    · exact (writeOne c flags len).trans (ih _ _ _ _)

theorem writeFlush (net : ℕ → Bool) (c : DtpContext) : FlushFrame c (c.writeFlush net).1 := by
  simp only [DtpContext.writeFlush]
  split_ifs
  · exact refl c
  · exact refl c
  · refine trans ?_ (writeLoop net _ _ _ _ _)
    exact ⟨rfl, rfl, rfl, rfl, rfl, rfl, rfl, rfl, rfl, rfl, rfl⟩

end FlushFrame

/-- The bytes on offer are not more than the unsent ones. -/
theorem sendLen_le (h : SendOrder n c) : c.sendLen ≤ (c.lastByteWritten.toNat : ℤ) - c.lastByteSent.toNat := by
  have hle := h.sent_le
  have hlt := h.written_lt
  have hunsent : i32 (c.lastByteWritten - c.lastByteSent) =
      (c.lastByteWritten.toNat : ℤ) - c.lastByteSent.toNat := i32_sub hlt (by omega)
  have hmin := toNat_min (u32 (i32 (c.lastByteWritten - c.lastByteSent)))
    (c.rcvWindow - (c.lastByteSent - c.lastByteAcked))
  have hu : (u32 (i32 (c.lastByteWritten - c.lastByteSent))).toNat =
      c.lastByteWritten.toNat - c.lastByteSent.toNat := by
    rw [hunsent, toNat_u32 (by omega) (by omega)]
    omega
  rw [sendLen]
  refine le_trans (min_le_left _ _) ?_
  rw [i32_of_lt (by omega), hmin, hu]
  omega

theorem pos_of_writeGuard (hg : c.writeGuard l = true) : 0 < l := by
  rw [writeGuard, Bool.or_eq_true, Bool.and_eq_true, decide_eq_true_eq, decide_eq_true_eq, maxPayload] at hg
  omega

namespace SendOrder

/-- What a round of the loop keeps, the loop keeps. A round starts with no FIN out, since one in flight leaves
nothing to send. -/
theorem writeLoop_rule {P : DtpContext → Prop} (horder : ∀ {c}, P c → SendOrder n c)
    (hone : ∀ {c f l}, P c → c.isCongested = false → c.isFINSent = false → c.state ≠ .synSent →
      f.fin = false → 0 < l → l ≤ (c.lastByteWritten.toNat : ℤ) - c.lastByteSent.toNat → P (c.writeOne f l))
    (h : P c) (hc : c.isCongested = false) (hs : c.state ≠ .synSent) (hfin : f.fin = false)
    (hle : l ≤ (c.lastByteWritten.toNat : ℤ) - c.lastByteSent.toNat) (fuel k : ℕ) :
    P (writeLoop (fun _ => true) fuel k f l c).1 := by
  induction fuel generalizing k f l c with
  | zero => exact h
  | succ fuel ih =>
    have ho := horder h
    simp only [writeLoop, Bool.not_true, Bool.false_eq_true, if_false, hs]
    split_ifs with hg
    · exact h
    · have hpos : 0 < l := pos_of_writeGuard (by simpa using hg)
      have hf : c.isFINSent = false := by
        cases hf : c.isFINSent with
        | false => rfl
        | true =>
          have heq := ho.flight hf hc
          rw [heq] at hle
          omega
      obtain ⟨hwpos, hwmax⟩ := writeLen_bounds (f := f) ho.localID hs hpos
      have hwritten := ho.written_lt
      have hsent : (c.writeOne f l).lastByteSent.toNat = c.lastByteSent.toNat + (c.writeLen f l).toNat :=
        toNat_add_u32 hwpos.le (by omega)
      refine ih (c := c.writeOne f l) (f := laterFlags f) (hone h hc hf hs hfin hpos hle) hc hs hfin
        ?_ (k + 1)
      rw [hsent]
      change _ ≤ (c.lastByteWritten.toNat : ℤ) - _
      omega

/-- `DTPWriteAvail` returns at once, or runs its loop on an uncongested context outside
`SYN_SENT`. -/
theorem writeFlush_cases (h : SendOrder n c) :
    (c.writeFlush fun _ => true) = (c, false) ∨ (c.isCongested = false ∧ c.state ≠ .synSent ∧
        (c.writeFlush fun _ => true) = writeLoop (fun _ => true) c.sendLen.toNat 0 c.writeFlags c.sendLen
            c.beginWrite) := by
  simp only [writeFlush]
  split_ifs with h0 h1
  · exact Or.inl rfl
  · exact Or.inl rfl
  · have hc : c.isCongested = false := by
      cases hcong : c.isCongested with
      | false => rfl
      | true => simp [hcong] at h0
    have hsyn : c.wantsSYN = false := by
      cases hw : c.wantsSYN with
      | false => rfl
      | true =>
        have hsend : c.sendSYN = true := by
          simp only [wantsSYN, Bool.and_eq_true] at hw
          exact hw.1
        simp [hw, h.synSent hsend] at h1
    refine Or.inr ⟨hc, ?_, rfl⟩
    intro hs
    have hsend := h.opening hs
    simp [wantsSYN, hsend, hs] at hsyn

/-- `DTPWriteAvail` up to its FIN keeps what its rounds keep. -/
theorem writeFlush_rule {P : DtpContext → Prop} (horder : ∀ {c}, P c → SendOrder n c)
    (hone : ∀ {c f l}, P c → c.isCongested = false → c.isFINSent = false → c.state ≠ .synSent →
      f.fin = false → 0 < l → l ≤ (c.lastByteWritten.toNat : ℤ) - c.lastByteSent.toNat → P (c.writeOne f l))
    (hbegin : P c → P c.beginWrite) (h : P c) : P (c.writeFlush fun _ => true).1 := by
  obtain heq | ⟨hc, hs, heq⟩ := (horder h).writeFlush_cases
  · rw [heq]
    exact h
  · rw [heq]
    have hle := sendLen_le (horder h)
    exact writeLoop_rule (c := c.beginWrite) (f := c.writeFlags) horder hone (hbegin h) hc hs rfl hle _ _

theorem writeFlush (h : SendOrder n c) : SendOrder n (c.writeFlush fun _ => true).1 :=
  writeFlush_rule id (fun h _ hf hs hfin hpos hle => h.writeOne hf hs hfin hpos hle) (fun h => h.of_view rfl id) h

end SendOrder

theorem payloadLen_finPkt : c.finPkt.payloadLen = 0 := Int.sub_self _

theorem hi_finPkt : c.finPkt.hi = c.lastByteSent.toNat := by
  rw [DtpPkt.hi, payloadLen_finPkt]
  rfl

theorem sound_finPkt (hn : c.lastByteSent.toNat = n) : c.finPkt.Sound n where
  seq := rfl
  header := wf_dtpGenerateHeader ..
  headerLen := by
    change ((c.finHeader.size : ℕ) : ℤ) = (c.finHeader.padded : ℕ)
    rw [finHeader, padded_dtpGenerateHeader]
  payload := payloadLen_finPkt.ge
  hi_le := (hi_finPkt.trans hn).le
  fin _ := hi_finPkt.trans hn

namespace SendOrder

theorem dtpSendFINPacket (h : SendOrder n c) (hf : c.isFINSent = false) (hclose : c.closeCalled = true)
    (hc : c.isCongested = false) (heq : c.lastByteSent = c.lastByteWritten) : SendOrder n c.dtpSendFINPacket := by
  have hwritten := h.written
  rw [hf, Bool.toNat_false, Nat.add_zero] at hwritten
  have hsmall := h.small
  rw [hclose, Bool.true_or, Bool.toNat_true] at hsmall
  have hone : (1 : UInt32).toNat = 1 := rfl
  have hw : c.dtpSendFINPacket.lastByteWritten.toNat = n + 1 := by
    change (c.lastByteWritten + 1).toNat = n + 1
    rw [toNat_add_word (by omega), hwritten, hone]
  have hs : c.dtpSendFINPacket.lastByteSent = c.dtpSendFINPacket.lastByteWritten := by
    change c.lastByteSent + 1 = c.lastByteWritten + 1
    rw [heq]
  have hacked := h.acked_le
  rw [heq, hwritten] at hacked
  have hhi : c.finPkt.hi = n := by rw [hi_finPkt, heq, hwritten]
  refine { h with written := ?_, small := ?_, acked_le := ?_, sent_le := ?_, queue := ?_
                  finSent := ?_, flight := ?_, lone := ?_, wire := ?_, opening := ?_ }
  · exact hw
  · change n + (c.closeCalled || true).toNat < _
    rw [Bool.or_true]
    exact hsmall
  · rw [hs, hw]
    exact hacked.trans (by omega)
  · exact (congrArg UInt32.toNat hs).le
  · rw [hs, hw]
    refine h.queue.concat (sound_finPkt (hi_finPkt.symm.trans hhi)) ?_ (hacked.trans hhi.ge) (by omega) rfl
    rw [hhi, heq, hwritten]
  · exact fun _ _ _ => rfl
  · exact fun _ _ => hs
  · exact fun _ hc' => absurd (hc.symm.trans hc') (by decide)
  · intro x hx
    cases List.mem_append.mp hx with
    | inl hmem => exact h.wire x hmem
    | inr hmem =>
      rw [List.mem_singleton.mp hmem]
      exact endsBy_control (wf_dtpGenerateHeader ..) n
  · intro hst
    refine h.opening ?_
    change finState c.state = .synSent at hst
    cases hcs : c.state <;> rw [hcs] at hst <;> simp_all [finState]

end SendOrder

/-- `DTPWriteAvail` ends with `DTPSendFINPacket`. -/
def DtpContext.sendsFIN (x : DtpContext) : Bool :=
  (x.writeFlush fun _ => true).2 && (x.writeFlush fun _ => true).1.wantsFIN

/-- The FIN is sent in a state in which all data has been sent. -/
def FinAfterData (x : DtpContext) : Prop :=
  x.sendsFIN = true → (x.writeFlush fun _ => true).1.lastByteSent = (x.writeFlush fun _ => true).1.lastByteWritten

theorem dtpWriteAvail_eq (x : DtpContext) :
    x.dtpWriteAvail = if x.sendsFIN then (x.writeFlush fun _ => true).1.dtpSendFINPacket
      else (x.writeFlush fun _ => true).1 := rfl

/-- When the loop of `DTPWriteAvail` was reached, the sender is not congested. -/
theorem congested_of_writeFlush {net : ℕ → Bool} (h : (c.writeFlush net).2 = true) : c.isCongested = false := by
  cases hc : c.isCongested with
  | false => rfl
  | true => simp [writeFlush, hc] at h

/-- `DTPWriteAvail` sends data and then perhaps the FIN. -/
theorem dtpWriteAvail_cases (c : DtpContext) :
    c.dtpWriteAvail = (c.writeFlush fun _ => true).1 ∨
      (c.dtpWriteAvail = (c.writeFlush fun _ => true).1.dtpSendFINPacket ∧
        (c.writeFlush fun _ => true).1.wantsFIN = true ∧ c.isCongested = false) := by
  rw [dtpWriteAvail, dtpWriteAvailOn]
  split_ifs with h
  · rw [Bool.and_eq_true] at h
    exact Or.inr ⟨rfl, h.2, congested_of_writeFlush h.1⟩
  · exact Or.inl rfl

/-- What every packet keeps, `DTPWriteAvail` keeps. -/
theorem dtpWriteAvail_induction {P : DtpContext → Prop} (hbegin : ∀ c, P c → P c.beginWrite)
    (hone : ∀ c flags len, P c → P (c.writeOne flags len)) (hfin : ∀ c, P c → P c.dtpSendFINPacket)
    {c : DtpContext} (h : P c) : P c.dtpWriteAvail := by
  have hloop : ∀ (fuel k : ℕ) (flags : Flags) (len : ℤ) (c : DtpContext), P c →
      P (writeLoop (fun _ => true) fuel k flags len c).1 := by
    intro fuel
    induction fuel with
    | zero =>
      intro _ _ _ c h
      exact h
    | succ fuel ih =>
      intro k flags len c h
      simp only [writeLoop, Bool.not_true, Bool.false_eq_true, if_false]
      split_ifs
      · exact h
      · exact hone c flags len h
      · exact ih _ _ _ _ (hone c flags len h)
  have hflush : P (c.writeFlush fun _ => true).1 := by
    simp only [writeFlush]
    split_ifs
    · exact h
    · exact h
    · exact hloop _ _ _ _ _ (hbegin c h)
  rcases dtpWriteAvail_cases c with heq | ⟨heq, -, -⟩
  · rw [heq]
    exact hflush
  · rw [heq]
    exact hfin _ hflush

namespace SendOrder

theorem dtpWriteAvail (h : SendOrder n c) (hfin : FinAfterData c) : SendOrder n c.dtpWriteAvail := by
  have hframe := FlushFrame.writeFlush (fun _ => true) c
  rw [dtpWriteAvail_eq]
  split_ifs with hsends
  · have hall := hfin hsends
    simp only [sendsFIN, wantsFIN, Bool.and_eq_true, Bool.not_eq_true'] at hsends
    obtain ⟨hdone, ⟨hclose, hf⟩, -⟩ := hsends
    exact h.writeFlush.dtpSendFINPacket hf hclose (hframe.congested.trans (congested_of_writeFlush hdone)) hall
  · exact h.writeFlush

end SendOrder
end Write

/-! ## `HandleACKPacket` -/

section Ack
variable {n : ℕ} {c : DtpContext} {a : UInt32}

theorem toNat_shiftAcked_sent : (c.shiftAcked a).lastByteSent.toNat = max c.lastByteSent.toNat a.toNat := by
  change (if c.lastByteSent < a then a else c.lastByteSent).toNat = _
  split_ifs with h
  · rw [UInt32.lt_iff_toNat_lt] at h
    omega
  · rw [UInt32.lt_iff_toNat_lt] at h
    omega

namespace SendOrder

/-- Moving the acknowledged offset and cutting the queue there. -/
theorem shiftRemove (h : SendOrder n c) (h0 : c.lastByteAcked.toNat ≤ a.toNat)
    (h1 : a.toNat ≤ c.lastByteWritten.toNat) : SendOrder n ((c.shiftAcked a).removePacket a) := by
  have hsent := toNat_shiftAcked_sent (c := c) (a := a)
  have hacked := h.acked_le
  have hsl := h.sent_le
  have hbuf := h.buffered
  have hsmall := h.small'
  have hcut : Ordered n a.toNat ((c.shiftAcked a).removePacket a).lastByteSent.toNat
      (cutQueue a c.packetQ).rest := by
    refine Ordered.widen (h.queue.cut hsmall) ?_
    exact le_trans (le_max_left _ _) hsent.ge
  refine { h with acked_le := ?_, sent_le := ?_, buffered := ?_, queue := ?_, finSent := ?_
                  flight := ?_, lone := ?_ }
  · exact le_trans (le_max_right _ _) hsent.ge
  · exact le_trans hsent.le (max_le hsl h1)
  · exact hbuf.trans (Nat.add_le_add_right h0 _)
  · rw [packetQ_removePacket]
    exact hcut
  · intro p hp hpf
    rw [packetQ_removePacket] at hp
    obtain ⟨p₀, hmem, -, hflags⟩ := mem_cutQueue hp
    have heq := congrArg Flags.fin hflags
    exact h.finSent p₀ hmem (heq.trans hpf)
  · -- the FIN is in flight, or the ACK that frees it acknowledges it
    intro hf hc
    apply UInt32.toNat_inj.mp
    refine le_antisymm (le_trans hsent.le (max_le hsl h1)) (le_trans ?_ hsent.ge)
    rw [isCongested_removePacket] at hc
    change (c.isCongested && !(cutQueue a c.packetQ).freed) = false at hc
    cases hcong : c.isCongested with
    | false => exact le_trans (congrArg UInt32.toNat (h.flight hf hcong)).ge (le_max_left _ _)
    | true =>
      have hfreed : (cutQueue a c.packetQ).freed = true := by simpa [hcong] using hc
      have hlt := lt_ack_of_freed h.queue hsmall (h.lone hf hcong) hfreed
      have hw := h.written
      have hf' : c.isFINSent = true := hf
      rw [hf', Bool.toNat_true] at hw
      exact le_trans (show c.lastByteWritten.toNat ≤ a.toNat by omega) (le_max_right _ _)
  · intro hf hc p hp
    rw [isCongested_removePacket, Bool.and_eq_true] at hc
    rw [packetQ_removePacket] at hp
    obtain ⟨p₀, hmem, -, hflags⟩ := mem_cutQueue hp
    have heq := congrArg Flags.fin hflags
    exact heq.symm.trans (h.lone hf hc.1 p₀ hmem)

theorem creditACK (h : SendOrder n c) (acked : ℤ) : SendOrder n (c.creditACK acked) := by
  simp only [DtpContext.creditACK, DtpContext.establish]
  split_ifs
  · exact h.of_view rfl (fun hs => by cases hs)
  · exact h.of_view rfl id
  · exact h

theorem recordACK (h : SendOrder n c) (h0 : c.lastByteAcked.toNat ≤ a.toNat)
    (h1 : a.toNat ≤ c.lastByteWritten.toNat) : SendOrder n (c.recordACK a) :=
  (h.shiftRemove h0 h1).creditACK _

end SendOrder
end Ack

/-! ## Retransmission -/

section Retransmit
variable {n : ℕ} {c : DtpContext} {p : DtpPkt} {q : List DtpPkt}

theorem dtpRetransmit_eq (hc : c.isNetConnected = true) :
    c.dtpRetransmit p = ((c.assert (p.seqNum == p.header.hdr.seq)).send c.peerAddr (c.retransDatagram p),
        { p with isRetrans := true }) := by
  have hnet : ((c.assert (p.seqNum == p.header.hdr.seq)).send c.peerAddr
      (c.retransDatagram p)).isNetConnected = true := hc
  simp only [dtpRetransmit, hnet, Bool.not_true, Bool.false_eq_true, if_false]

/-- The context after the first packet has been sent again. -/
theorem retransmit_eq (hnet : c.isNetConnected = true) (hq : c.packetQ = p :: q) :
    (c.dtpRetransmit p).1.setHead (c.dtpRetransmit p).2 =
      ((c.assert (p.seqNum == p.header.hdr.seq)).send c.peerAddr (c.retransDatagram p)).setQueue
        ({ p with isRetrans := true } :: q) := by
  rw [dtpRetransmit_eq hnet]
  simp only [setHead, setQueue, send, assert, hq, List.tail_cons]

theorem endsBy_retransDatagram (hp : p.Sound n) : (c.retransDatagram p).EndsBy n := by
  intro _ _ _
  have hseq : (c.retransDatagram p).hdr.seq = p.seqNum := hp.seq
  rw [hseq, retransDatagram, payload_mkDatagram hp.header, length_peek]
  exact hp.hi_le

namespace SendOrder

/-- Another queue, between the same offsets and with FINs only if there were. -/
theorem setQueue (h : SendOrder n c)
    (hq : Ordered n c.lastByteAcked.toNat c.lastByteSent.toNat q)
    (hfin : ∀ x ∈ q, ∃ y ∈ c.packetQ, y.header.hdr.fin = x.header.hdr.fin) :
    SendOrder n (c.setQueue q) := by
  refine { h with queue := hq, finSent := ?_, lone := ?_ }
  · intro x hx hxf
    obtain ⟨y, hmem, heq⟩ := hfin x hx
    exact h.finSent y hmem (heq.trans hxf)
  · intro hf hc x hx
    obtain ⟨y, hmem, heq⟩ := hfin x hx
    exact heq.symm.trans (h.lone hf hc y hmem)

theorem dropFirst (h : SendOrder n c) (hq : c.packetQ = p :: q) : SendOrder n (c.setQueue q) := by
  have hord := h.queue
  rw [hq] at hord
  refine h.setQueue hord.tail ?_
  intro x hx
  exact ⟨x, hq ▸ List.mem_cons_of_mem _ hx, rfl⟩

theorem mark (h : SendOrder n c) (hq : c.packetQ = p :: q) :
    SendOrder n (c.setQueue ({ p with isRetrans := true } :: q)) := by
  have hord := h.queue
  rw [hq] at hord
  have hp := hord.sound p (by simp)
  refine h.setQueue (hord.replaceHead (hp.retrans true) rfl (hord.bounds p (by simp)).1) ?_
  intro x hx
  cases List.mem_cons.mp hx with
  | inl heq => exact ⟨p, by simp [hq], by rw [heq]⟩
  | inr hmem => exact ⟨x, by simp [hq, hmem], rfl⟩

end SendOrder
end Retransmit

/-! ## ACK packets as a whole -/

section HandleAck
variable {n : ℕ} {c c' : DtpContext} {a : UInt32} {w : UInt16}

theorem sendSide_dtpCloseContext : c.dtpCloseContext.toSendSide = c.toSendSide := by
  simp only [dtpCloseContext]
  split_ifs <;> rfl

theorem sendSide_finishACK : (c.finishACK a).toSendSide = c.toSendSide := by
  simp only [finishACK]
  split_ifs
  · rfl
  · exact sendSide_dtpCloseContext
  · rfl

theorem state_countDuplicate : (c.countDuplicate a).state = c.state := by
  simp only [countDuplicate]
  split_ifs <;> rfl

end HandleAck

/-! ## `HandleTimeout` -/

/-- The context with everything but the packets `kept` pruned from the queue. -/
def DtpContext.pruneRest (c : DtpContext) (kept rest : List DtpPkt) : DtpContext :=
  { c with packetQ := kept, segSent := c.segSent - (rest.map DtpPkt.payloadLen).sum }

section Timeout
variable {n : ℕ} {c : DtpContext} {p : DtpPkt} {q : List DtpPkt} (env : TimerEnv)

/-- A congested pass prunes every packet that has not been retransmitted. -/
theorem timeoutLoop_congested {rest : List DtpPkt} (i : ℕ) (kept : List DtpPkt)
    (hc : c.isCongested = true) (hr : ∀ p ∈ rest, p.isRetrans = false)
    (hq : c.packetQ = kept ++ rest) :
    timeoutLoop env i kept rest c = (c.pruneRest kept rest, false) := by
  induction rest generalizing i c with
  | nil =>
    rw [List.append_nil] at hq
    simp [timeoutLoop, pruneRest, ← hq]
  | cons p rest ih =>
    have hp := hr p (by simp)
    have hguard : (c.isCongested && !p.isRetrans) = true := by simp [hc, hp]
    have hnext := ih (c := c.prunePacket p (kept ++ rest)) (i + 1) hc
      (fun x hx => hr x (List.mem_cons_of_mem _ hx)) rfl
    simp only [timeoutLoop, hguard, if_true]
    rw [hnext]
    simp [pruneRest, prunePacket, sub_sub]

/-- The context after the first packet has timed out. -/
def DtpContext.afterTimeout (c : DtpContext) (p : DtpPkt) : DtpContext :=
  if (c.fallBack p).retransmits then ((c.fallBack p).dtpRetransmit { p with isRetrans := true }).1
  else c.fallBack p

theorem timeoutPacket_eq (hnet : c.isNetConnected = true) :
    c.timeoutPacket p = (c.afterTimeout p, { p with isRetrans := true }) := by
  have hnet' : (c.fallBack p).isNetConnected = true := by
    rw [← hnet, fallBack, unsendFIN]
    split_ifs <;> rfl
  simp only [timeoutPacket, afterTimeout, hnet, if_true]
  split_ifs
  · rw [dtpRetransmit_eq hnet']
  · rfl

theorem isCongested_fallBack : (c.fallBack p).isCongested = true := by
  rw [fallBack, unsendFIN]
  split_ifs <;> rfl

theorem isNetConnected_fallBack : (c.fallBack p).isNetConnected = c.isNetConnected := by
  rw [fallBack, unsendFIN]
  split_ifs <;> rfl

theorem isCongested_afterTimeout (hnet : c.isNetConnected = true) : (c.afterTimeout p).isCongested = true := by
  rw [afterTimeout]
  split_ifs
  · rw [dtpRetransmit_eq (isNetConnected_fallBack.trans hnet)]
    exact isCongested_fallBack
  · exact isCongested_fallBack

/-- The interface is switched only when a mark is set. -/
theorem switchInterface_eq (hlo : c.rcvLoBufHB = 0) : c.switchInterface env = c := by
  have hoff : ¬(c.state = .established ∧ 0 < c.rcvLoBufHB ∧ env.ifaceSet = true) := by
    simp [hlo]
  rw [switchInterface, if_neg hoff]

/-- The four outcomes of the packet loop: nothing happens; the whole queue is pruned; the
FIN of `LAST_ACK` has waited long enough; the first packet times out and the others are
pruned. -/
theorem timeoutLoop_cases (hnet : c.isNetConnected = true)
    (hr : ∀ p ∈ c.packetQ.tail, p.isRetrans = false) :
    timeoutLoop env 0 [] c.packetQ c = (c, false) ∨
      (c.isCongested = true ∧ (∀ p ∈ c.packetQ, p.isRetrans = false) ∧
        timeoutLoop env 0 [] c.packetQ c = (c.pruneRest [] c.packetQ, false)) ∨ ∃ p q, c.packetQ = p :: q ∧
        ((c.state = .lastAck ∧ timeoutLoop env 0 [] c.packetQ c = (c.prunePacket p q, true)) ∨
        timeoutLoop env 0 [] c.packetQ c =
          ((c.afterTimeout p).pruneRest [{ p with isRetrans := true }] q, false)) := by
  cases hq : c.packetQ with
  | nil => exact Or.inl rfl
  | cons p q =>
    rw [hq] at hr
    by_cases hprune : (c.isCongested && !p.isRetrans) = true
    · rw [Bool.and_eq_true] at hprune
      have hall : ∀ x ∈ p :: q, x.isRetrans = false := by
        intro x hx
        cases List.mem_cons.mp hx with
        | inl heq => simpa [heq] using hprune.2
        | inr hmem => exact hr x hmem
      exact Or.inr (Or.inl ⟨hprune.1, hall, timeoutLoop_congested env 0 [] hprune.1 hall hq⟩)
    · simp only [timeoutLoop, hprune, Bool.false_eq_true, if_false, List.nil_append]
      split_ifs with hlast hexp
      · exact Or.inr (Or.inr ⟨p, q, rfl, Or.inl ⟨hlast.1, rfl⟩⟩)
      · exact Or.inl rfl
      · refine Or.inr (Or.inr ⟨p, q, rfl, Or.inr ?_⟩)
        rw [timeoutPacket_eq hnet]
        exact timeoutLoop_congested (c := (c.afterTimeout p).setQueue _) env _ _
          (isCongested_afterTimeout hnet) hr rfl

namespace SendOrder

/-- Falling back to the first packet. A FIN behind it is taken back with the packets in
between; a FIN that times out itself stays, one sequence number above what counts as
sent. -/
theorem fallBack (h : SendOrder n c) (hq : c.packetQ = p :: q) :
    SendOrder n ((c.fallBack p).pruneRest [{ p with isRetrans := true }] q) := by
  have hord := h.queue
  rw [hq] at hord
  have hp := hord.sound p (by simp)
  have hstop := hp.toNat_stop h.small'
  obtain ⟨hlo, -⟩ := hord.bounds p (by simp)
  have hhi := hp.hi_le
  have hw := h.written
  have hsmall := h.small
  have hone : Ordered n c.lastByteAcked.toNat p.stop.toNat [{ p with isRetrans := true }] :=
    Ordered.single (hp.retrans true) hlo hstop.ge
  by_cases hback : (c.isFINSent && !p.header.hdr.fin) = true
  · have hparts := Bool.and_eq_true _ _ ▸ hback
    have hf : c.isFINSent = true := hparts.1
    have hpf : p.header.hdr.fin = false := by simpa using hparts.2
    rw [hf, Bool.toNat_true] at hw
    have hw' : (c.lastByteWritten - 1).toNat = n := by
      have h1 : (1 : UInt32).toNat = 1 := rfl
      rw [toNat_sub_word (by omega), hw, h1, Nat.add_sub_cancel]
    rw [DtpContext.fallBack, DtpContext.unsendFIN, if_pos hback]
    refine { h with written := ?_, small := ?_, acked_le := ?_, sent_le := ?_, queue := ?_
                    finSent := ?_, flight := ?_, lone := ?_ }
    · exact hw'
    · change n + (c.closeCalled || false).toNat < _
      rw [hf, Bool.or_true, Bool.toNat_true] at hsmall
      have hle := Bool.toNat_le (c.closeCalled || false)
      omega
    · exact le_trans hlo hstop.ge
    · exact le_trans (hstop.le.trans hhi) hw'.ge
    · exact hone
    · intro x hx hxf
      rw [List.mem_singleton.mp hx] at hxf
      exact absurd (hpf.symm.trans hxf) (by decide)
    · exact fun hf' => (Bool.false_ne_true hf').elim
    · exact fun hf' => (Bool.false_ne_true hf').elim
  · rw [DtpContext.fallBack, DtpContext.unsendFIN, if_neg hback]
    refine { h with written := ?_, small := ?_, acked_le := ?_, sent_le := ?_, queue := ?_
                    finSent := ?_, flight := ?_, lone := ?_ }
    · exact hw
    · exact hsmall
    · exact le_trans hlo hstop.ge
    · exact le_trans (hstop.le.trans hhi) (by change n ≤ c.lastByteWritten.toNat; omega)
    · exact hone
    · intro x hx hxf
      rw [List.mem_singleton.mp hx] at hxf
      exact h.finSent p (hq ▸ List.mem_cons_self) hxf
    · exact fun _ hc => (Bool.false_ne_true hc.symm).elim
    · intro hf _ x hx
      have hf' : c.isFINSent = true := hf
      rw [List.mem_singleton.mp hx]
      simpa [hf'] using hback

theorem prunePacket (h : SendOrder n c) (hq : c.packetQ = p :: q) :
    SendOrder n (c.prunePacket p q) := (h.dropFirst hq).of_view rfl id

theorem pruneAll (h : SendOrder n c) : SendOrder n (c.pruneRest [] q) :=
  (h.setQueue (q := []) Ordered.nil (by simp)).of_view rfl id

end SendOrder
end Timeout

/-! ## Address changes -/

section Migrate
variable {n : ℕ} {c : DtpContext}

theorem wf_rstDatagram {localID : List UInt8} (hid : localID.length = sha1DigestLength)
    (fid : UInt32) :
    (dtpAddOptionToHeader (dtpGenerateHeader 0 0 fid { rst := true } 32768) optHostId
      localID).Wf := by
  apply wf_dtpAddOptionToHeader
  simp [dtpGenerateHeader, hid, sha1DigestLength]

/-- No FIN has timed out. -/
def DtpContext.finInFlight (c : DtpContext) : Prop :=
  c.isFINSent = true → c.lastByteSent = c.lastByteWritten

instance (c : DtpContext) : Decidable c.finInFlight := inferInstanceAs (Decidable (_ → _))

namespace SendOrder

/-- A slow start forgets the congestion, which is all that holds back a FIN that has
timed out. -/
theorem dtpSlowStart (h : SendOrder n c) (hf : c.finInFlight) : SendOrder n c.dtpSlowStart :=
  { h with
    flight := fun hfin _ => hf hfin
    lone := fun _ hc => (Bool.false_ne_true hc).elim }

end SendOrder
end Migrate

/-! ## `dtp_send` and `dtp_close` -/

theorem pos_of_minSize_pos {k : ℕ} {m : ℤ} (h : 0 < minSize k m) : 0 < k := by
  rw [minSize] at h
  split_ifs at h
  · cases k with
    | zero => simp [i32] at h
    | succ k => exact Nat.succ_pos k
  · omega

theorem minSize_le {k : ℕ} {m : ℤ} (hm : 0 ≤ m) : minSize k m ≤ m ∧ minSize k m ≤ k := by
  rw [minSize, if_neg (by omega)]
  omega

section Calls
variable {n : ℕ} {c : DtpContext} {data : List UInt8}

/-- The waiting part of `dtp_send` accepts nothing, or a prefix of the data. -/
theorem sendBody_cases (c : DtpContext) (data : List UInt8) :
    (Event.taken data (c.sendBody data).2 = [] ∧
      ((c.sendBody data).1 = c ∨ (c.sendBody data).1 = { c with isWriteBlocked := true })) ∨
    ∃ m : ℤ, 0 < m ∧ m = minSize data.length c.getAvailWriteBufSize ∧
      c.sendBody data = (c.acceptBytes data m, .done m) := by
  simp only [sendBody]
  split_ifs with h0 h1 h2 h3 h4 h5
  · exact Or.inl ⟨rfl, Or.inl rfl⟩
  · exact Or.inl ⟨rfl, Or.inl rfl⟩
  · exact Or.inl ⟨rfl, Or.inl rfl⟩
  · exact Or.inl ⟨rfl, Or.inl rfl⟩
  · exact Or.inl ⟨rfl, Or.inr rfl⟩
  · exact Or.inr ⟨_, h5, rfl, rfl⟩
  · refine Or.inl ⟨?_, Or.inl rfl⟩
    have hneg : (minSize data.length c.getAvailWriteBufSize).toNat = 0 := by omega
    rw [Event.taken, hneg, List.take_zero]

theorem sendView_noteFull : c.noteFull.sendView = c.sendView := by
  rw [noteFull]
  split_ifs <;> rfl

theorem state_noteFull : c.noteFull.state = c.state := by
  rw [noteFull]
  split_ifs <;> rfl

namespace SendOrder

/-- With no FIN out the free space of the write buffer is what it says. -/
theorem avail_eq (h : SendOrder n c) (hf : c.isFINSent = false) :
    c.getAvailWriteBufSize = c.writeBufLen - ((n : ℤ) - c.lastByteAcked.toNat) := by
  have hw := h.written
  have hs := h.small'
  have hal := h.acked_le
  have hsl := h.sent_le
  rw [hf, Bool.toNat_false, Nat.add_zero] at hw
  rw [getAvailWriteBufSize, getWriteBufOff, i32_sub (by omega) (by omega), hw]

theorem copyBytes (h : SendOrder n c) (data : List UInt8) (hf : c.isFINSent = false) {m : ℕ}
    (hm : (m : ℤ) ≤ c.getAvailWriteBufSize) (hrange : n + m + (c.closeCalled || c.isFINSent).toNat < 2147483648) :
    SendOrder (n + m) (c.copyBytes data m) := by
  have hw := h.written
  have hal := h.acked_le
  have hsl := h.sent_le
  obtain ⟨hb0, hb1⟩ := h.bufLen
  rw [h.avail_eq hf] at hm
  rw [hf, Bool.toNat_false, Nat.add_zero] at hw
  have hnofin : ∀ p ∈ c.packetQ, p.header.hdr.fin = false := by
    intro p hp
    cases hpf : p.header.hdr.fin with
    | false => rfl
    | true => exact absurd (hf.symm.trans (h.finSent p hp hpf)) Bool.false_ne_true
  have hw' : (c.copyBytes data m).lastByteWritten.toNat = n + m := by
    change (c.lastByteWritten + u32 m).toNat = n + m
    rw [toNat_add_u32 (by omega) (by omega), hw, Int.toNat_natCast]
  refine { h with written := ?_, small := ?_, acked_le := ?_, sent_le := ?_, buffered := ?_
                  queue := ?_, flight := ?_, lone := ?_, wire := ?_ }
  · rw [hw']
    change n + m = n + m + c.isFINSent.toNat
    rw [hf, Bool.toNat_false, Nat.add_zero]
  · exact hrange
  · exact hal
  · exact le_trans (hsl.trans hw.le) (hw'.ge.trans' (Nat.le_add_right n m))
  · change n + m ≤ c.lastByteAcked.toNat + c.writeBufLen.toNat
    omega
  · exact h.queue.mono (Nat.le_add_right n m) hnofin
  · exact fun hf' => absurd (hf.symm.trans hf') Bool.false_ne_true
  · exact fun hf' => absurd (hf.symm.trans hf') Bool.false_ne_true
  · exact fun x hx => (h.wire x hx).mono (Nat.le_add_right n m)

end SendOrder
end Calls

/-! ## Fresh contexts -/

/-- A context after its part of the opening. What the opening put into the stream has been
sent; what of it is in the queue starts at `base`. The payload of a SYN+ACK is not in
the queue, so until the client answers, `base` is ahead of `tc_lastByteAcked`. -/
structure FreshSender (base : ℕ) (opening : List UInt8) (c : DtpContext) : Prop where
  state : c.state = .synSent ∨ c.state = .synRcvd ∨ c.state = .established
  written : c.lastByteWritten.toNat = opening.length
  sent : c.lastByteSent = c.lastByteWritten
  acked : c.lastByteAcked.toNat = base ∨ (c.state = .synRcvd ∧ c.lastByteAcked.toNat ≤ base)
  small : opening.length < 2147483648
  bufLen : 0 ≤ c.writeBufLen ∧ c.writeBufLen < 2147483648
  buffered : opening.length ≤ c.lastByteAcked.toNat + c.writeBufLen.toNat
  tiles : Tiles (c.packetQ.map DtpPkt.ival) base opening.length
  sound : ∀ p ∈ c.packetQ, p.Sound opening.length
  plain : ∀ p ∈ c.packetQ, p.header.hdr.fin = false ∧ p.isRetrans = false
  bytes : Holds c.writeBuf c.lastByteAcked.toNat (fun i => opening.getD i 0)
    fun i => base ≤ i ∧ i < opening.length
  wire : ∀ x ∈ c.wire, x.2.Carries opening
  closeCalled : c.closeCalled = false
  finSent : c.isFINSent = false
  congested : c.isCongested = false
  synSent : c.sendSYN = true → c.isSYNSent = true
  opening : c.state = .synSent → c.sendSYN = true
  connected : c.isNetConnected = true
  ackInserted : c.isACKInserted = false
  localID : c.localID.length = sha1DigestLength
  rcvLoBuf : c.rcvLoBufHB = 0

theorem sorted_of_tiles {q : List DtpPkt} {a b : ℕ} (h : Tiles (q.map DtpPkt.ival) a b) :
    q.Pairwise fun p p' => p.hi ≤ p'.hi := by
  refine (List.pairwise_map.mp h.pairwise).imp_of_mem fun {p p'} _ hp' hle => ?_
  exact hle.trans (h.mem_bounds p'.ival (List.mem_map_of_mem hp')).2.1

theorem FreshSender.base_le {base : ℕ} {opening : List UInt8} {c : DtpContext} (h : FreshSender base opening c) :
    c.lastByteAcked.toNat ≤ base ∧ base ≤ opening.length := by
  refine ⟨?_, h.tiles.le⟩
  cases h.acked with
  | inl heq => exact heq.le
  | inr hle => exact hle.2

theorem FreshSender.sendOrder {base : ℕ} {opening : List UInt8} {c : DtpContext}
    (h : FreshSender base opening c) : SendOrder opening.length c := by
  obtain ⟨hlo, hhi⟩ := h.base_le
  have hsent := congrArg UInt32.toNat h.sent
  have hw := h.written
  have hnofin : ∀ hf : c.isFINSent = true, False :=
    fun hf => Bool.false_ne_true (h.finSent.symm.trans hf)
  refine { h with written := ?_, small := ?_, acked_le := ?_, sent_le := ?_, queue := ?_
                  finSent := ?_, flight := ?_, lone := ?_, wire := ?_ }
  · rw [hw, h.finSent, Bool.toNat_false, Nat.add_zero]
  · rw [h.closeCalled, h.finSent]
    exact h.small
  · omega
  · omega
  · refine ⟨h.sound, ?_, sorted_of_tiles h.tiles, ?_⟩
    · intro p hp
      obtain ⟨h0, h1, h2⟩ := h.tiles.mem_bounds p.ival (List.mem_map_of_mem hp)
      have hbase : c.lastByteAcked.toNat ≤ p.hi := le_trans hlo (le_trans h0 h1)
      exact ⟨hbase, le_trans h2 (by omega)⟩
    · exact fun p hp => (h.plain p (List.mem_of_mem_tail hp)).2
  · intro p hp hpf
    exact absurd ((h.plain p hp).1.symm.trans hpf) Bool.false_ne_true
  · exact fun hf => (hnofin hf).elim
  · exact fun hf => (hnofin hf).elim
  · exact fun x hx => (h.wire x hx).endsBy

end Cedos.Dtp
