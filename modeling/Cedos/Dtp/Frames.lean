import Cedos.Dtp.Acts
import Cedos.Dtp.Packet

/-!
# What the handlers can do

Receiving and reading data touch neither the send side nor the connection itself; all
they send is ACKs. They can find that the peer's window is zero, but not that it is
open again.
-/

namespace Cedos.Dtp

instance : Fintype SockState where
  elems := {.closed, .listen, .synRcvd, .synSent, .established, .finWait1, .finWait2, .timeWait, .closeWait, .lastAck}
  complete s := by cases s <;> decide

/-- The SYNs and SYN+ACKs sent so far, oldest first. -/
def DtpContext.synsSent (c : DtpContext) : List (SockAddr × Datagram) :=
  c.wire.filter fun x => x.2.hdr.syn

/-- A step that sends control packets only, and of the peer's window hears at most that it is zero. -/
structure Replies (c c' : DtpContext) : Prop where
  sendSide : c'.toSendSide = c.toSendSide
  liveness : c'.toLiveness = c.toLiveness
  isSYNSent : c'.isSYNSent = c.isSYNSent
  localID : c'.localID = c.localID
  rcvLoBuf : c'.rcvLoBufHB = c.rcvLoBufHB
  readBufLen : c'.readBufLen = c.readBufLen
  wire : ∀ x ∈ c'.wire, x ∈ c.wire ∨ x.2.Control c.lastByteSent
  zero : c.isHerWindowZero = true → c'.isHerWindowZero = true
  window : c.isHerWindowZero = true ∨ 0 < c.rcvWindow → c'.isHerWindowZero = true ∨ 0 < c'.rcvWindow

namespace Replies
variable {c c' c'' : DtpContext}

theorem refl (c : DtpContext) : Replies c c :=
  ⟨rfl, rfl, rfl, rfl, rfl, rfl, fun _ => Or.inl, id, id⟩

section
variable (h : Replies c c')
include h

theorem acked : c'.lastByteAcked = c.lastByteAcked := congrArg SendSide.lastByteAcked h.sendSide

theorem sent : c'.lastByteSent = c.lastByteSent := congrArg SendSide.lastByteSent h.sendSide

theorem written : c'.lastByteWritten = c.lastByteWritten := congrArg SendSide.lastByteWritten h.sendSide

theorem bufLen : c'.writeBufLen = c.writeBufLen := congrArg SendSide.writeBufLen h.sendSide

theorem packetQ : c'.packetQ = c.packetQ := congrArg SendSide.packetQ h.sendSide

end

theorem trans (h : Replies c c') (h' : Replies c' c'') : Replies c c'' where
  sendSide := h'.sendSide.trans h.sendSide
  liveness := h'.liveness.trans h.liveness
  isSYNSent := h'.isSYNSent.trans h.isSYNSent
  localID := h'.localID.trans h.localID
  rcvLoBuf := h'.rcvLoBuf.trans h.rcvLoBuf
  readBufLen := h'.readBufLen.trans h.readBufLen
  wire x hx := by
    cases h'.wire x hx with
    | inl hmem => exact h.wire x hmem
    | inr hctl => exact Or.inr (h.sent ▸ hctl)
  zero hz := h'.zero (h.zero hz)
  window hw := h'.window (h.window hw)

theorem send (c : DtpContext) (addr : SockAddr) {d : Datagram} (hd : d.Control c.lastByteSent) :
    Replies c (c.send addr d) := by
  refine { refl c with wire := ?_ }
  intro x hx
  cases List.mem_append.mp hx with
  | inl hmem => exact Or.inl hmem
  | inr hmem =>
    rw [List.mem_singleton.mp hmem]
    exact Or.inr hd

/-- A header can show a zero window. -/
theorem noteWindow (c : DtpContext) (w : UInt32) :
    Replies c { c with rcvWindow := w, isHerWindowZero := c.isHerWindowZero || w == 0 } := by
  refine { refl c with zero := ?_, window := ?_ }
  · intro hz
    change (c.isHerWindowZero || w == 0) = true
    rw [hz, Bool.true_or]
  · intro _
    by_cases hzero : w = 0
    · exact Or.inl (by simp [hzero])
    · exact Or.inr (UInt32.pos_iff_ne_zero.mpr hzero)

end Replies

/-- A step of the receive side. -/
structure RecvFrame (c c' : DtpContext) : Prop extends Replies c c' where
  congestion : c'.toCongestion = c.toCongestion
  identity : c'.toIdentity = c.toIdentity
  lifecycle : c'.toLifecycle = c.toLifecycle
  /-- data answers the SYN -/
  sendSYN : c'.sendSYN = c.sendSYN ∨ (c'.sendSYN = false ∧ c.state ≠ .synSent)
  syns : c'.synsSent = c.synsSent
  peer : c.state = .synRcvd → c'.toPeerWindow = c.toPeerWindow

namespace RecvFrame
variable {c c' c'' : DtpContext}

theorem state (h : RecvFrame c c') : c'.state = c.state := congrArg Lifecycle.state h.lifecycle

theorem isACKInserted (h : RecvFrame c c') : c'.isACKInserted = c.isACKInserted :=
  congrArg Liveness.isACKInserted h.liveness

theorem refl (c : DtpContext) : RecvFrame c c :=
  ⟨.refl c, rfl, rfl, rfl, Or.inl rfl, rfl, fun _ => rfl⟩

theorem trans (h : RecvFrame c c') (h' : RecvFrame c' c'') : RecvFrame c c'' where
  toReplies := h.toReplies.trans h'.toReplies
  congestion := h'.congestion.trans h.congestion
  identity := h'.identity.trans h.identity
  lifecycle := h'.lifecycle.trans h.lifecycle
  sendSYN := by
    cases h'.sendSYN with
    | inl heq => exact heq ▸ h.sendSYN
    | inr hcl => exact Or.inr ⟨hcl.1, h.state ▸ hcl.2⟩
  syns := h'.syns.trans h.syns
  peer hs := (h'.peer (h.state.trans hs)).trans (h.peer hs)

theorem dtpSendACKPacket (c : DtpContext) : RecvFrame c c.dtpSendACKPacket := by
  refine { refl c with toReplies := .send c _ (control_mkDatagram rfl ..), syns := ?_ }
  simp [DtpContext.synsSent, DtpContext.dtpSendACKPacket, DtpContext.send, mkDatagram, dtpGenerateHeader]

theorem noteSegment (hs : c.state ≠ .synRcvd) (h : DtpHdr) : RecvFrame c (c.noteSegment h) :=
  { refl c with toReplies := { Replies.noteWindow c _ with }, peer := fun hs' => absurd hs' hs }

/-- The acts of the receive side. -/
def acts : List ActKind := [.note, .dropACK, .segment, .store, .ack, .opened, .read, .charge]

/-- An act of the receive side, if no ACK waits in the queue to be taken out. -/
theorem of_act {k : ActKind} (h : Act k c c') (hk : k ∈ acts)
    (hack : k = .dropACK → c.isACKInserted = false) : RecvFrame c c' := by
  cases h with
  | note | advance | take | slide | charge | store => exact { refl c with }
  | ack => exact dtpSendACKPacket c
  | segment hrcvd _ h => exact noteSegment hrcvd h
  | opened hs => exact { refl c with sendSYN := Or.inr ⟨rfl, hs⟩ }
  | dropACK hins _ => exact absurd (hins.symm.trans (hack rfl)) (by decide)
  | _ => exact absurd hk (by decide)

theorem of_acts {K : List ActKind} (h : Acts K c c')
    (hack : .dropACK ∈ K → c.isACKInserted = false := by exact fun h => absurd h (by decide))
    (hK : ∀ k ∈ K, k ∈ acts := by decide) : RecvFrame c c' := by
  refine h.invariant (P := RecvFrame c) ?_ (refl c)
  intro k hk x y ha hx
  exact hx.trans (of_act ha (hK k hk) fun heq => hx.isACKInserted.trans (hack (heq ▸ hk)))

end RecvFrame

/-- A data packet takes at most an ACK out of the head of the queue. -/
theorem dropInsertedACK_cases (c : DtpContext) :
    c.dropInsertedACK = c ∨ c.dropInsertedACK = c.assert false ∨ ∃ p q, c.packetQ = p :: q ∧
        c.dropInsertedACK = { c with packetQ := q, isACKInserted := false } := by
  simp only [DtpContext.dropInsertedACK]
  by_cases hins : c.isACKInserted = true
  · cases hq : c.packetQ with
    | nil => simp [hins]
    | cons p q =>
      by_cases hack : p.header.hdr.ack = true
      · simp [hins, hack]
      · simp [hins, hack]
  · simp [hins]

/-- What `HandleNormalPacket` can do on a connected context: ignore the packet, note
its header only, or store its segment. -/
theorem handleNormalPacket_cases {c : DtpContext} (d : Datagram) (bodyLen : UInt32)
    (hack : c.isACKInserted = false) :
    (c.handleNormalPacket d bodyLen).1 = c ∨ (c.state ≠ .synRcvd ∧
        ((c.handleNormalPacket d bodyLen).1 = (c.noteSegment d.hdr).countPacket ∨
        (0 < (c.noteSegment d.hdr).segmentLen d.hdr.seq bodyLen ∧ (c.handleNormalPacket d bodyLen).1 =
            ((c.noteSegment d.hdr).storeSegment d bodyLen).1.countPacket))) := by
  have hdrop : c.dropInsertedACK = c := by simp [DtpContext.dropInsertedACK, hack]
  simp only [DtpContext.handleNormalPacket, hdrop]
  by_cases hst : c.state = .synRcvd ∨ c.state = .synSent ∨ d.hdr.syn
  · exact Or.inl (by rw [if_pos hst])
  · rw [if_neg hst]
    refine Or.inr ⟨fun hs => hst (Or.inl hs), ?_⟩
    by_cases hpos : 0 < (c.noteSegment d.hdr).segmentLen d.hdr.seq bodyLen
    · exact Or.inr ⟨hpos, by simp only [hpos, if_true]⟩
    · exact Or.inl (by simp only [hpos, if_false])

namespace RecvFrame
variable {c : DtpContext}

theorem handleNormalPacket (d : Datagram) (bodyLen : UInt32) (hack : c.isACKInserted = false) :
    RecvFrame c (c.handleNormalPacket d bodyLen).1 :=
  of_acts (.handleNormalPacket c d bodyLen) fun _ => hack

theorem processPacket (hack : c.isACKInserted = false) (d : Datagram) :
    RecvFrame c (c.processPacket d) := of_acts (.processPacket c d) fun _ => hack

theorem processData (hack : c.isACKInserted = false) (pkts : List Datagram) :
    RecvFrame c (c.processData pkts) := of_acts (.processData c pkts) fun _ => hack

theorem consume (c : DtpContext) (len : ℤ) : RecvFrame c (c.consume len) :=
  of_acts (.consume c len)

theorem recvBody (c : DtpContext) (length : ℕ) (msgPeek woken : Bool) :
    RecvFrame c (c.recvBody length msgPeek woken).1 :=
  of_acts (.recvBody c length msgPeek woken)

theorem dtpRecv (c : DtpContext) (length : ℕ) (msgPeek : Bool) : RecvFrame c (c.dtpRecv length msgPeek).1 :=
  of_acts (.dtpRecv c length msgPeek)

theorem dtpRecvWake (c : DtpContext) (length : ℕ) (msgPeek : Bool) : RecvFrame c (c.dtpRecvWake length msgPeek).1 :=
  of_acts (.dtpRecvWake c length msgPeek)

end RecvFrame

/-! ## Handlers that parse options -/

section Parse
variable {c : DtpContext} {d : Datagram} {hid : List UInt8}

/-- Whatever the SYN, `DTPHandleKey` does not touch the state. -/
theorem state_dtpHandleKey (rsa : Rsa) (c : DtpContext) (d : Datagram) (key : List UInt8) (pad : ℕ)
    (isResend : Bool) : (c.dtpHandleKey rsa d key pad isResend).state = c.state := by
  simp only [DtpContext.dtpHandleKey]
  cases rsa.encrypt (modulus d) (exponent d) key pad <;> cases isResend <;> rfl

theorem state_repeatSYN (rsa : Rsa) (c : DtpContext) (d : Datagram) (addr : SockAddr)
    (hid key : List UInt8) (pad : ℕ) : (c.repeatSYN rsa d addr hid key pad).state = c.state := by
  simp only [DtpContext.repeatSYN]
  split_ifs
  · rw [state_dtpHandleKey]
    rfl
  · rfl

/-- `HandleRSTPacket` in `ESTABLISHED`: the RST of another host is ignored. -/
theorem handleRSTPacket_established (hs : c.state = .established) {fid : UInt32} {r : DtpContext}
    (hr : c.handleRSTPacket d hid fid = .ok r) :
    ∃ hid' dl, dtpGetOption d hid none = .ok (hid', dl) ∧
      (c.hostID ≠ hid' ∧ r = c ∨ c.hostID = hid' ∧ r = c.resetConnection) := by
  rw [DtpContext.handleRSTPacket] at hr
  cases hopt : dtpGetOption d hid none with
  | error e => simp [hopt, bind, Except.bind] at hr
  | ok o =>
    simp only [hopt, bind, Except.bind, pure, Except.pure, hs, reduceCtorEq, if_false, if_true] at hr
    refine ⟨o.1, o.2, rfl, ?_⟩
    split_ifs at hr with hid
    · exact Or.inl ⟨hid, (Except.ok.inj hr).symm⟩
    · exact Or.inr ⟨not_not.mp hid, (Except.ok.inj hr).symm⟩

open DtpContext in
theorem handleSYNPacket_cases {rsa : Rsa} {env : SynEnv} {flow : Option DtpContext} {d : Datagram}
    {addr : SockAddr} {r : SynOutcome} (hr : handleSYNPacket rsa env flow d addr = .ok r) :
    (∃ c hid dl, flow = some c ∧ dtpGetOption d env.hid (some 0) = .ok (hid, dl) ∧
      r = .known (c.repeatSYN rsa d addr hid env.key env.pad)) ∨
    (flow = none ∧ ∃ hid deadline scale port, dtpGetOption d env.hid (some 0) = .ok (hid, deadline) ∧
      dtpParseOption d env.fresh.sendWindowScale addr.port = .ok (scale, port) ∧
      r = .created ((DtpContext.acceptSYN env.fresh d addr hid (deadline.getD 0) scale port).dtpHandleKey
        rsa d env.key env.pad false)) ∨
    (flow = none ∧ r = .refused) := by
  rw [handleSYNPacket] at hr
  cases hopt : dtpGetOption d env.hid (some 0) with
  | error e => simp [hopt, bind, Except.bind] at hr
  | ok o =>
    cases flow with
    | some c =>
      simp only [hopt, bind, Except.bind, pure, Except.pure, Except.ok.injEq] at hr
      exact Or.inl ⟨c, o.1, o.2, rfl, rfl, hr.symm⟩
    | none =>
      simp only [hopt, bind, Except.bind, pure, Except.pure] at hr
      split_ifs at hr with hroom
      · cases hparse : dtpParseOption d env.fresh.sendWindowScale addr.port with
        | error e => simp [hparse] at hr
        | ok t =>
          simp only [hparse, Except.ok.injEq] at hr
          exact Or.inr (Or.inl ⟨rfl, o.1, o.2, t.1, t.2, rfl, rfl, hr.symm⟩)
      · exact Or.inr (Or.inr ⟨rfl, (Except.ok.inj hr).symm⟩)

end Parse
end Cedos.Dtp
