import Cedos.Dtp.Event
import Cedos.Dtp.Handshake
import Cedos.Lib.Run

/-!
# One end of a connection

Everything that can happen to a context after it has been opened, as events: the calls
of its application, the packets `OnReadEvent` hands to its handlers, and the timer.
`Event.offered` is what the callers of the handlers check first. Packets that are
batched have passed that check when they came in; a packet handled in between may have
closed the context.
-/

namespace Cedos.Dtp

namespace DtpContext

/-- The address check of `OnReadEvent`: a foreign address is challenged, the peer's own
ends a challenge. -/
def checkAddress (c : DtpContext) (addr : SockAddr) (rnd : UInt32) : DtpContext :=
  if c.state = .synRcvd then c.rebind addr
  else if c.state = .timeWait then c
  else if c.peerAddr ≠ addr then c.handleAddressChange addr rnd
  else { c with nonce := 0 }

/-- The context takes packets. -/
def receives (c : DtpContext) : Bool :=
  !c.connTimedOut && !(c.state == .closed || c.state == .listen || c.state == .synSent)

end DtpContext

/-- What can happen to an open context. -/
inductive Event
  | send (data : List UInt8)
  | sendWake (data : List UInt8)
  | recv (length : ℕ) (msgPeek : Bool)
  | recvWake (length : ℕ) (msgPeek : Bool)
  | close
  | closeWake
  /-- `ProcessAggregatePackets` -/
  | batch (p : AdjPktInfo)
  | fin (h : DtpHdr)
  | chg (d : Datagram) (addr : SockAddr)
  | rsp (d : Datagram) (addr : SockAddr)
  | auth (addr : SockAddr) (rnd : UInt32)
  | checkAddr (addr : SockAddr) (rnd : UInt32)
  | synAck (d : Datagram) (addr : SockAddr) (hid : List UInt8)
  | rst (d : Datagram) (hid : List UInt8) (fid : UInt32)
  | timeout (env : TimerEnv)

namespace Event

/-- The callers' checks. -/
def offered (c : DtpContext) : Event → Prop
  | .sendWake _ => c.isWriteBlocked = true
  | .recvWake _ _ => c.isReadBlocked = true
  | .closeWake => c.waitACK = true
  | .batch _ => c.state ≠ .synSent ∧ c.state ≠ .listen
  | .fin _ => c.receives = true
  | .chg _ _ => c.receives = true
  | .rsp _ _ => c.receives = true
  | .auth _ _ => c.receives = true
  | .checkAddr _ _ => c.receives = true
  | _ => True

instance (c : DtpContext) (e : Event) : Decidable (e.offered c) := by
  cases e <;> unfold offered <;> infer_instance

/-- The effect on the context. A parser that does not return leaves no next step; the
event then changes nothing. -/
def apply (k : Crypto) (c : DtpContext) : Event → DtpContext
  | .send data => (c.dtpSend data).1
  | .sendWake data => (c.dtpSendWake data).1
  | .recv length msgPeek => (c.dtpRecv length msgPeek).1
  | .recvWake length msgPeek => (c.dtpRecvWake length msgPeek).1
  | .close => c.dtpClose.1
  | .closeWake => c.dtpCloseWake.1
  | .batch p => c.processAggregatePackets p
  | .fin h => c.handleFINPacket h
  | .chg d addr => c.handleCHGPacket k.hmac d addr
  | .rsp d addr => c.handleRSPPacket k.hmac d addr
  | .auth addr rnd => c.handleAUTHPacket addr rnd
  | .checkAddr addr rnd => c.checkAddress addr rnd
  | .synAck d addr hid =>
    match c.handleSYNACKPacket k.toRsa d addr hid with
    | .ok r => r.1
    | .error _ => c
  | .rst d hid fid =>
    match c.handleRSTPacket d hid fid with
    | .ok r => r
    | .error _ => c
  | .timeout env => c.handleTimeout env

/-- The bytes a call of `dtp_send` with the result `r` has accepted. -/
def taken (data : List UInt8) (r : CallResult ℤ) : List UInt8 :=
  match r with
  | .done n => data.take n.toNat
  | _ => []

/-- The bytes the event makes `dtp_send` accept. -/
def accepted (c : DtpContext) : Event → List UInt8
  | .send data => taken data (c.dtpSend data).2
  | .sendWake data => taken data (c.dtpSendWake data).2
  | _ => []

end Event

/-! ## Runs of the sending side -/

/-- A context and everything in its outgoing stream: what the opening put there, followed
by what `dtp_send` has accepted. -/
structure Sending where
  ctx : DtpContext
  stream : List UInt8

/-- The ACK number is not above the highest sequence number transmitted, a FIN counting
as one, or above what has been acknowledged. -/
def Transmitted (c : DtpContext) (ackNum : UInt32) : Prop :=
  ackNum ≤ c.lastByteAcked ∨ ∃ x ∈ c.wire, x.2.hdr.chg = false ∧ x.2.hdr.rsp = false ∧
    ackNum.toNat ≤ x.2.hdr.seq.toNat + x.2.payload.length + x.2.hdr.fin.toNat

/-- The peer acknowledges only what has been transmitted, and what the opening sent (up to
`base`) as a whole. It does not refuse a SYN with an RST, whose host ID could not
match in `SYN_SENT`. -/
def HonestPeer (base : ℕ) (c : DtpContext) : Event → Prop
  | .batch p => ∀ ackNum window, p.ack = some (ackNum, window) →
      Transmitted c ackNum ∧ (c.lastByteAcked.toNat < base → base ≤ ackNum.toNat)
  | .rst _ _ _ => c.state ≠ .synSent
  | _ => True

instance (c : DtpContext) (ackNum : UInt32) : Decidable (Transmitted c ackNum) :=
  inferInstanceAs (Decidable (_ ∨ _))

/-- What is asked of the ACK of a batch, if it has one. -/
instance decidableOfACK {P : UInt32 → UInt16 → Prop} [∀ a w, Decidable (P a w)] (o : Option (UInt32 × UInt16)) :
    Decidable (∀ ackNum window, o = some (ackNum, window) → P ackNum window) :=
  decidable_of_iff (o.all fun x => P x.1 x.2) (by simp [Option.all_eq_true])

instance (base : ℕ) (c : DtpContext) (e : Event) : Decidable (HonestPeer base c e) := by
  cases e <;> unfold HonestPeer <;> infer_instance

/-- The sequence numbers stay below `2 ^ 31`, that of a FIN included. -/
def InRange (s : Sending) : Event → Prop
  | .close => s.stream.length + 1 < 2147483648
  | e => s.stream.length + (e.accepted s.ctx).length + (s.ctx.closeCalled || s.ctx.isFINSent).toNat < 2147483648

instance (s : Sending) (e : Event) : Decidable (InRange s e) := by
  cases e <;> unfold InRange <;> infer_instance

/-- A context `c₀` whose opening has put `opening` into the stream, facing an honest peer. -/
def sender (k : Crypto) (base : ℕ) (opening : List UInt8) (c₀ : DtpContext) :
    Machine Sending Event where
  init s := s = ⟨c₀, opening⟩
  allowed s e := e.offered s.ctx ∧ HonestPeer base s.ctx e ∧ InRange s e
  apply s e := ⟨e.apply k s.ctx, s.stream ++ e.accepted s.ctx⟩

instance (k : Crypto) (base : ℕ) (opening : List UInt8) (c₀ : DtpContext) (s : Sending) (e : Event) :
    Decidable ((sender k base opening c₀).allowed s e) :=
  inferInstanceAs (Decidable (_ ∧ _))

/-- Cryptography that never succeeds, for runs that do not use it. -/
def sampleCrypto : Crypto where
  encrypt _ _ _ _ := none
  decrypt _ := none
  hmac _ _ := []

end Cedos.Dtp
