import Cedos.Dtp.Endpoint
import Cedos.Dtp.Sockopt
import Mathlib.Logic.Relation

/-!
# What an event does, act by act

Every handler, timer and socket call changes a context in a number of small acts, each under
conditions the code has checked before. `Act` lists them, sorted by `ActKind`, and the lemmas of
`Acts` take each function apart once, with the kinds that occur in it.

A property that no act of these kinds spoils is then kept by the function; what else a proof has
to look at are the acts, not the functions.

## Main definitions

* `ActKind`, `Act` — the acts.
* `Acts` — sequences of acts of certain kinds.
* `Acts.invariant` — what every act keeps, the sequence keeps.
* `Event.kinds`, `Acts.apply` — the events.
-/

namespace Cedos.Dtp

open DtpContext

/-- What an act is about. -/
inductive ActKind
  /-- event bits, checks and counts -/
  | note
  | begins | data | fin | ack | probe | rst | auth
  | ackWindow | reopen | segment | backOff | wrap | congest
  | acked | again | mark | prune | fallBack | reconnect | switch | slowStart
  | dropFirst | dropLast | dropACK | retry
  | store | read | charge | copy
  | opened | establish | finAcked | finHeard | timeWait
  | called | waits | woken | closes | reset | timedOut | released
  | challenge | address | adopted | key
  | resize | tune | marks
  deriving DecidableEq

/-- The acts, with what the code has found out before. -/
inductive Act : ActKind → DtpContext → DtpContext → Prop
  | note (c : DtpContext) (s : SocketSide) (fault : Bool) (probes packets : ℤ) (zero : Bool) :
      Act .note c { c with toSocketSide := s, fault := fault, sentProbes := probes
                           numPacketRcvd := packets, isMyWindowZero := zero }
  | begins (c : DtpContext) : Act .begins c c.beginWrite
  | data {c : DtpContext} {flags : Flags} {len : ℤ} (hnet : c.isNetConnected = true)
      (hcong : c.isCongested = false) (hsyn : flags.syn = true → c.wantsSYN = true)
      (hfin : flags.fin = false) (hchg : flags.chg = false) (hrsp : flags.rsp = false)
      (hguard : c.writeGuard len = true) : Act .data c (c.writeOne flags len)
  | fin {c : DtpContext} (hnet : c.isNetConnected = true) (hcong : c.isCongested = false)
      (hwant : c.wantsFIN = true) : Act .fin c c.dtpSendFINPacket
  | ack (c : DtpContext) : Act .ack c c.dtpSendACKPacket
  | probe (c : DtpContext) : Act .probe c c.dtpSendProbePacket
  | rst (c : DtpContext) (fid : UInt32) (addr : SockAddr) : Act .rst c (c.sendRSTPacket fid addr)
  | auth (c : DtpContext) : Act .auth c c.sendAUTHPacket
  | ackWindow (c : DtpContext) (w : UInt16) : Act .ackWindow c (c.noteAckWindow w)
  | reopen {c : DtpContext} (hzero : c.isHerWindowZero = true) (hpos : 0 < c.rcvWindow) :
      Act .reopen c c.clearHerWindowZero
  | segment {c : DtpContext} (hrcvd : c.state ≠ .synRcvd) (hsent : c.state ≠ .synSent) (h : DtpHdr) :
      Act .segment c (c.noteSegment h)
  | backOff {c : DtpContext} (hzero : c.isHerWindowZero = true) : Act .backOff c c.backOffPersist
  | wrap {c : DtpContext} {a : UInt32} (hold : a < c.lastByteAcked)
      (htop : c.lastByteAcked + 1472 < c.lastByteAcked) :
      Act .wrap c { c with nextByteExpected := c.nextByteExpected + 1 }
  | congest (c : DtpContext) (cwnd ssthresh n : ℤ) :
      Act .congest c { c with cwnd := cwnd, ssthresh := ssthresh, numACKRcvd := n }
  | acked (c : DtpContext) (a : UInt32) : Act .acked c ((c.shiftAcked a).removePacket a)
  | again {c : DtpContext} {p p₀ : DtpPkt} (hp : p₀ ∈ c.packetQ)
      (heq : p = p₀ ∨ p = { p₀ with isRetrans := true }) :
      Act .again c (c.send c.peerAddr (c.retransDatagram p))
  | mark {c : DtpContext} {kept q : List DtpPkt} {p : DtpPkt} (hq : c.packetQ = kept ++ p :: q) :
      Act .mark c (c.setQueue (kept ++ { p with isRetrans := true } :: q))
  | prune {c : DtpContext} {kept q : List DtpPkt} {p : DtpPkt} (hq : c.packetQ = kept ++ p :: q)
      (hold : (c.isCongested = true ∧ p.isRetrans = false) ∨ c.state = .lastAck) :
      Act .prune c (c.prunePacket p (kept ++ q))
  | fallBack {c : DtpContext} {p : DtpPkt} (hnet : c.isNetConnected = true) (hp : p ∈ c.packetQ) :
      Act .fallBack c (c.fallBack p)
  | reconnect {c : DtpContext} (hnet : c.isNetConnected = false) : Act .reconnect c c.dtpReconnect
  | switch {c : DtpContext} (hs : c.state = .established) (hlo : 0 < c.rcvLoBufHB) (b : Bool) :
      Act .switch c ({ c with limitRcvBuf := b } : DtpContext).dtpReconnect
  | slowStart (c : DtpContext) : Act .slowStart c c.dtpSlowStart
  | dropFirst {c : DtpContext} {p : DtpPkt} {q : List DtpPkt} (hs : c.state = .finWait1)
      (hfin : c.isFINRcvd = true) (hq : c.packetQ = p :: q) :
      Act .dropFirst c { c with packetQ := q, state := .timeWait }
  | dropLast {c : DtpContext} {p : DtpPkt} {q : List DtpPkt} (hs : c.state = .lastAck)
      (hq : c.packetQ = p :: q) : Act .dropLast c { c with packetQ := q, state := .closed }
  | dropACK {c : DtpContext} {p : DtpPkt} {q : List DtpPkt} (hins : c.isACKInserted = true)
      (hq : c.packetQ = p :: q) : Act .dropACK c { c with packetQ := q, isACKInserted := false }
  | retry {c : DtpContext} {p : DtpPkt} {q : List DtpPkt} (hs : c.state = .synSent)
      (hq : c.packetQ = p :: q) (fid : UInt32) :
      Act .retry c { c with packetQ := q, flowID := fid
                            lastByteSent := c.lastByteSent - u32 p.payloadLen, segSent := 0 }
  | store {c : DtpContext} {d : Datagram} {bodyLen : UInt32} (hrcvd : c.state ≠ .synRcvd)
      (hsent : c.state ≠ .synSent) (hlen : 0 < c.segmentLen d.hdr.seq bodyLen) :
      Act .store c (c.storeSegment d bodyLen).1
  | advance (c : DtpContext) (len : ℤ) : Act .read c (c.advanceRead len)
  | take (c : DtpContext) (len : ℤ) : Act .read c (c.dropHead len)
  | slide (c : DtpContext) (b : ℕ → UInt8) : Act .read c { c with readBuf := b }
  | charge (c : DtpContext) (len : ℤ) : Act .charge c (c.chargeBlock len)
  | copy {c : DtpContext} {data : List UInt8} {m : ℤ} (hpos : 0 < m)
      (hm : m = minSize data.length c.getAvailWriteBufSize) : Act .copy c (c.copyBytes data m)
  | opened {c : DtpContext} (hs : c.state ≠ .synSent) : Act .opened c c.clearSendSYN
  | establish {c : DtpContext} (hs : c.state = .synRcvd) :
      Act .establish c { c with state := .established }
  | finAcked {c : DtpContext} (hs : c.state = .finWait1) : Act .finAcked c { c with state := .finWait2 }
  | finHeard {c : DtpContext} (hs : c.ignoresFIN = false) : Act .finHeard c c.noteFIN
  | timeWait {c : DtpContext} (hs : c.inFinWait = true) (hfin : c.isFINRcvd = true) :
      Act .timeWait c { c with state := .timeWait }
  | called (c : DtpContext) : Act .called c { c with closeCalled := true }
  | waits (c : DtpContext) : Act .waits c { c with waitACK := true }
  | woken (c : DtpContext) : Act .woken c { c with waitACK := false }
  | closes (c : DtpContext) : Act .closes c { c with state := .closed }
  | reset (c : DtpContext) : Act .reset c c.resetConnection
  | timedOut (c : DtpContext) : Act .timedOut c c.dtpCloseConnection
  | released (c : DtpContext) : Act .released c c.dtpCloseContext
  | challenge (c : DtpContext) (addr : SockAddr) (rnd : UInt32) :
      Act .challenge c (c.handleAddressChange addr rnd)
  | respond (c : DtpContext) (hmac : List UInt8 → List UInt8 → List UInt8) (d : Datagram) :
      Act .challenge c ((c.storeNonce d).sendRSPPacket hmac)
  | forget (c : DtpContext) : Act .challenge c { c with nonce := 0 }
  | adopt (c : DtpContext) (addr : SockAddr) : Act .address c (c.adoptAddress addr)
  | rebind (c : DtpContext) (addr : SockAddr) : Act .address c (c.rebind addr)
  | adopted {c : DtpContext} (hs : c.state = .synSent) (d : Datagram) (addr : SockAddr)
      (hid key : List UInt8) (scale : UInt8) (port : UInt16) :
      Act .adopted c (c.adoptSYNACK d addr hid key scale port)
  | named {c : DtpContext} (hs : c.state = .synSent) (hid : List UInt8) : Act .adopted c (c.noteHostID hid)
  | setKey (c : DtpContext) (key : List UInt8) : Act .key c (c.setKey key)
  | sendKey (c : DtpContext) (cipher : List UInt8) :
      Act .key c ((c.rewindSent cipher.length).sendKey cipher)
  | readLen (c : DtpContext) (n : ℤ) : Act .resize c (c.setReadBufLen n)
  | writeLen (c : DtpContext) (n : ℤ) : Act .resize c (c.setWriteBufLen n)
  | tune (c : DtpContext) (alive linger set : Bool) (probes deadline : ℤ) (block remain : UInt32) :
      Act .tune c { c with isKeepAliveEnabled := alive, useLinger := linger, isDeadlineSet := set
                           keepAliveProbes := probes, deadline := deadline, blockSize := block
                           blockRemain := remain }
  | marks (c : DtpContext) (high low : UInt32) :
      Act .marks c { c with rcvLoBufHB := high, rcvLoBufLB := low }

section Parse
variable {c : DtpContext} {d : Datagram} {hid : List UInt8}

/-- The outcomes of `HandleSYNACKPacket`: outside `SYN_SENT` it only sends an ACK; a key
that cannot be decrypted is dropped; else the connection is established. -/
theorem handleSYNACKPacket_cases {rsa : Rsa} {addr : SockAddr} {r : DtpContext × Bool}
    (hr : c.handleSYNACKPacket rsa d addr hid = .ok r) :
    (c.state ≠ .synSent ∧ r = (c.dtpSendACKPacket, true)) ∨
      (c.state = .synSent ∧ ∃ hid', r = (c.noteHostID hid', false)) ∨ (c.state = .synSent ∧ ∃ hid' key scale port,
        rsa.decrypt (peek d.body 0 rsaLen) = some key ∧
        dtpParseOption d c.sendWindowScale addr.port = .ok (scale, port) ∧
        r = ((c.adoptSYNACK d addr hid' key scale port).dtpSendACKPacket, true)) := by
  rw [DtpContext.handleSYNACKPacket] at hr
  split_ifs at hr with hs
  · cases hopt : dtpGetOption d hid (some 0) with
    | error e => simp [hopt, bind, Except.bind] at hr
    | ok o =>
      cases hdec : rsa.decrypt (peek d.body 0 rsaLen) with
      | none =>
        simp only [hopt, hdec, bind, Except.bind, pure, Except.pure, Except.ok.injEq] at hr
        exact Or.inr (Or.inl ⟨hs, _, hr.symm⟩)
      | some key =>
        cases hparse : dtpParseOption d c.sendWindowScale addr.port with
        | error e => simp [hopt, hdec, hparse, bind, Except.bind] at hr
        | ok s =>
          simp only [hopt, hdec, hparse, bind, Except.bind, pure, Except.pure, Except.ok.injEq] at hr
          exact Or.inr (Or.inr ⟨hs, _, key, s.1, s.2, rfl, rfl, hr.symm⟩)
  · simp only [pure, Except.pure, Except.ok.injEq] at hr
    exact Or.inl ⟨hs, hr.symm⟩

theorem handleRSTPacket_cases {fid : UInt32} {r : DtpContext} (hr : c.handleRSTPacket d hid fid = .ok r) : r = c ∨
    (c.state = .synSent ∧ r = c.retryConnect fid) ∨ (c.state = .established ∧ r = c.resetConnection) ∨
    (c.state = .lastAck ∧ r = c.dropLastAck) := by
  rw [DtpContext.handleRSTPacket] at hr
  cases hopt : dtpGetOption d hid none with
  | error e => simp [hopt, bind, Except.bind] at hr
  | ok o =>
    simp only [hopt, bind, Except.bind, pure, Except.pure] at hr
    split_ifs at hr with h0 h1 h2 h3
    · exact Or.inl (Except.ok.inj hr).symm
    · exact Or.inr (Or.inl ⟨h1, (Except.ok.inj hr).symm⟩)
    · exact Or.inr (Or.inr (Or.inl ⟨h2, (Except.ok.inj hr).symm⟩))
    · exact Or.inr (Or.inr (Or.inr ⟨h3, (Except.ok.inj hr).symm⟩))
    · exact Or.inl (Except.ok.inj hr).symm

end Parse

/-- A sequence of acts of the kinds listed. -/
def Acts (K : List ActKind) : DtpContext → DtpContext → Prop :=
  Relation.ReflTransGen fun c c' => ∃ k ∈ K, Act k c c'

namespace Acts
variable {K K' : List ActKind} {k : ActKind} {c c' c'' : DtpContext}

theorem refl (c : DtpContext) : Acts K c c := Relation.ReflTransGen.refl

/-- What every act keeps, the sequence keeps. -/
theorem invariant {P : DtpContext → Prop} (h : Acts K c c')
    (hP : ∀ k ∈ K, ∀ c c', Act k c c' → P c → P c') (hc : P c) : P c' := by
  induction h with
  | refl => exact hc
  | tail _ ha ih =>
    obtain ⟨k, hk, hact⟩ := ha
    exact hP k hk _ _ hact ih

theorem act (h : Acts K c c') (ha : Act k c' c'') (hk : k ∈ K := by decide) : Acts K c c'' :=
  Relation.ReflTransGen.tail h ⟨k, hk, ha⟩

theorem followed (h : Acts K c c') (h' : Acts K' c' c'') (hK : ∀ k ∈ K', k ∈ K := by decide) :
    Acts K c c'' :=
  h'.invariant (fun k hk _ _ ha h => h.act ha (hK k hk)) h

theorem mono (h : Acts K c c') (hK : ∀ k ∈ K, k ∈ K' := by decide) : Acts K' c c' :=
  (refl c).followed h hK

theorem assert (c : DtpContext) (b : Bool) : Acts [.note] c (c.assert b) := (refl c).act (.note ..) (by decide)

/-! ## `DTPWriteAvail` -/

def flush : List ActKind := [.begins, .data, .fin]

/-- The loop, entered with the network there and no congestion, is left so. -/
theorem writeLoop (fuel i : ℕ) {f : Flags} (len : ℤ) (hnet : c.isNetConnected = true) (hcong : c.isCongested = false)
    (hsyn : f.syn = true → c.wantsSYN = true) (hfin : f.fin = false) (hchg : f.chg = false) (hrsp : f.rsp = false) :
    Acts flush c (DtpContext.writeLoop (fun _ => true) fuel i f len c).1 ∧
    (DtpContext.writeLoop (fun _ => true) fuel i f len c).1.isNetConnected = true ∧
    (DtpContext.writeLoop (fun _ => true) fuel i f len c).1.isCongested = false := by
  induction fuel generalizing i f len c with
  | zero => exact ⟨refl c, hnet, hcong⟩
  | succ fuel ih =>
    simp only [DtpContext.writeLoop, Bool.not_true, Bool.false_eq_true, if_false]
    split_ifs with hguard hs
    · exact ⟨refl c, hnet, hcong⟩
    · exact ⟨(refl c).act (.data hnet hcong hsyn hfin hchg hrsp (by simpa using hguard)) (by decide), hnet, hcong⟩
    · have hone : Acts flush c (c.writeOne f len) :=
        (refl c).act (.data hnet hcong hsyn hfin hchg hrsp (by simpa using hguard)) (by decide)
      obtain ⟨hloop, hnet', hcong'⟩ := ih (c := c.writeOne f len) (f := laterFlags f) (i + 1)
        (len - c.writeLen f len) hnet hcong (by simp [laterFlags]) hfin hchg hrsp
      exact ⟨hone.followed hloop, hnet', hcong'⟩

/-- Where the loop was reached, the network is there and the sender is not congested. -/
theorem writeFlush (c : DtpContext) : Acts flush c (c.writeFlush fun _ => true).1 ∧
    ((c.writeFlush fun _ => true).2 = true → (c.writeFlush fun _ => true).1.isNetConnected = true ∧
      (c.writeFlush fun _ => true).1.isCongested = false) := by
  have hbegin : Acts flush c c.beginWrite := (refl c).act (.begins c) (by decide)
  simp only [DtpContext.writeFlush]
  split_ifs with hoff hsyn
  · exact ⟨refl c, by simp⟩
  · exact ⟨refl c, by simp⟩
  · obtain ⟨hnet, hcong⟩ : c.isNetConnected = true ∧ c.isCongested = false := by simpa using hoff
    obtain ⟨hloop, hend⟩ := writeLoop (c := c.beginWrite) c.sendLen.toNat 0 (f := c.writeFlags)
      c.sendLen hnet hcong id rfl rfl rfl
    exact ⟨hbegin.followed hloop, fun _ => hend⟩

theorem dtpWriteAvail (c : DtpContext) : Acts flush c c.dtpWriteAvail := by
  obtain ⟨hflush, hend⟩ := writeFlush c
  rw [DtpContext.dtpWriteAvail, dtpWriteAvailOn]
  split_ifs with hfin
  · obtain ⟨hdone, hwant⟩ := Bool.and_eq_true _ _ ▸ hfin
    exact hflush.act (.fin (hend hdone).1 (hend hdone).2 hwant) (by decide)
  · exact hflush

/-! ## Retransmission -/

theorem dtpRetransmit {p p₀ : DtpPkt} (hp : p₀ ∈ c.packetQ)
    (heq : p = p₀ ∨ p = { p₀ with isRetrans := true }) :
    Acts [.note, .again, .reconnect] c (c.dtpRetransmit p).1 := by
  have hsent : Acts [.note, .again, .reconnect] c
      ((c.assert (p.seqNum == p.header.hdr.seq)).send c.peerAddr (c.retransDatagram p)) :=
    ((refl c).followed (assert c _) (by decide)).act
      (.again (c := c.assert (p.seqNum == p.header.hdr.seq)) hp heq)
  simp only [DtpContext.dtpRetransmit]
  split_ifs with hnet
  · exact hsent.act (.reconnect (by simpa using hnet)) (by decide)
  · exact hsent

theorem packetQ_dtpReconnect (c : DtpContext) : c.dtpReconnect.packetQ = c.packetQ := by
  simp only [DtpContext.dtpReconnect]
  cases hq : c.packetQ <;> simp [dtpSendACKPacket, DtpContext.send, dtpSlowStart, hq]

theorem packetQ_dtpRetransmit (c : DtpContext) (p : DtpPkt) : (c.dtpRetransmit p).1.packetQ = c.packetQ := by
  simp only [DtpContext.dtpRetransmit]
  split_ifs
  · exact packetQ_dtpReconnect _
  · rfl

/-- The packet in its place again, marked unless the network was away. -/
theorem requeue {kept q : List DtpPkt} {p : DtpPkt} (hq : c.packetQ = kept ++ p :: q) (p' : DtpPkt)
    (heq : p' = p ∨ p' = { p with isRetrans := true }) :
    Acts [.mark] c (c.setQueue (kept ++ p' :: q)) := by
  cases heq with
  | inl heq =>
    rw [heq, ← hq]
    exact refl c
  | inr heq =>
    rw [heq]
    exact (refl c).act (.mark hq) (by decide)

theorem dtpRetransmit_eq_or (c : DtpContext) (p : DtpPkt) :
    (c.dtpRetransmit p).2 = p ∨ (c.dtpRetransmit p).2 = { p with isRetrans := true } := by
  simp only [DtpContext.dtpRetransmit]
  split_ifs
  · exact Or.inl rfl
  · exact Or.inr rfl

def resend : List ActKind := [.note, .again, .reconnect, .mark]

/-- Sending the first packet again and putting it back. -/
theorem retransmitFirst {p : DtpPkt} {q : List DtpPkt} (hq : c.packetQ = p :: q) :
    Acts resend c ((c.dtpRetransmit p).1.setHead (c.dtpRetransmit p).2) := by
  have hsent : Acts resend c (c.dtpRetransmit p).1 :=
    (dtpRetransmit (hq ▸ List.mem_cons_self) (Or.inl rfl)).mono (by decide)
  have hq' : (c.dtpRetransmit p).1.packetQ = [] ++ p :: q := (packetQ_dtpRetransmit c p).trans hq
  have hput := requeue hq' _ (dtpRetransmit_eq_or c p)
  simp only [setHead, hq', List.nil_append, List.tail_cons]
  exact hsent.followed hput

section
variable (c : DtpContext)

theorem retransmitHead : Acts resend c c.retransmitHead := by
  simp only [DtpContext.retransmitHead]
  cases hq : c.packetQ with
  | nil => exact refl c
  | cons p q => exact retransmitFirst hq

theorem handleDuplicateACK (a : UInt32) : Acts (.congest :: resend) c (c.handleDuplicateACK a) := by
  simp only [DtpContext.handleDuplicateACK]
  cases hq : c.packetQ with
  | nil => exact refl c
  | cons p q =>
    have hchecked : Acts (.congest :: resend) c ((c.assert (decide (p.seqNum ≤ a))).assert
        (decide (a ≤ p.seqNum + u32 p.payloadLen))) := (refl c).act (.note ..) (by decide)
    exact (hchecked.followed (retransmitFirst hq) (by decide)).act (.congest ..) (by decide)

/-! ## Acknowledgements -/

/-- The kinds of the end of a context. -/
def ending : List ActKind := [.closes, .note, .released]

theorem enterClosed : Acts ending c c.enterClosed :=
  (((refl c).act (.closes c) (by decide)).act (.note ..) (by decide)).act (.released _) (by decide)

theorem expire : Acts ending c c.expire := ((refl c).act (.closes c) (by decide)).act (.released _) (by decide)

theorem recordACK (a : UInt32) : Acts [.acked, .establish, .congest, .note] c (c.recordACK a) := by
  have hcut : Acts [.acked, .establish, .congest, .note] c ((c.shiftAcked a).removePacket a) :=
    (refl c).act (.acked c a)
  rw [DtpContext.recordACK]
  generalize (c.shiftAcked a).removePacket a = b at hcut
  simp only [creditACK, DtpContext.establish]
  split_ifs with hm hs
  · exact (((hcut.act (.establish hs)).act (.note ..)).act (.congest ..)).act (.note ..)
  · exact (hcut.act (.congest ..)).act (.note ..)
  · exact hcut

theorem finishACK (a : UInt32) : Acts (.finAcked :: ending) c (c.finishACK a) := by
  simp only [DtpContext.finishACK]
  split_ifs with hfin
  · exact (refl c).act (.finAcked hfin.1) (by decide)
  · exact (enterClosed c).mono (by decide)
  · exact refl c

/-- The kinds of what follows the look at the ACK's window. -/
def crediting : List ActKind := flush ++ resend ++ ending ++ [.acked, .establish, .congest, .finAcked]

theorem countDuplicate (a : UInt32) : Acts [.congest] c (c.countDuplicate a) := by
  rw [DtpContext.countDuplicate]
  split_ifs
  · exact (refl c).act (.congest ..) (by decide)
  · exact refl c

/-- `HandleACKPacket`, after the window and unless the window was zero before. -/
theorem afterWindow (a : UInt32) :
    Acts crediting c (if a = (c.countDuplicate a).lastByteAcked ∧ (c.countDuplicate a).numACKRcvd = 4
      then (c.countDuplicate a).handleDuplicateACK a
      else ((c.countDuplicate a).recordACK a).dtpWriteAvail.dtpWriteBufWakeup.finishACK a) := by
  have hcount : Acts crediting c (c.countDuplicate a) := (countDuplicate c a).mono
  split_ifs
  · exact hcount.followed (handleDuplicateACK _ a)
  · have hflushed := (hcount.followed (recordACK _ a)).followed (dtpWriteAvail _)
    exact (hflushed.act (.note ..)).followed (finishACK _ a)

end

/-- The kinds of an ACK, once its number has been looked at. -/
def answering : List ActKind := .ackWindow :: .reopen :: crediting

theorem handleACKPacket_noteWrap (hnet : c.isNetConnected = true) {a : UInt32} (w : UInt16)
    (hnew : ¬(a < c.lastByteAcked ∧ ¬c.lastByteAcked + 1472 < c.lastByteAcked)) :
    Acts answering (c.noteWrap a) (c.handleACKPacket a w) := by
  have hnoted : Acts answering (c.noteWrap a) ((c.noteWrap a).noteAckWindow w) :=
    (refl _).act (.ackWindow _ w)
  simp only [DtpContext.handleACKPacket, hnet, Bool.not_true, Bool.false_eq_true, if_false, if_neg hnew]
  generalize (c.noteWrap a).noteAckWindow w = b at hnoted
  by_cases hzero : b.isHerWindowZero ∧ 0 < b.rcvWindow
  · rw [if_pos hzero]
    exact ((hnoted.act (.reopen hzero.1 hzero.2)).followed (dtpWriteAvail _)).act (.note ..)
  · rw [if_neg hzero]
    exact hnoted.followed (afterWindow b a)

/-- An ACK number that is not above the last one changes nothing, unless it is taken for a wrap. -/
theorem handleACKPacket_new {a : UInt32} (w : UInt16)
    (hwrap : a < c.lastByteAcked → ¬c.lastByteAcked + 1472 < c.lastByteAcked) :
    Acts answering c (c.handleACKPacket a w) := by
  by_cases hnet : c.isNetConnected = true
  · by_cases hold : a < c.lastByteAcked
    · simp only [DtpContext.handleACKPacket, hnet, Bool.not_true, Bool.false_eq_true, if_false]
      rw [if_pos ⟨hold, hwrap hold⟩]
      exact refl c
    · have hsame : c.noteWrap a = c := by rw [noteWrap, if_neg hold]
      have hnew := handleACKPacket_noteWrap hnet w fun h => hold h.1
      rwa [hsame] at hnew
  · rw [DtpContext.handleACKPacket, if_pos (by simpa using hnet)]
    exact refl c

def handling : List ActKind := .wrap :: answering

section
variable (c : DtpContext)

theorem handleACKPacket (a : UInt32) (w : UInt16) : Acts handling c (c.handleACKPacket a w) := by
  by_cases hwrap : a < c.lastByteAcked → ¬c.lastByteAcked + 1472 < c.lastByteAcked
  · exact (handleACKPacket_new w hwrap).mono (by decide)
  · obtain ⟨hlt, htop⟩ := Classical.not_imp.mp hwrap
    by_cases hnet : c.isNetConnected = true
    · have hwrapped : Acts handling c (c.noteWrap a) := by
        rw [noteWrap, if_pos hlt]
        exact (refl c).act (.wrap hlt (not_not.mp htop)) (by decide)
      exact hwrapped.followed (handleACKPacket_noteWrap hnet w fun h => htop h.2) (by decide)
    · rw [DtpContext.handleACKPacket, if_pos (by simpa using hnet)]
      exact refl c

/-! ## Data packets -/

/-- The kinds of a data packet. -/
def receiving : List ActKind := [.note, .dropACK, .segment, .store, .ack]

theorem handleNormalPacket (d : Datagram) (bodyLen : UInt32) : Acts receiving c (c.handleNormalPacket d bodyLen).1 := by
  have hdrop : Acts receiving c c.dropInsertedACK ∧ c.dropInsertedACK.state = c.state := by
    simp only [dropInsertedACK]
    split_ifs with hins
    · cases hq : c.packetQ with
      | nil => exact ⟨refl c, rfl⟩
      | cons p q =>
        simp only
        split_ifs
        · exact ⟨(refl c).act (.dropACK hins hq), rfl⟩
        · exact ⟨(assert c false).mono, rfl⟩
    · exact ⟨refl c, rfl⟩
  simp only [DtpContext.handleNormalPacket]
  split_ifs with hopen hlen
  · exact refl c
  all_goals
    obtain ⟨hrcvd, hsent, -⟩ := not_or.mp hopen |>.imp_right not_or.mp
    have hnoted : Acts receiving c (c.dropInsertedACK.noteSegment d.hdr) :=
      hdrop.1.act (.segment (hdrop.2 ▸ hrcvd) (hdrop.2 ▸ hsent) d.hdr)
  · exact (hnoted.act (.store (hdrop.2 ▸ hrcvd) (hdrop.2 ▸ hsent) hlen)).act (.note ..)
  · exact hnoted.act (.note ..)

theorem processPacket (d : Datagram) : Acts receiving c (c.processPacket d) := by
  simp only [DtpContext.processPacket]
  split_ifs
  · exact handleNormalPacket c d _
  · exact (refl c).act (.ack c) (by decide)
  · exact refl c

theorem foldl_processPacket (ds : List Datagram) : Acts receiving c (ds.foldl DtpContext.processPacket c) := by
  induction ds generalizing c with
  | nil => exact refl c
  | cons d ds ih => exact (processPacket c d).followed (ih _) (by decide)

theorem answerBatch : Acts [.opened, .ack, .note] c c.ackBatch.noteReadable := by
  have hacked : Acts [.opened, .ack, .note] c c.ackBatch := by
    simp only [ackBatch]
    split_ifs with hs
    · exact (refl c).act (.opened hs.2.2) (by decide)
    · exact (refl c).act (.ack c) (by decide)
    · exact refl c
  simp only [noteReadable]
  split_ifs
  · exact hacked.act (.note ..) (by decide)
  · exact hacked

theorem clearProbes : Acts [.note] c c.clearProbes := (refl c).act (.note ..) (by decide)

theorem processData (ds : List Datagram) : Acts (.opened :: receiving) c (c.processData ds) := by
  have hall : Acts (.opened :: receiving) c (ds.foldl DtpContext.processPacket c).clearProbes :=
    ((foldl_processPacket c ds).followed (clearProbes _)).mono
  simp only [DtpContext.processData]
  split_ifs
  · exact hall.followed (answerBatch _)
  · exact hall
  · exact (foldl_processPacket c _).mono
  · exact ((foldl_processPacket c _).followed (clearProbes _)).mono

def batching : List ActKind := handling ++ .opened :: receiving

theorem processAggregatePackets (p : AdjPktInfo) : Acts batching c (c.processAggregatePackets p) := by
  have hack : Acts batching c (c.processACK p.ack) := by
    cases hp : p.ack with
    | none => exact refl c
    | some a =>
      simp only [processACK]
      split_ifs
      · exact (handleACKPacket c a.1 a.2).mono (by decide)
      · exact refl c
  exact hack.followed (processData _ p.pkts) (by decide)

end

/-! ## FIN packets -/

def finishing : List ActKind := [.note, .ack, .finHeard, .dropFirst, .timeWait]

theorem dtpCloseContext_timeWait (hs : c.state = .timeWait) : Acts [.note] c c.dtpCloseContext := by
  simp only [DtpContext.dtpCloseContext, hs, if_true]
  split_ifs
  · exact assert c false
  · exact refl c
  · exact refl c

theorem enterTimeWait (hs : c.inFinWait = true) (hfin : c.isFINRcvd = true) :
    Acts [.note, .dropFirst, .timeWait] c c.enterTimeWait := by
  simp only [DtpContext.enterTimeWait]
  split_ifs with hfirst
  · rw [freeFirst]
    cases hq : c.packetQ with
    | nil => exact ((assert c false).mono.act (.timeWait hs hfin)).followed (dtpCloseContext_timeWait rfl)
    | cons p q => exact ((refl c).act (.dropFirst hfirst hfin hq)).followed (dtpCloseContext_timeWait rfl)
  · exact ((refl c).act (.timeWait hs hfin)).followed (dtpCloseContext_timeWait rfl)

theorem acceptFIN {c : DtpContext} (hs : c.ignoresFIN = false) : Acts finishing c c.acceptFIN := by
  have hnoted : Acts finishing c c.dtpSendACKPacket.noteFIN :=
    ((refl c).act (.ack c)).act (.finHeard hs)
  simp only [DtpContext.acceptFIN]
  split_ifs with hwait hin
  · exact hnoted.act (.note ..)
  · exact hnoted.followed (enterTimeWait hin rfl)
  · exact hnoted

theorem handleFINPacket (c : DtpContext) (h : DtpHdr) : Acts finishing c (c.handleFINPacket h) := by
  have hchecked : Acts finishing c ((c.assert c.closeCalled).assert (h.seq == c.nextByteExpected)) :=
    (refl c).act (.note ..) (by decide)
  simp only [DtpContext.handleFINPacket]
  split_ifs with hs
  · exact refl c
  · exact refl c
  · exact hchecked.followed (acceptFIN (Bool.not_eq_true _ ▸ hs)) (by decide)
  · exact refl c
  · exact acceptFIN (Bool.not_eq_true _ ▸ hs)

/-! ## The timer -/

/-- The kinds of the packet loop. -/
def expiring : List ActKind := [.prune, .fallBack] ++ resend

theorem timeoutPacket {p : DtpPkt} (hp : p ∈ c.packetQ) :
    Acts expiring c (c.timeoutPacket p).1 ∧ (c.timeoutPacket p).1.packetQ = c.packetQ ∧
      ((c.timeoutPacket p).2 = p ∨ (c.timeoutPacket p).2 = { p with isRetrans := true }) := by
  simp only [DtpContext.timeoutPacket]
  by_cases hnet : c.isNetConnected = true
  · have hback : Acts expiring c (c.fallBack p) := (refl c).act (.fallBack hnet hp) (by decide)
    have hq : (c.fallBack p).packetQ = c.packetQ := by
      rw [DtpContext.fallBack, unsendFIN]
      split_ifs <;> rfl
    have hp' : p ∈ (c.fallBack p).packetQ := hq ▸ hp
    simp only [hnet, if_true]
    split_ifs
    · refine ⟨hback.followed (dtpRetransmit hp' (Or.inr rfl)) (by decide), (packetQ_dtpRetransmit _ _).trans hq, ?_⟩
      cases dtpRetransmit_eq_or (c.fallBack p) { p with isRetrans := true } with
      | inl heq => exact Or.inr heq
      | inr heq => exact Or.inr heq
    · exact ⟨hback, hq, Or.inr rfl⟩
  · simp only [hnet, Bool.false_eq_true, if_false]
    split_ifs
    · exact ⟨(dtpRetransmit hp (Or.inl rfl)).mono (by decide), packetQ_dtpRetransmit _ _, dtpRetransmit_eq_or _ _⟩
    · exact ⟨refl c, rfl, Or.inl rfl⟩

/-- The packet loop, with the queue as it stands split at the packet it looks at. -/
theorem timeoutLoop (env : TimerEnv) (i : ℕ) {kept rest : List DtpPkt} (hq : c.packetQ = kept ++ rest) :
    Acts expiring c (DtpContext.timeoutLoop env i kept rest c).1 := by
  induction rest generalizing i kept c with
  | nil => exact refl c
  | cons p q ih =>
    simp only [DtpContext.timeoutLoop]
    split_ifs with hcong hlast
    · exact ((refl c).act (.prune hq (Or.inl (by simpa using hcong)))).followed (ih (i + 1) rfl)
    · exact (refl c).act (.prune hq (Or.inr hlast.1))
    · exact refl c
    · obtain ⟨hsent, hkeep, heq⟩ := timeoutPacket (c := c) (p := p) (by simp [hq])
      have hput := requeue (hkeep.trans hq) _ heq
      exact (hsent.followed hput).followed (ih (i + 1) (by simp [setQueue]))

section
variable (c : DtpContext)

section
variable (env : TimerEnv)

theorem timeoutQueue : Acts (expiring ++ ending) c (c.timeoutQueue env) := by
  have hloop : Acts (expiring ++ ending) c (DtpContext.timeoutLoop env 0 [] c.packetQ c).1 :=
    (timeoutLoop env 0 rfl).mono (by decide)
  rw [DtpContext.timeoutQueue]
  split_ifs
  · exact hloop.followed (expire _) (by decide)
  · exact hloop

theorem switchInterface : Acts [.switch] c (c.switchInterface env) := by
  simp only [DtpContext.switchInterface]
  split_ifs with hon
  · exact (refl c).act (.switch hon.1 hon.2.1 false) (by decide)
  · exact refl c
  · exact (refl c).act (.switch hon.1 hon.2.1 true) (by decide)
  · exact refl c
  · exact refl c

theorem keepAlive : Acts [.probe, .note] c
    (if c.keepAliveDue env then c.dtpSendProbePacket.countProbe else c) := by
  split_ifs
  · exact ((refl c).act (.probe c) (by decide)).act (.note ..) (by decide)
  · exact refl c

theorem persistProbe : Acts [.probe, .backOff] c (c.persistProbe env) := by
  simp only [DtpContext.persistProbe]
  split_ifs with hzero
  · exact ((refl c).act (.probe c) (by decide)).act (.backOff (by simpa using And.left (Bool.and_eq_true _ _ ▸ hzero))) (by decide)
  · exact refl c

def timing : List ActKind := [.probe, .note, .switch, .backOff, .timedOut] ++ expiring ++ ending

theorem handleTimeout : Acts timing c (c.handleTimeout env) := by
  rw [DtpContext.handleTimeout]
  by_cases hw : c.state = .timeWait
  · rw [if_pos hw]
    split_ifs
    · exact (expire c).mono
    · exact refl c
  · rw [if_neg hw]
    by_cases hk : c.keepAliveDue env ∧ ¬c.sentProbes < c.keepAliveProbes
    · rw [if_pos hk]
      exact (refl c).act (.timedOut c)
    · rw [if_neg hk]
      have hprobed : Acts timing c (if c.keepAliveDue env then c.dtpSendProbePacket.countProbe else c) :=
        (keepAlive c env).mono
      exact ((hprobed.followed (switchInterface _ env)).followed (persistProbe _ env)).followed
        (timeoutQueue _ env)

end

/-! ## Address changes -/

/-- The kinds of a transfer that starts again. -/
def resuming : List ActKind := .slowStart :: .note :: flush

theorem resumeTransfer : Acts resuming c c.resumeTransfer :=
  (((refl c).act (.slowStart c) (by decide)).followed (dtpWriteAvail _) (by decide)).act (.note ..) (by decide)

theorem handleCHGPacket (hmac : List UInt8 → List UInt8 → List UInt8) (d : Datagram)
    (addr : SockAddr) : Acts [.rst, .reset, .challenge] c (c.handleCHGPacket hmac d addr) := by
  simp only [DtpContext.handleCHGPacket]
  split_ifs
  · exact (((refl c).act (.rst c _ addr)).act (.reset _)).act (.respond _ hmac d)
  · exact (refl c).act (.respond c hmac d)

theorem handleRSPPacket (hmac : List UInt8 → List UInt8 → List UInt8) (d : Datagram)
    (addr : SockAddr) : Acts ([.rst, .auth, .address] ++ resuming ++ resend) c (c.handleRSPPacket hmac d addr) := by
  simp only [DtpContext.handleRSPPacket]
  split_ifs
  · exact (refl c).act (.rst c _ addr)
  · exact refl c
  · exact ((((refl c).act (.adopt c addr)).act (.auth _)).followed (resumeTransfer _)).followed
      (retransmitHead _)

/-- An AUTH packet from the peer's address; an ACK that waits in the queue is not needed then. -/
theorem resumeACKed : Acts ([.dropACK, .ack] ++ resuming) c
    (if c.isACKInserted then
      match c.packetQ with
      | [] => c.resumeTransfer.dtpSendACKPacket
      | p :: q =>
        if !p.castAckBit then c
        else ({ c with packetQ := q, isACKInserted := false } : DtpContext).resumeTransfer.dtpSendACKPacket
    else c.resumeTransfer.dtpSendACKPacket) := by
  have hanswer (c : DtpContext) :
      Acts ([.dropACK, .ack] ++ resuming) c c.resumeTransfer.dtpSendACKPacket :=
    (resumeTransfer c).mono.act (.ack _)
  split_ifs with hins
  · cases hq : c.packetQ with
    | nil => exact hanswer c
    | cons p q =>
      simp only
      split_ifs
      · exact refl c
      · exact ((refl c).act (.dropACK hins hq)).followed (hanswer _)
  · exact hanswer c

theorem handleAUTHPacket (addr : SockAddr) (rnd : UInt32) :
    Acts ([.challenge, .dropACK, .ack] ++ resuming) c (c.handleAUTHPacket addr rnd) := by
  rw [DtpContext.handleAUTHPacket]
  by_cases haddr : c.peerAddr ≠ addr
  · rw [if_pos haddr]
    exact (refl c).act (.challenge c addr rnd) (by decide)
  · rw [if_neg haddr]
    exact (resumeACKed c).mono (by decide)

theorem checkAddress (addr : SockAddr) (rnd : UInt32) : Acts [.challenge, .address] c (c.checkAddress addr rnd) := by
  simp only [DtpContext.checkAddress]
  split_ifs
  · exact (refl c).act (.rebind c addr) (by decide)
  · exact refl c
  · exact (refl c).act (.challenge c addr rnd) (by decide)
  · exact (refl c).act (.forget c) (by decide)

/-! ## Socket calls -/

def sending : List ActKind := .copy :: .note :: flush

theorem sendBody (data : List UInt8) : Acts sending c (c.sendBody data).1 := by
  simp only [DtpContext.sendBody]
  split_ifs with h0 h1 h2 h3 h4 hpos
  · exact refl c
  · exact refl c
  · exact refl c
  · exact refl c
  · exact (refl c).act (.note ..)
  · have hcopied : Acts sending c (c.copyBytes data (minSize data.length c.getAvailWriteBufSize)) :=
      (refl c).act (.copy hpos rfl)
    have hfull (b : DtpContext) : Acts sending b b.noteFull := by
      rw [noteFull]
      split_ifs
      · exact (refl b).act (.note ..)
      · exact refl b
    exact (hcopied.followed (hfull _)).followed (dtpWriteAvail _)
  · exact refl c

theorem dtpSend (data : List UInt8) : Acts sending c (c.dtpSend data).1 := by
  simp only [DtpContext.dtpSend]
  split_ifs
  · exact refl c
  · exact refl c
  · exact refl c
  · exact refl c
  · exact sendBody c data

theorem dtpSendWake (data : List UInt8) : Acts sending c (c.dtpSendWake data).1 :=
  ((refl c).act (.note ..) (by decide)).followed (sendBody _ data) (by decide)

/-- The kinds of `dtp_recv`. -/
def reading : List ActKind := [.note, .read, .charge, .ack]

/-- `dtp_recv`, up to the count against the block. -/
theorem uncharged (len : ℤ) : Acts [.note, .read, .ack] c
    (((c.advanceRead len).consumeHead len).slideReadBuf len).noteDrained.reopenWindow := by
  have hhead (c : DtpContext) : Acts [.note, .read, .ack] c (c.consumeHead len) := by
    simp only [consumeHead]
    split
    · exact (assert c false).mono
    · split_ifs
      · exact ((refl c).act (.take c len)).followed (assert _ _)
      · exact (refl c).act (.take c len)
  have hslide (c : DtpContext) : Acts [.note, .read, .ack] c (c.slideReadBuf len) := by
    simp only [slideReadBuf]
    split_ifs
    · exact (refl c).act (.slide c _)
    · exact refl c
  have hdrained (c : DtpContext) : Acts [.note, .read, .ack] c c.noteDrained := by
    simp only [noteDrained]
    split_ifs
    · exact (refl c).act (.note ..)
    · exact refl c
    · exact (refl c).act (.note ..)
    · exact refl c
  have hreopen (c : DtpContext) : Acts [.note, .read, .ack] c c.reopenWindow := by
    simp only [reopenWindow]
    split_ifs
    · exact ((refl c).act (.note ..)).act (.ack _)
    · exact refl c
  have hread : Acts [.note, .read, .ack] c (c.advanceRead len) := (refl c).act (.advance c len)
  have hconsumed := (hread.followed (hhead _)).followed (hslide _)
  exact (hconsumed.followed (hdrained _)).followed (hreopen _)

theorem consume (len : ℤ) : Acts reading c (c.consume len) :=
  (uncharged c len).mono.act (.charge _ len) (by decide)

theorem recvBody (length : ℕ) (msgPeek woken : Bool) : Acts reading c (c.recvBody length msgPeek woken).1 := by
  have hchecked (c : DtpContext) (b b' : Bool) : Acts reading c ((c.assert b).assert b') :=
    (refl c).act (.note ..)
  simp only [DtpContext.recvBody]
  split_ifs
  · exact (assert c _).mono
  · exact (assert c _).mono
  · exact (refl c).act (.note ..)
  · exact hchecked c _ _
  · exact (hchecked c _ _).followed (consume _ _)
  · exact (assert c _).mono

theorem dtpRecv (length : ℕ) (msgPeek : Bool) : Acts reading c (c.dtpRecv length msgPeek).1 := by
  simp only [DtpContext.dtpRecv]
  split_ifs
  · exact refl c
  · exact refl c
  · exact refl c
  · exact refl c
  · exact recvBody c length msgPeek false

theorem dtpRecvWake (length : ℕ) (msgPeek : Bool) : Acts reading c (c.dtpRecvWake length msgPeek).1 := by
  have hwoken : Acts reading c { c with isReadBlocked := false } := (refl c).act (.note ..) (by decide)
  simp only [DtpContext.dtpRecvWake]
  split_ifs
  · exact hwoken
  · exact hwoken
  · exact hwoken.followed (recvBody _ length msgPeek true) (by decide)

def closing : List ActKind := [.called, .waits, .released] ++ flush

theorem dtpClose : Acts closing c c.dtpClose.1 := by
  have hcalled : Acts closing c { c with closeCalled := true } := (refl c).act (.called c)
  simp only [DtpContext.dtpClose]
  split_ifs
  · exact refl c
  · exact (hcalled.followed (dtpWriteAvail _)).act (.waits _)
  · exact hcalled.followed (dtpWriteAvail _)
  · exact hcalled.act (.released _)
  · exact hcalled

theorem dtpCloseWake : Acts [.woken, .released] c c.dtpCloseWake.1 := by
  have hwoken : Acts [.woken, .released] c { c with waitACK := false } := (refl c).act (.woken c)
  simp only [DtpContext.dtpCloseWake]
  split_ifs
  · exact hwoken.act (.released _)
  · exact hwoken

theorem dtpSetsockopt (o : SockOpt) (env : SockoptEnv) : Acts [.resize, .tune, .marks] c (c.dtpSetsockopt o env).1 := by
  have hadj := adjusts_dtpSetsockopt c o env
  generalize (c.dtpSetsockopt o env).1 = c' at hadj ⊢
  cases hadj with
  | same => exact refl c
  | readLen n => exact (refl c).act (.readLen c n)
  | writeLen n => exact (refl c).act (.writeLen c n)
  | marks high low => exact (refl c).act (.marks c high low)
  | block n => exact (refl c).act (.tune ..)
  | tune => exact (refl c).act (.tune ..)

/-! ## Opening -/

theorem repeatSYN (rsa : Rsa) (d : Datagram) (addr : SockAddr) (hid key : List UInt8)
    (pad : ℕ) : Acts [.address, .note, .key, .rst] c (c.repeatSYN rsa d addr hid key pad) := by
  simp only [DtpContext.repeatSYN, dtpHandleKey]
  split_ifs
  · have hset : Acts [.address, .note, .key, .rst] c
        (((c.rebind addr).assert (keyFits d)).setKey key) :=
      (((refl c).act (.rebind c addr)).followed (assert _ _)).act (.setKey _ key)
    cases rsa.encrypt (modulus d) (exponent d) key pad with
    | none => exact hset.followed (assert _ false)
    | some cipher => exact hset.act (.sendKey _ cipher)
  · exact (refl c).act (.rst c _ addr)

end

theorem handleSYNACKPacket {rsa : Rsa} {d : Datagram} {addr : SockAddr} {hid : List UInt8} {r : DtpContext × Bool}
    (hr : c.handleSYNACKPacket rsa d addr hid = .ok r) : Acts [.ack, .adopted] c r.1 := by
  rcases handleSYNACKPacket_cases hr with
    ⟨-, rfl⟩ | ⟨hs, hid', rfl⟩ | ⟨hs, hid', key, scale, port, -, -, rfl⟩
  · exact (refl c).act (.ack c)
  · exact (refl c).act (.named hs hid')
  · exact ((refl c).act (.adopted hs d addr hid' key scale port)).act (.ack _)

theorem handleRSTPacket_opened (hs : c.state ≠ .synSent) {d : Datagram} {hid : List UInt8} {fid : UInt32}
    {r : DtpContext} (hr : c.handleRSTPacket d hid fid = .ok r) : Acts [.note, .reset, .dropLast] c r := by
  rcases handleRSTPacket_cases hr with rfl | ⟨hsyn, -⟩ | ⟨-, rfl⟩ | ⟨hlast, rfl⟩
  · exact refl _
  · exact absurd hsyn hs
  · exact (refl c).act (.reset c) (by decide)
  · simp only [dropLastAck]
    cases hq : c.packetQ with
    | nil => exact (assert c false).mono (by decide)
    | cons p q => exact (refl c).act (.dropLast hlast hq) (by decide)

theorem retryConnect (hs : c.state = .synSent) (fid : UInt32) :
    Acts (.note :: .retry :: flush) c (c.retryConnect fid) := by
  simp only [DtpContext.retryConnect]
  cases hq : c.packetQ with
  | nil => exact (assert c false).mono (by decide)
  | cons p q => exact ((refl c).act (.retry hs hq fid) (by decide)).followed (dtpWriteAvail _) (by decide)

theorem handleRSTPacket {d : Datagram} {hid : List UInt8} {fid : UInt32} {r : DtpContext}
    (hr : c.handleRSTPacket d hid fid = .ok r) : Acts ([.note, .retry, .reset, .dropLast] ++ flush) c r := by
  by_cases hs : c.state = .synSent
  · rcases handleRSTPacket_cases hr with rfl | ⟨-, rfl⟩ | ⟨hs', -⟩ | ⟨hs', -⟩
    · exact refl _
    · exact (retryConnect hs fid).mono (by decide)
    · cases hs.symm.trans hs'
    · cases hs.symm.trans hs'
  · exact (handleRSTPacket_opened hs hr).mono (by decide)

end Acts

/-! ## Events -/

/-- The kinds of acts an event is made of. -/
def Event.kinds : Event → List ActKind
  | .send _ | .sendWake _ => Acts.sending
  | .recv _ _ | .recvWake _ _ => Acts.reading
  | .close => Acts.closing
  | .closeWake => [.woken, .released]
  | .batch _ => Acts.batching
  | .fin _ => Acts.finishing
  | .chg _ _ => [.rst, .reset, .challenge]
  | .rsp _ _ => [.rst, .auth, .address] ++ Acts.resuming ++ Acts.resend
  | .auth _ _ => [.challenge, .dropACK, .ack] ++ Acts.resuming
  | .checkAddr _ _ => [.challenge, .address]
  | .synAck _ _ _ => [.ack, .adopted]
  | .rst _ _ _ => [.note, .retry, .reset, .dropLast] ++ Acts.flush
  | .timeout _ => Acts.timing

/-- Every event is made of its kinds of acts. -/
theorem Acts.apply (k : Crypto) (c : DtpContext) (e : Event) : Acts e.kinds c (e.apply k c) := by
  cases e with
  | send data => exact dtpSend c data
  | sendWake data => exact dtpSendWake c data
  | recv length msgPeek => exact dtpRecv c length msgPeek
  | recvWake length msgPeek => exact dtpRecvWake c length msgPeek
  | close => exact dtpClose c
  | closeWake => exact dtpCloseWake c
  | batch p => exact processAggregatePackets c p
  | fin h => exact handleFINPacket c h
  | chg d addr => exact handleCHGPacket c k.hmac d addr
  | rsp d addr => exact handleRSPPacket c k.hmac d addr
  | auth addr rnd => exact handleAUTHPacket c addr rnd
  | checkAddr addr rnd => exact checkAddress c addr rnd
  | synAck d addr hid =>
    simp only [Event.apply]
    split
    · rename_i r hr
      exact handleSYNACKPacket hr
    · exact refl c
  | rst d hid fid =>
    simp only [Event.apply]
    split
    · rename_i r hr
      exact handleRSTPacket hr
    · exact refl c
  | timeout env => exact handleTimeout c env

end Cedos.Dtp
