import Cedos.Dtp.Onward

/-!
# Two ends opening a connection

A client that has called `dtp_connect` and a server that listens. The network may lose,
duplicate, delay and reorder the client's SYNs and the server's SYN+ACKs: a datagram that
has been sent can arrive at any later time, any number of times. Everything else that
can happen to either end is an `Event` of its own.

The server finds the context of a SYN by its flow ID. When a context is gone and a late
SYN of the same flow comes in, a new context takes its place; the SYN+ACKs of the old one
can still arrive.
-/

namespace Cedos.Dtp

open DtpContext

/-- The context `DTPCreateContext` sets up, on a host with this identity, port and window
scale. -/
def hostContext (scale : UInt8) (id : List UInt8) (port : UInt16) : DtpContext :=
  { dtpCreateContext.useWindowScaleOf scale with localID := id, localPort := port }

/-- A client, and the contexts a server has for the flows of the client. -/
structure Parties where
  client : DtpContext
  /-- the last context of each flow ID -/
  flows : UInt32 → Option DtpContext
  /-- SYN+ACKs of contexts that have been replaced -/
  past : List Datagram

namespace Parties

/-- `DTPGetContextByFlowID` at the server. -/
def server (s : Parties) (fid : UInt32) : Option DtpContext :=
  (s.flows fid).filter fun c => c.onFlowIDMap

def setFlow (s : Parties) (fid : UInt32) (c : DtpContext) : Parties :=
  { s with flows := Function.update s.flows fid (some c) }

/-- The SYN+ACKs sent from the context of a flow. -/
def synAcksOf (s : Parties) (fid : UInt32) : List Datagram :=
  match s.flows fid with
  | none => []
  | some c => c.synsSent.map Prod.snd

/-- A SYN+ACK that the network may deliver. -/
def InFlight (s : Parties) (d : Datagram) : Prop := d ∈ s.past ∨ ∃ fid, d ∈ s.synAcksOf fid

def handleSYN (rsa : Rsa) (s : Parties) (d : Datagram) (addr : SockAddr) (env : SynEnv) : Parties :=
  match handleSYNPacket rsa env (s.server d.hdr.fid) d addr with
  | .ok (.known c) => s.setFlow d.hdr.fid c
  | .ok (.created c) => { s.setFlow d.hdr.fid c with past := s.past ++ s.synAcksOf d.hdr.fid }
  | _ => s

end Parties

/-- What can happen to the two. -/
inductive PartyEvent
  | client (e : Event)
  | server (fid : UInt32) (e : Event)
  /-- a SYN of the client arrives at the server -/
  | syn (d : Datagram) (addr : SockAddr) (env : SynEnv)
  /-- a SYN+ACK of the server arrives at the client -/
  | synAck (d : Datagram) (addr : SockAddr) (hid : List UInt8)

def Event.isSynAck : Event → Bool
  | .synAck _ _ _ => true
  | _ => false

namespace PartyEvent

/-- When it can happen. The server creates contexts with any window scale that
`UseWindowScale` admits, and keys of twenty bytes. -/
def offered (s : Parties) : PartyEvent → Prop
  | .client e => e.offered s.client ∧ e.isSynAck = false
  | .server fid e => ∃ c, s.flows fid = some c ∧ e.offered c ∧ e.isSynAck = false
  | .syn d _ env => d ∈ s.client.synsSent.map Prod.snd ∧ env.key.length = 20 ∧
      ∃ scale id port, id.length = sha1DigestLength ∧ env.fresh = hostContext scale id port
  | .synAck d _ _ => s.InFlight d

/-- What it does. -/
def apply (k : Crypto) (s : Parties) : PartyEvent → Parties
  | .client e => { s with client := e.apply k s.client }
  | .server fid e => { s with flows := Function.update s.flows fid ((s.flows fid).map (e.apply k)) }
  | .syn d addr env => s.handleSYN k.toRsa d addr env
  | .synAck d addr hid => { s with client := (Event.synAck d addr hid).apply k s.client }

end PartyEvent

/-- A client after `dtp_connect`, and a server that has not heard of it. -/
structure Caller where
  scale : UInt8
  id : List UInt8
  port : UInt16
  addr : SockAddr
  fid : UInt32
  /-- the public key: modulus and exponent -/
  n : List UInt8
  e : List UInt8
  hid : id.length = sha1DigestLength
  hn : n.length ≤ rsaLen
  he : e.length ≤ rsaLen

namespace Caller

/-- The public key as the SYN carries it. -/
def key (a : Caller) : List UInt8 := publicKeyBytes a.n a.e

/-- The context before its first packet. -/
def start (a : Caller) : DtpContext :=
  (hostContext a.scale a.id a.port).startConnect a.addr a.fid a.n a.e

def context (a : Caller) : DtpContext :=
  (hostContext a.scale a.id a.port).dtpConnect a.addr a.fid a.n a.e

/-- The window scale of the client. -/
def recvScale (a : Caller) : UInt8 := if a.scale > maxWinscaleShift then maxWinscaleShift else a.scale

def synHeader (a : Caller) : HdrBuf := a.start.beginWrite.writeHeader a.start.writeFlags

def syn (a : Caller) : Datagram := mkDatagram a.synHeader a.key

end Caller

/-- The runs of both ends. -/
def opening (k : Crypto) (a : Caller) : Machine Parties PartyEvent where
  init s := s = ⟨a.context, fun _ => none, []⟩
  allowed s e := e.offered s
  apply s e := e.apply k s

/-! ## The client waits -/

/-- Nothing more goes out before the SYN is answered. -/
theorem dtpWriteAvail_of_syn {c : DtpContext} (hwants : c.sendSYN = true) (hsent : c.isSYNSent = true)
    (hs : c.state = .synSent) : c.dtpWriteAvail = c := by
  have hflush : c.writeFlush (fun _ => true) = (c, false) := by
    simp [DtpContext.writeFlush, DtpContext.wantsSYN, hwants, hs, hsent]
  simp [DtpContext.dtpWriteAvail, DtpContext.dtpWriteAvailOn, hflush]

/-- A queue entry of the SYN. -/
def Caller.IsSYN (a : Caller) (p : DtpPkt) : Prop :=
  p.header = a.synHeader ∧ p.seqNum = 0 ∧ p.payloadLen = a.key.length

/-- A client in `SYN_SENT`: its write buffer begins with its public key, and every SYN it
has sent or will send again is the same datagram. -/
structure Calling (a : Caller) (c : DtpContext) : Prop where
  acked : c.lastByteAcked = 0
  wants : c.sendSYN = true
  sent : c.isSYNSent = true
  noFIN : c.isFINSent = false
  connected : c.isNetConnected = true
  buffer : ∀ i < a.key.length, c.writeBuf i = a.key.getD i 0
  written : a.key.length ≤ c.lastByteWritten.toNat
  room : (c.lastByteWritten.toNat : ℤ) ≤ c.writeBufLen
  small : c.writeBufLen < 2147483648
  sendScale : c.sendWindowScale = 0
  recvScale : c.recvWindowScale = a.recvScale
  queue : ∀ p ∈ c.packetQ, a.IsSYN p
  wire : ∀ x ∈ c.synsSent, x.2 = a.syn

/-- The fields it is about, apart from the queue and the network. -/
structure CallView where
  writeBuf : ℕ → UInt8
  writeBufLen : ℤ
  lastByteAcked : UInt32
  lastByteWritten : UInt32
  sendSYN : Bool
  isSYNSent : Bool
  isFINSent : Bool
  isNetConnected : Bool
  sendWindowScale : UInt8
  recvWindowScale : UInt8

def DtpContext.callView (c : DtpContext) : CallView where
  writeBuf := c.writeBuf
  writeBufLen := c.writeBufLen
  lastByteAcked := c.lastByteAcked
  lastByteWritten := c.lastByteWritten
  sendSYN := c.sendSYN
  isSYNSent := c.isSYNSent
  isFINSent := c.isFINSent
  isNetConnected := c.isNetConnected
  sendWindowScale := c.sendWindowScale
  recvWindowScale := c.recvWindowScale

namespace Calling
variable {a : Caller} {c c' : DtpContext}

section
variable (h : Calling a c)
include h

theorem of_view (hv : c'.callView = c.callView)
    (hq : ∀ p ∈ c'.packetQ, a.IsSYN p) (hw : ∀ x ∈ c'.synsSent, x.2 = a.syn) : Calling a c' := by
  obtain ⟨h1, h2, h3, h4, h5, h6, h7, h8, h9, h10⟩ := CallView.mk.inj hv
  constructor
  · exact h3.trans h.acked
  · exact h5.trans h.wants
  · exact h6.trans h.sent
  · exact h7.trans h.noFIN
  · exact h8.trans h.connected
  · intro i hi
    rw [h1]
    exact h.buffer i hi
  · rw [h4]
    exact h.written
  · rw [h4, h2]
    exact h.room
  · rw [h2]
    exact h.small
  · exact h9.trans h.sendScale
  · exact h10.trans h.recvScale
  · exact hq
  · exact hw

theorem of_same (hv : c'.callView = c.callView) (hq : c'.packetQ = c.packetQ)
    (hw : c'.wire = c.wire) : Calling a c' := by
  refine h.of_view hv ?_ ?_
  · intro p hp
    exact h.queue p (hq ▸ hp)
  · intro x hx
    rw [DtpContext.synsSent, hw] at hx
    exact h.wire x hx

theorem send (addr : SockAddr) {d : Datagram} (hd : d.hdr.syn = false) : Calling a (c.send addr d) := by
  refine h.of_view rfl h.queue ?_
  intro x hx
  refine h.wire x ?_
  simpa [DtpContext.synsSent, DtpContext.send, hd] using hx

theorem dtpWriteAvail (hs : c.state = .synSent) : Calling a c.dtpWriteAvail := by
  rw [dtpWriteAvail_of_syn h.wants h.sent hs]
  exact h

/-! ## Calls of the application -/

theorem copyBytes (data : List UInt8) (hm : 0 < minSize data.length c.getAvailWriteBufSize) :
    Calling a (c.copyBytes data (minSize data.length c.getAvailWriteBufSize)) := by
  have hw : c.lastByteWritten.toNat < 2147483648 := by
    have h0 := h.room
    have h1 := h.small
    omega
  have hoff : c.getWriteBufOff = c.lastByteWritten.toNat := by
    rw [DtpContext.getWriteBufOff, h.acked, UInt32.sub_zero, i32_of_lt hw]
  have hroom : 0 ≤ c.getAvailWriteBufSize := by
    rw [DtpContext.getAvailWriteBufSize, hoff]
    have h0 := h.room
    omega
  have hle := (minSize_le (k := data.length) hroom).1
  have havail : c.getAvailWriteBufSize = c.writeBufLen - c.lastByteWritten.toNat := by
    rw [DtpContext.getAvailWriteBufSize, hoff]
  generalize minSize data.length c.getAvailWriteBufSize = m at hm hle
  have hsmall := h.small
  have hnew : (c.copyBytes data m).lastByteWritten.toNat = c.lastByteWritten.toNat + m.toNat := by
    rw [DtpContext.copyBytes]
    exact toNat_add_u32 hm.le (by omega)
  have hwritten := h.written
  refine { h with buffer := ?_, written := ?_, room := ?_ }
  · intro i hi
    have hin : i < c.getWriteBufOff.toNat := by
      rw [hoff]
      omega
    change blit c.writeBuf c.getWriteBufOff.toNat (fun i => data.getD i 0) m.toNat i = _
    rw [blit_of_notMem (Or.inl hin)]
    exact h.buffer i hi
  · rw [hnew]
    omega
  · rw [hnew]
    change ((c.lastByteWritten.toNat + m.toNat : ℕ) : ℤ) ≤ c.writeBufLen
    omega

theorem sendBody (hs : c.state = .synSent) (data : List UInt8) : Calling a (c.sendBody data).1 := by
  rcases sendBody_cases c data with ⟨-, heq | heq⟩ | ⟨m, hm, rfl, heq⟩
  · rw [heq]
    exact h
  · rw [heq]
    exact h.of_same rfl rfl rfl
  · have hcopy := h.copyBytes data hm
    have hfull : ∀ c : DtpContext, Calling a c → Calling a c.noteFull ∧ c.noteFull.state = c.state := by
      intro c hc
      simp only [DtpContext.noteFull]
      split_ifs
      · exact ⟨hc.of_same rfl rfl rfl, rfl⟩
      · exact ⟨hc, rfl⟩
    obtain ⟨hnoted, hstate⟩ := hfull _ hcopy
    rw [heq]
    exact hnoted.dtpWriteAvail (hstate.trans hs)

theorem dtpSend (hs : c.state = .synSent) (data : List UInt8) : Calling a (c.dtpSend data).1 := by
  simp only [DtpContext.dtpSend]
  split_ifs
  · exact h
  · exact h
  · exact h
  · exact h
  · exact h.sendBody hs data

theorem of_recv (hs : c.state = .synSent) (hr : RecvFrame c c') (ho : Onward c c') : Calling a c' := by
  have hsend := hr.sendSide
  have hsyn : c'.sendSYN = c.sendSYN := by
    rcases hr.sendSYN with heq | ⟨-, hne⟩
    · exact heq
    · exact absurd hs hne
  refine h.of_view ?_ ?_ ?_
  · simp only [DtpContext.callView, CallView.mk.injEq]
    exact ⟨congrArg SendSide.writeBuf hsend, congrArg SendSide.writeBufLen hsend,
      congrArg SendSide.lastByteAcked hsend, congrArg SendSide.lastByteWritten hsend, hsyn,
      hr.isSYNSent, congrArg Lifecycle.isFINSent hr.lifecycle,
      congrArg Liveness.isNetConnected hr.liveness, congrArg Settled.sendWindowScale ho.settled,
      congrArg Settled.recvWindowScale ho.settled⟩
  · intro p hp
    exact h.queue p (congrArg SendSide.packetQ hsend ▸ hp)
  · intro x hx
    exact h.wire x (hr.syns ▸ hx)

theorem dtpCloseContext : Calling a c.dtpCloseContext := by
  simp only [DtpContext.dtpCloseContext]
  split_ifs
  · exact h.of_same rfl rfl rfl
  · exact h
  · exact h
  · exact h.of_same rfl rfl rfl

theorem dtpClose (hs : c.state = .synSent) : Calling a c.dtpClose.1 := by
  have hcalled : Calling a { c with closeCalled := true } := h.of_same rfl rfl rfl
  have hwait : ∀ c : DtpContext, Calling a c → Calling a { c with waitACK := true } :=
    fun c hc => hc.of_same rfl rfl rfl
  simp only [DtpContext.dtpClose]
  split_ifs
  · exact h
  · exact hwait _ (hcalled.dtpWriteAvail hs)
  · exact hcalled.dtpWriteAvail hs
  · exact hcalled.dtpCloseContext
  · exact hcalled

/-! ## The timer -/

theorem setQueue {q : List DtpPkt} (hq : ∀ p ∈ q, a.IsSYN p) :
    Calling a (c.setQueue q) := h.of_view rfl hq h.wire

theorem retransDatagram {p : DtpPkt} (hp : a.IsSYN p) : c.retransDatagram p = a.syn := by
  have hoff : c.getWriteBufPacketSentOff p = 0 := by
    rw [DtpContext.getWriteBufPacketSentOff, hp.2.1, h.acked]
    rfl
  have hbytes : peek c.writeBuf 0 a.key.length = a.key := by
    refine Eq.trans (peek_congr fun i hi => ?_) (peek_getD a.key 0)
    simpa using h.buffer i hi
  rw [DtpContext.retransDatagram, hoff, hp.1, hp.2.2, Int.toNat_natCast, hbytes, Caller.syn]

theorem afterTimeout {p : DtpPkt} (hp : a.IsSYN p) : Calling a (c.afterTimeout p) := by
  have hfall : Calling a (c.fallBack p) := by
    have hun : ∀ c : DtpContext, Calling a c → Calling a (c.unsendFIN p) := by
      intro c hc
      simpa [DtpContext.unsendFIN, hc.noFIN] using hc
    have hback : Calling a { c with isCongested := true, lastByteSent := p.stop } :=
      h.of_same rfl rfl rfl
    exact (hun _ hback).of_same rfl rfl rfl
  have hp' : a.IsSYN { p with isRetrans := true } := hp
  simp only [DtpContext.afterTimeout]
  split_ifs
  · rw [dtpRetransmit_eq (isNetConnected_fallBack.trans h.connected)]
    refine hfall.of_view rfl hfall.queue ?_
    intro x hx
    simp only [DtpContext.synsSent, DtpContext.send, DtpContext.assert, List.filter_append, List.mem_append] at hx
    rcases hx with hold | hnew
    · exact hfall.wire x hold
    · have hx := List.mem_singleton.mp (List.mem_of_mem_filter hnew)
      rw [hx]
      exact hfall.retransDatagram hp'
  · exact hfall

end

theorem timeoutLoop (env : TimerEnv) (h : Calling a c) (i : ℕ) {kept rest : List DtpPkt}
    (hq : ∀ p ∈ kept ++ rest, a.IsSYN p) :
    Calling a (DtpContext.timeoutLoop env i kept rest c).1 := by
  induction rest generalizing i kept c with
  | nil => exact h
  | cons p q ih =>
    have hp : a.IsSYN p := hq p (by simp)
    have hrest : ∀ x ∈ kept ++ q, a.IsSYN x := by
      intro x hx
      refine hq x ?_
      simp only [List.mem_append, List.mem_cons] at hx ⊢
      tauto
    have hprune : Calling a (c.prunePacket p (kept ++ q)) := h.of_view rfl hrest h.wire
    simp only [DtpContext.timeoutLoop]
    split_ifs
    · exact ih hprune _ hrest
    · exact hprune
    · exact h
    · have hmem : ∀ x ∈ kept ++ { p with isRetrans := true } :: q, a.IsSYN x := by
        intro x hx
        simp only [List.mem_append, List.mem_cons] at hx
        rcases hx with hk | rfl | hx
        · exact hq x (List.mem_append_left _ hk)
        · exact hp
        · exact hrest x (List.mem_append_right _ hx)
      rw [timeoutPacket_eq h.connected]
      refine ih ((h.afterTimeout hp).setQueue hmem) _ ?_
      simpa using hmem

theorem handleTimeout (h : Calling a c) (hs : c.state = .synSent) (env : TimerEnv) :
    Calling a (c.handleTimeout env) := by
  have hqueue : ∀ c : DtpContext, Calling a c → Calling a (c.timeoutQueue env) := by
    intro c hc
    have hloop : Calling a (DtpContext.timeoutLoop env 0 [] c.packetQ c).1 :=
      hc.timeoutLoop env 0 hc.queue
    simp only [DtpContext.timeoutQueue]
    split_ifs
    · have hclosed : Calling a
          { (DtpContext.timeoutLoop env 0 [] c.packetQ c).1 with state := .closed } :=
        hloop.of_same rfl rfl rfl
      exact hclosed.dtpCloseContext
    · exact hloop
  have hrest : ∀ c : DtpContext, Calling a c → c.state = .synSent →
      Calling a (((c.switchInterface env).persistProbe env).timeoutQueue env) := by
    intro c hc hs
    have hsame : c.switchInterface env = c := by simp [DtpContext.switchInterface, hs]
    rw [hsame]
    refine hqueue _ ?_
    simp only [DtpContext.persistProbe]
    split_ifs
    · have hprobe : Calling a c.dtpSendProbePacket := hc.send _ rfl
      exact hprobe.of_same rfl rfl rfl
    · exact hc
  have hprobe : Calling a c.dtpSendProbePacket := h.send _ rfl
  simp only [DtpContext.handleTimeout, hs, reduceCtorEq, if_false]
  split_ifs
  · exact h.of_same rfl rfl rfl
  · exact hrest _ (hprobe.of_same rfl rfl rfl) hs
  · exact hrest c h hs

/-! ## Every event before the SYN+ACK -/

/-- The flow ID changes, but the SYN is not sent again. -/
theorem retryConnect (h : Calling a c) (hs : c.state = .synSent) (fid : UInt32) :
    Calling a (c.retryConnect fid) ∧ (c.retryConnect fid).state = .synSent := by
  simp only [DtpContext.retryConnect]
  cases hq : c.packetQ with
  | nil => exact ⟨h.of_same rfl rfl rfl, hs⟩
  | cons p q =>
    have hdrop : Calling a
        { c with
          packetQ := q
          flowID := fid
          lastByteSent := c.lastByteSent - u32 p.payloadLen
          segSent := 0 } :=
      h.of_view rfl (fun x hx => h.queue x (hq ▸ List.mem_cons_of_mem _ hx)) h.wire
    simp only [dtpWriteAvail_of_syn hdrop.wants hdrop.sent hs]
    exact ⟨hdrop, hs⟩

theorem apply (k : Crypto) (h : Calling a c) (hs : c.state = .synSent) {e : Event}
    (he : e.offered c) (hno : e.isSynAck = false) : Calling a (e.apply k c) := by
  have hrecv : c.receives = false := by simp [DtpContext.receives, hs]
  cases e with
  | send data => exact h.dtpSend hs data
  | sendWake data =>
    have hwoken : Calling a { c with isWriteBlocked := false } := h.of_same rfl rfl rfl
    exact hwoken.sendBody hs data
  | recv length msgPeek =>
    exact h.of_recv hs (RecvFrame.dtpRecv c length msgPeek) (.of_moves (.of_acts (.dtpRecv c length msgPeek)))
  | recvWake length msgPeek =>
    exact h.of_recv hs (RecvFrame.dtpRecvWake c length msgPeek) (.of_moves (.of_acts (.dtpRecvWake c length msgPeek)))
  | close => exact h.dtpClose hs
  | closeWake =>
    have hwoken : Calling a { c with waitACK := false } := h.of_same rfl rfl rfl
    simp only [Event.apply, DtpContext.dtpCloseWake]
    split_ifs
    · exact hwoken.dtpCloseContext
    · exact hwoken
  | batch p => exact absurd hs he.1
  | fin d => exact absurd (hrecv.symm.trans he) Bool.false_ne_true
  | chg d addr => exact absurd (hrecv.symm.trans he) Bool.false_ne_true
  | rsp d addr => exact absurd (hrecv.symm.trans he) Bool.false_ne_true
  | auth addr rnd => exact absurd (hrecv.symm.trans he) Bool.false_ne_true
  | checkAddr addr rnd => exact absurd (hrecv.symm.trans he) Bool.false_ne_true
  | synAck d addr hid => simp [Event.isSynAck] at hno
  | rst d hid fid =>
    simp only [Event.apply]
    split
    · rename_i r hr
      rcases handleRSTPacket_cases hr with rfl | ⟨-, rfl⟩ | ⟨hs', -⟩ | ⟨hs', -⟩
      · exact h
      · exact (h.retryConnect hs fid).1
      · exact absurd (hs.symm.trans hs') (by decide)
      · exact absurd (hs.symm.trans hs') (by decide)
    · exact h
  | timeout env => exact h.handleTimeout hs env

end Calling

/-! ## `dtp_connect` -/

/-- The key is at the beginning of the write buffer. -/
theorem payload_startConnect {c : DtpContext} {addr : SockAddr} {fid : UInt32} {n e : List UInt8} :
    peek (c.startConnect addr fid n e).writeBuf 0 (publicKeyBytes n e).length = publicKeyBytes n e := by
  refine Eq.trans (peek_congr fun i hi => ?_) (peek_getD (publicKeyBytes n e) 0)
  rw [Nat.zero_add]
  change blit _ 0 (fun i => (publicKeyBytes n e).getD i 0) (publicKeyBytes n e).length i = _
  rw [blit_of_mem (Nat.zero_le i) (by omega), Nat.sub_zero]

namespace Caller
variable (a : Caller)

theorem length_key : a.key.length = 8 + a.n.length + a.e.length := by
  simp [key, publicKeyBytes, bytes32]
  omega

theorem key_bounds : 8 ≤ a.key.length ∧ a.key.length ≤ 520 := by
  have hn := a.hn
  have he := a.he
  rw [a.length_key]
  simp only [rsaLen] at hn he
  omega

theorem written_start : a.start.lastByteWritten.toNat = a.key.length := by
  have hb := a.key_bounds
  change (u32 (a.key.length : ℤ)).toNat = a.key.length
  rw [toNat_u32 (by omega) (by omega)]
  omega

/-- The whole key may go out at once. -/
theorem sendLen_start : a.start.sendLen = a.key.length := by
  have hb := a.key_bounds
  have hw := a.written_start
  have hunsent : i32 (a.start.lastByteWritten - a.start.lastByteSent) = a.key.length := by
    change i32 (a.start.lastByteWritten - 0) = _
    rw [UInt32.sub_zero, i32_of_lt (by omega), hw]
  have hwindow : a.start.rcvWindow - (a.start.lastByteSent - a.start.lastByteAcked) = 32768 := by
    change u32 defBufLen - (0 - 0) = 32768
    decide
  have hin : i32 (min (u32 (a.key.length : ℤ)) 32768) = a.key.length := by
    have hmin : (min (u32 (a.key.length : ℤ)) 32768).toNat = a.key.length := by
      rw [toNat_min, toNat_u32 (by omega) (by omega)]
      change min (a.key.length : ℤ).toNat 32768 = _
      omega
    rw [i32_of_lt (by omega), hmin]
  have hcwnd : a.start.cwnd - a.start.segSent = 1452 := rfl
  simp only [DtpContext.sendLen, hunsent, hwindow, hin, hcwnd]
  omega

theorem writeGuard_start : a.start.beginWrite.writeGuard a.start.sendLen = true := by
  have hb := a.key_bounds
  have hw := a.written_start
  have hlt : a.start.beginWrite.lastByteWritten - a.start.beginWrite.lastByteSent < 1452 := by
    rw [UInt32.lt_iff_toNat_lt]
    change (a.start.lastByteWritten - 0).toNat < 1452
    rw [UInt32.sub_zero, hw]
    omega
  have hpos : 0 < a.start.sendLen := by
    rw [a.sendLen_start]
    omega
  simp [DtpContext.writeGuard, hlt, hpos]

theorem context_eq : a.context = a.start.beginWrite.writeOne a.start.writeFlags a.start.sendLen := by
  have hb := a.key_bounds
  obtain ⟨fuel, hfuel⟩ : ∃ fuel, a.start.sendLen.toNat = fuel + 1 := by
    refine ⟨a.key.length - 1, ?_⟩
    rw [a.sendLen_start]
    omega
  have hflush : a.start.writeFlush (fun _ => true) =
      (a.start.beginWrite.writeOne a.start.writeFlags a.start.sendLen, true) := by
    have hnet : (!a.start.isNetConnected || a.start.isCongested) = false := rfl
    have hsyn : (a.start.wantsSYN && a.start.isSYNSent) = false := rfl
    have hstate : a.start.beginWrite.state = .synSent := rfl
    simp only [DtpContext.writeFlush, hnet, hsyn, hfuel, DtpContext.writeLoop, a.writeGuard_start,
      hstate, Bool.false_eq_true, Bool.not_true, if_false, if_true]
  have hfin : (a.start.beginWrite.writeOne a.start.writeFlags a.start.sendLen).wantsFIN = false := rfl
  change a.start.dtpWriteAvail = _
  simp [DtpContext.dtpWriteAvail, DtpContext.dtpWriteAvailOn, hflush, hfin]

theorem payload_start : peek a.start.writeBuf 0 a.key.length = a.key := payload_startConnect

theorem calling : Calling a a.context := by
  have hb := a.key_bounds
  have hw := a.written_start
  have hlen : a.start.beginWrite.writeLen a.start.writeFlags a.start.sendLen = a.key.length := rfl
  rw [a.context_eq]
  constructor
  · rfl
  · rfl
  · rfl
  · rfl
  · rfl
  · intro i hi
    have hpeek := congrArg (fun l => l.getD i 0) a.payload_start
    change a.start.writeBuf i = _
    simpa [peek, hi] using hpeek
  · exact hw.ge
  · change (a.start.lastByteWritten.toNat : ℤ) ≤ 32768
    omega
  · change (32768 : ℤ) < 2147483648
    omega
  · rfl
  · rfl
  · intro p hp
    have hmem := List.mem_singleton.mp hp
    rw [hmem]
    exact ⟨rfl, rfl, payloadLen_writePkt.trans hlen⟩
  · intro x hx
    have hmem := List.mem_singleton.mp (List.mem_of_mem_filter hx)
    rw [hmem]
    have hoff : a.start.beginWrite.getWriteBufLastByteSentOff = 0 := by
      change ((0 : UInt32) - 0).toNat = 0
      decide
    change a.start.beginWrite.writeDatagram a.start.writeFlags a.start.sendLen = a.syn
    rw [DtpContext.writeDatagram, hlen, hoff, Int.toNat_natCast]
    exact congrArg (mkDatagram a.synHeader) a.payload_start

theorem state_context : a.context.state = .synSent := by
  rw [a.context_eq]
  rfl

theorem syn_mem : a.syn ∈ a.context.synsSent.map Prod.snd := by
  have hsyn : a.context.synsSent ≠ [] := by
    rw [a.context_eq]
    have hflag : (a.start.beginWrite.writeDatagram a.start.writeFlags a.start.sendLen).hdr.syn =
        true := congrArg Flags.syn (writeHeader_flags a.start.beginWrite a.start.writeFlags)
    have hwire : a.start.beginWrite.wire = [] := rfl
    simp [DtpContext.synsSent, DtpContext.writeOne, hwire, hflag]
  obtain ⟨x, hx⟩ := List.exists_mem_of_ne_nil _ hsyn
  exact List.mem_map.mpr ⟨x, hx, a.calling.wire x hx⟩

end Caller

end Cedos.Dtp
