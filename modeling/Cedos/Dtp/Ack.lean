import Cedos.Dtp.Close
import Cedos.Dtp.Receive

/-!
# Acknowledgements

`RemovePacket`, `HandleDuplicateACK` and `HandleACKPacket`.

`RemovePacket` walks the queue once. A packet that ends below the ACK number is freed;
one that ends at it is freed unless it is a FIN, and the walk stops there; one that ends
above it is trimmed and the walk stops. Each packet is freed one round late, in
`removeLoop`; `cutQueue` frees it at once and comes to the same.
-/

namespace Cedos.Dtp

/-- Cut `n` bytes off the front of a packet, in its queue entry and in its stored
header. -/
def DtpPkt.trim (p : DtpPkt) (n : ℤ) : DtpPkt :=
  { p with
    seqNum := p.seqNum + u32 n
    header := { p.header with hdr := { p.header.hdr with seq := p.seqNum + u32 n } }
    len := p.len - n }

/-- What `RemovePacket` leaves: the queue, the bytes that are no longer in flight, and
whether a packet was freed. -/
structure QueueCut where
  rest : List DtpPkt
  removed : ℤ
  freed : Bool

/-- The loop of `RemovePacket` between two rounds: the packets it has passed that are still in the
queue, of which `pdone` is the last, and what it has freed before. -/
structure RemoveLoop where
  passed : List DtpPkt
  removed : ℤ
  freed : Bool
  pdone : Option DtpPkt

/-- Free `pdone`. -/
def RemoveLoop.free (s : RemoveLoop) : RemoveLoop :=
  match s.pdone with
  | none => s
  | some p => ⟨s.passed.dropLast, s.removed + p.payloadLen, true, none⟩

/-- Go past a packet that is to be freed. -/
def RemoveLoop.pass (s : RemoveLoop) (p : DtpPkt) : RemoveLoop :=
  { s with passed := s.passed ++ [p], pdone := some p }

/-- The end of the loop, with the packets it has not come to. -/
def RemoveLoop.finish (s : RemoveLoop) (q : List DtpPkt) : QueueCut :=
  ⟨s.free.passed ++ q, s.free.removed, s.free.freed⟩

def removeLoop (ackNum : UInt32) (s : RemoveLoop) : List DtpPkt → QueueCut
  | [] => s.finish []
  | p :: q =>
    let s := s.free
    if p.stop < ackNum then removeLoop ackNum (s.pass p) q
    else if p.stop = ackNum then
      if p.header.hdr.fin then s.finish (p :: q) else (s.pass p).finish q
    else
      let moveLen := i32 (ackNum - p.seqNum)
      { s with removed := s.removed + moveLen }.finish (p.trim moveLen :: q)

/-- The same walk, with every packet freed at once. -/
def cutQueue (ackNum : UInt32) : List DtpPkt → QueueCut
  | [] => ⟨[], 0, false⟩
  | p :: q =>
    if p.stop < ackNum then
      let r := cutQueue ackNum q
      ⟨r.rest, p.payloadLen + r.removed, true⟩
    else if p.stop = ackNum then
      if p.header.hdr.fin then ⟨p :: q, 0, false⟩ else ⟨q, p.payloadLen, true⟩
    else
      let moveLen := i32 (ackNum - p.seqNum)
      ⟨p.trim moveLen :: q, moveLen, false⟩

/-- Freeing a packet one round late makes no difference. -/
theorem removeLoop_eq (ackNum : UInt32) (s : RemoveLoop) (q : List DtpPkt) : removeLoop ackNum s q =
    ⟨s.free.passed ++ (cutQueue ackNum q).rest, s.free.removed + (cutQueue ackNum q).removed,
      s.free.freed || (cutQueue ackNum q).freed⟩ := by
  have hnone (s : RemoveLoop) : s.free.pdone = none := by
    rcases s with ⟨passed, removed, freed, _ | p⟩ <;> rfl
  have hfree (s : RemoveLoop) (h : s.pdone = none) : s.free = s := by simp [RemoveLoop.free, h]
  have hpass (s : RemoveLoop) (p : DtpPkt) : (s.pass p).free = ⟨s.passed, s.removed + p.payloadLen, true, none⟩ := by
    simp [RemoveLoop.free, RemoveLoop.pass]
  induction q generalizing s with
  | nil => simp [removeLoop, RemoveLoop.finish, cutQueue]
  | cons p q ih =>
    simp only [removeLoop, cutQueue]
    split_ifs
    · simp [ih, hpass, add_assoc]
    · simp [RemoveLoop.finish, hfree, hnone]
    · simp [RemoveLoop.finish, hpass]
    · simp [RemoveLoop.finish, hfree, hnone]

theorem removeLoop_start (ackNum : UInt32) (q : List DtpPkt) :
    removeLoop ackNum ⟨[], 0, false, none⟩ q = cutQueue ackNum q := by
  simp [removeLoop_eq, RemoveLoop.free]

def persistMin : ℤ := 5

namespace DtpContext

def removePacket (c : DtpContext) (ackNum : UInt32) : DtpContext :=
  let r := removeLoop ackNum ⟨[], 0, false, none⟩ c.packetQ
  { c with
    packetQ := r.rest
    segSent := c.segSent - r.removed
    isCongested := c.isCongested && !r.freed
    numACKRcvd := if r.freed then 1 else c.numACKRcvd }

section
variable (c : DtpContext) (ackNum : UInt32)

theorem packetQ_removePacket : (c.removePacket ackNum).packetQ = (cutQueue ackNum c.packetQ).rest := by
  rw [removePacket, removeLoop_start]

theorem segSent_removePacket :
    (c.removePacket ackNum).segSent = c.segSent - (cutQueue ackNum c.packetQ).removed := by
  rw [removePacket, removeLoop_start]

theorem isCongested_removePacket :
    (c.removePacket ackNum).isCongested = (c.isCongested && !(cutQueue ackNum c.packetQ).freed) := by
  rw [removePacket, removeLoop_start]

end

/-- Put a packet back at the head of the queue. -/
def setHead (c : DtpContext) (p : DtpPkt) : DtpContext := { c with packetQ := p :: c.packetQ.tail }

/-- `HandleDuplicateACK`: retransmit the first packet. -/
def handleDuplicateACK (c : DtpContext) (ackNum : UInt32) : DtpContext :=
  match c.packetQ with
  | [] => c
  | p :: _ =>
    let c := (c.assert (decide (p.seqNum ≤ ackNum))).assert
      (decide (ackNum ≤ p.seqNum + u32 p.payloadLen))
    let r := c.dtpRetransmit p
    (r.1.setHead r.2).congestionAvoidance

/-- An old ACK number near the top of the number space is taken for a wrap-around. -/
def noteWrap (c : DtpContext) (ackNum : UInt32) : DtpContext :=
  if ackNum < c.lastByteAcked then { c with nextByteExpected := c.nextByteExpected + 1 } else c

/-- Take over the advertised window; a zero window starts the persist timer. -/
def noteAckWindow (c : DtpContext) (window : UInt16) : DtpContext :=
  let rcvWindow := scaledWindow window c.sendWindowScale
  { c with
    rcvWindow := rcvWindow
    isHerWindowZero := c.isHerWindowZero || rcvWindow == 0
    persistIntvl := if rcvWindow = 0 then persistMin else c.persistIntvl }

/-- The peer's window is no longer zero. -/
def clearHerWindowZero (c : DtpContext) : DtpContext := { c with isHerWindowZero := false }

/-- Count an ACK that acknowledges nothing new. -/
def countDuplicate (c : DtpContext) (ackNum : UInt32) : DtpContext :=
  if ackNum = c.lastByteAcked then { c with numACKRcvd := c.numACKRcvd + 1 } else c

/-- Move the acknowledged offset, with the sent offset not left behind, and slide the
write buffer by the acknowledged bytes. -/
def shiftAcked (c : DtpContext) (ackNum : UInt32) : DtpContext :=
  let acked := i32 (ackNum - c.lastByteAcked)
  let off := i32 (c.lastByteWritten - ackNum)
  { c with
    lastByteAcked := ackNum
    lastByteSent := if c.lastByteSent < ackNum then ackNum else c.lastByteSent
    writeBuf := if 0 < off then move c.writeBuf 0 acked.toNat off.toNat else c.writeBuf }

/-- The first ACK of a new byte in `SYN_RCVD` establishes the connection. -/
def establish (c : DtpContext) : DtpContext :=
  if c.state = .synRcvd then
    { c with state := .established, pendingRead := false, pendingWrite := true }
  else c

/-- Everything that depends on whether the ACK acknowledged something new. -/
def creditACK (c : DtpContext) (acked : ℤ) : DtpContext :=
  if acked ≠ 0 then (c.establish.moveCongestionWindow acked).dtpWriteBufWakeup else c

/-- `HandleACKPacket` from the new ACK number up to its `DTPWriteAvail`. -/
def recordACK (c : DtpContext) (ackNum : UInt32) : DtpContext :=
  ((c.shiftAcked ackNum).removePacket ackNum).creditACK (i32 (ackNum - c.lastByteAcked))

def enterClosed (c : DtpContext) : DtpContext :=
  (({ c with state := .closed } : DtpContext).dtpReadBufWakeup).dtpCloseContext

/-- The state change at the end of `HandleACKPacket`. -/
def finishACK (c : DtpContext) (ackNum : UInt32) : DtpContext :=
  if c.state = .finWait1 ∧ c.lastByteWritten = ackNum then { c with state := .finWait2 }
  else if c.state = .lastAck then c.enterClosed
  else c

def handleACKPacket (c : DtpContext) (ackNum : UInt32) (window : UInt16) : DtpContext :=
  if !c.isNetConnected then c
  else if ackNum < c.lastByteAcked ∧ ¬c.lastByteAcked + 1472 < c.lastByteAcked then c
  else
    let c := (c.noteWrap ackNum).noteAckWindow window
    if c.isHerWindowZero ∧ 0 < c.rcvWindow then
      c.clearHerWindowZero.dtpWriteAvail.dtpWriteBufWakeup
    else
      let c := c.countDuplicate ackNum
      if ackNum = c.lastByteAcked ∧ c.numACKRcvd = 4 then c.handleDuplicateACK ackNum
      else (c.recordACK ackNum).dtpWriteAvail.dtpWriteBufWakeup.finishACK ackNum

end DtpContext
end Cedos.Dtp
