import Cedos.Dtp.Context

/-!
# Sending

`DTPWriteAvail` and what it calls: the packets it composes, the window arithmetic
that decides how much may go out, the loop that cuts the unsent data into packets,
and the FIN it sends at the end. `DTPRetransmit`, `DTPReconnect` and the
congestion window follow.

The length `DTPWriteAvail` works with is an `int`, but the first of its two
`__min`s compares it with an unsigned window difference, so a negative length or a
window smaller than the data in flight turns into a large number. `sendLen` keeps
that conversion.

`DTPSendPacket` can fail with `ENETUNREACH`, in which case the loop returns after
queueing the packet and before advancing the offsets; the argument `net` of
`dtpWriteAvailOn` says which datagrams of one call the socket accepts. The
handlers use `dtpWriteAvail`, where it accepts all of them and the network decides
their fate.
-/

namespace Cedos.Dtp.DtpContext

/-! ## Control packets -/

/-- `DTPSendACKPacket`. -/
def dtpSendACKPacket (c : DtpContext) : DtpContext :=
  c.send c.peerAddr (mkDatagram
    (dtpGenerateHeader c.lastByteSent c.getAckNumber c.flowID { ack := true } c.advertisedWindow) [])

/-- `DTPSendProbePacket`. -/
def dtpSendProbePacket (c : DtpContext) : DtpContext :=
  c.send c.peerAddr (mkDatagram
    (dtpGenerateHeader c.lastByteSent c.getAckNumber c.flowID {} c.advertisedWindow) [])

/-- The header `DTPSendFINPacket` composes; its window is not scaled. -/
def finHeader (c : DtpContext) : HdrBuf :=
  dtpGenerateHeader c.lastByteSent c.getAckNumber c.flowID { fin := true, ack := true }
    c.getAvailReadBufSize

/-- The queue entry of a FIN, which has no payload. -/
def finPkt (c : DtpContext) : DtpPkt :=
  { seqNum := c.lastByteSent, len := c.finHeader.size, headerLen := c.finHeader.size
    header := c.finHeader, isRetrans := false }

/-- The state `DTPSendFINPacket` moves to. -/
def finState : SockState → SockState
  | .established => .finWait1
  | .synSent => .finWait1
  | .closeWait => .lastAck
  | s => s

/-- `DTPSendFINPacket`: the FIN occupies one sequence number and no buffer byte. -/
def dtpSendFINPacket (c : DtpContext) : DtpContext :=
  { c with
    packetQ := c.packetQ ++ [c.finPkt]
    wire := c.wire ++ [(c.peerAddr, mkDatagram c.finHeader [])]
    lastByteSent := c.lastByteSent + 1
    lastByteWritten := c.lastByteWritten + 1
    state := finState c.state
    isFINSent := true }

/-! ## `DTPWriteAvail` -/

/-- The bytes `DTPWriteAvail` may send: unsent data, cut by the peer's window in
unsigned arithmetic and by the congestion window in signed arithmetic. -/
def sendLen (c : DtpContext) : ℤ :=
  let unsent := i32 (c.lastByteWritten - c.lastByteSent)
  let inWindow := i32 (min (u32 unsent) (c.rcvWindow - (c.lastByteSent - c.lastByteAcked)))
  min inWindow (c.cwnd - c.segSent)

/-- The loop condition of `DTPWriteAvail`: a full packet, or the last piece, or no
reason to wait for more. -/
def writeGuard (c : DtpContext) (len : ℤ) : Bool :=
  decide ((maxPayload : ℤ) ≤ len) ||
    (decide (0 < len) &&
      (decide (c.lastByteWritten - c.lastByteSent < 1452) || c.closeCalled ||
        decide (c.rcvWindow < 1452)))

/-- Header and options of the next packet: a SYN names the host and its deadline,
and the very first packet announces the window scale. -/
def writeHeader (c : DtpContext) (flags : Flags) : HdrBuf :=
  let h := dtpGenerateHeader c.lastByteSent c.nextByteExpected c.flowID flags c.advertisedWindow
  let h := if flags.syn then dtpAddOptionToHeader h optHostId c.localID else h
  let h := if flags.syn && decide (0 < c.deadline)
    then dtpAddOptionToHeader h optDeadline (bytes32 (u32 c.deadline)) else h
  if !c.isFirstPacketSent && decide (0 < c.recvWindowScale)
    then dtpAddOptionToHeader h optWinScale [c.recvWindowScale] else h

/-- The payload of the next packet: the whole key for a SYN, else as much as fits. -/
def writeLen (c : DtpContext) (flags : Flags) (len : ℤ) : ℤ :=
  if c.state = .synSent then c.keyLen else min len ((mtu : ℤ) - (c.writeHeader flags).padded)

/-- The packet that goes to the tail of the queue. -/
def writePkt (c : DtpContext) (flags : Flags) (len : ℤ) : DtpPkt :=
  let h := c.writeHeader flags
  { seqNum := c.lastByteSent, len := h.padded + c.writeLen flags len, headerLen := h.padded,
    header := h, isRetrans := false }

/-- The datagram handed to the network with it. -/
def writeDatagram (c : DtpContext) (flags : Flags) (len : ℤ) : Datagram :=
  mkDatagram (c.writeHeader flags)
    (peek c.writeBuf c.getWriteBufLastByteSentOff (c.writeLen flags len).toNat)

/-- Queue the next packet, without sending it. -/
def writeQueue (c : DtpContext) (flags : Flags) (len : ℤ) : DtpContext :=
  { c with
    packetQ := c.packetQ ++ [c.writePkt flags len]
    isSYNSent := c.isSYNSent || flags.syn
    isFirstPacketSent := true }

/-- One round of the loop: queue, send, advance. -/
def writeOne (c : DtpContext) (flags : Flags) (len : ℤ) : DtpContext :=
  { c.writeQueue flags len with
    wire := c.wire ++ [(c.peerAddr, c.writeDatagram flags len)]
    recvAnyData := false
    segSent := c.segSent + c.writeLen flags len
    lastByteSent := c.lastByteSent + u32 (c.writeLen flags len) }

/-- Flags after the first packet of a call. -/
def laterFlags (flags : Flags) : Flags := { flags with syn := false, ack := false, auth := false }

/-- The loop of `DTPWriteAvail`. Each round sends at least one byte, so `len`
rounds are enough. The flag is `false` when the call returned from inside. -/
def writeLoop (net : ℕ → Bool) : ℕ → ℕ → Flags → ℤ → DtpContext → DtpContext × Bool
  | 0, _, _, _, c => (c, true)
  | fuel + 1, k, flags, len, c =>
    if !c.writeGuard len then (c, true)
    else if !net k then (c.writeQueue flags len, false)
    else if c.state = .synSent then (c.writeOne flags len, true)
    else writeLoop net fuel (k + 1) (laterFlags flags) (len - c.writeLen flags len)
      (c.writeOne flags len)

/-- The SYN flag of this call. -/
def wantsSYN (c : DtpContext) : Bool := c.sendSYN && decide (c.state ≠ .established)

/-- The flags of the first packet of this call. -/
def writeFlags (c : DtpContext) : Flags :=
  { syn := c.wantsSYN, ack := (!c.wantsSYN && !c.isFirstDataSent) || c.recvAnyData, auth := c.isAUTHSent }

/-- The flags of a call are used up before its first packet. -/
def beginWrite (c : DtpContext) : DtpContext :=
  { c with isFirstDataSent := c.isFirstDataSent || !c.wantsSYN, isAUTHSent := false }

/-- `DTPWriteAvail` up to the end of its loop. -/
def writeFlush (net : ℕ → Bool) (c : DtpContext) : DtpContext × Bool :=
  if !c.isNetConnected || c.isCongested then (c, false)
  else if c.wantsSYN && c.isSYNSent then (c, false)
  else writeLoop net c.sendLen.toNat 0 c.writeFlags c.sendLen c.beginWrite

/-- The FIN decision at the end of `DTPWriteAvail`. -/
def wantsFIN (c : DtpContext) : Bool :=
  c.closeCalled && !c.isFINSent &&
    (c.isFINRcvd || decide (c.lastByteSent = c.lastByteWritten))

/-- `DTPWriteAvail`, with the socket accepting the datagrams `net` selects. -/
def dtpWriteAvailOn (net : ℕ → Bool) (c : DtpContext) : DtpContext :=
  let r := c.writeFlush net
  if r.2 && r.1.wantsFIN then r.1.dtpSendFINPacket else r.1

/-- `DTPWriteAvail`, with the socket accepting every datagram. -/
def dtpWriteAvail (c : DtpContext) : DtpContext := c.dtpWriteAvailOn fun _ => true

/-! ## Congestion window -/

def moveCongestionWindow (c : DtpContext) (acked : ℤ) : DtpContext :=
  let slow := decide (c.cwnd < c.ssthresh)
  let cwnd := if slow then c.cwnd + acked else c.cwnd
  let acked := if slow then acked - c.ssthresh else acked
  let cwnd := if 0 < acked then cwnd + (acked * mtu).tdiv cwnd else cwnd
  { c with cwnd := if c.writeBufLen < cwnd then c.writeBufLen else cwnd }

/-- Half the window, but at least one full packet. -/
def halvedWindow (c : DtpContext) : ℤ :=
  if c.cwnd.tdiv 2 < (mtu : ℤ) - hdrSize then (mtu : ℤ) - hdrSize else c.cwnd.tdiv 2

def congestionAvoidance (c : DtpContext) : DtpContext :=
  { c with ssthresh := c.halvedWindow, cwnd := c.halvedWindow + 3 * ((mtu : ℤ) - hdrSize) }

def timeoutSlowStart (c : DtpContext) : DtpContext :=
  { c with ssthresh := c.halvedWindow, cwnd := (mtu : ℤ) - hdrSize }

/-! ## Retransmission -/

/-- `DTPReconnect`. -/
def dtpReconnect (c : DtpContext) : DtpContext :=
  let c := { c with isNetConnected := true }
  match c.packetQ with
  | [] => c.dtpSendACKPacket
  | p :: _ => { c.dtpSlowStart with segSent := p.len }

/-- The datagram a queued packet is retransmitted as: its stored header, and its
bytes read from the write buffer as it is now. -/
def retransDatagram (c : DtpContext) (p : DtpPkt) : Datagram :=
  mkDatagram p.header (peek c.writeBuf (c.getWriteBufPacketSentOff p) p.payloadLen.toNat)

/-- `DTPRetransmit`: the context, and the packet as it stands in the queue after. -/
def dtpRetransmit (c : DtpContext) (p : DtpPkt) : DtpContext × DtpPkt :=
  let c := (c.assert (p.seqNum == p.header.hdr.seq)).send c.peerAddr (c.retransDatagram p)
  if !c.isNetConnected then (c.dtpReconnect, p) else (c, { p with isRetrans := true })

end Cedos.Dtp.DtpContext
