import Cedos.Dtp.Ack

/-!
# Address changes

A packet of a known flow from an unknown address starts a challenge: `SendCHGPacket`
sends a nonce to the new address, the peer answers with `SendRSPPacket`, and
`HandleRSPPacket` moves the connection to the address the answer came from, announces
that with an AUTH packet and resumes the transfer from a slow start.

The keyed hash is a parameter `hmac`, a function of key and message. Its message is
the four bytes of `tc_nonce` as they lie in memory, on both sides.
-/

namespace Cedos.Dtp

/-- The bits of `dtp_pkt` that `HandleAUTHPacket` reads when it casts the packet itself,
not its header, to a header: the ACK flag is then bit 11 of `tp_len` (64-bit, little
endian). -/
def DtpPkt.castAckBit (p : DtpPkt) : Bool := p.len.toNat / 2048 % 2 == 1

def rstDatagram (localID : List UInt8) (fid : UInt32) : Datagram :=
  mkDatagram (dtpAddOptionToHeader (dtpGenerateHeader 0 0 fid { rst := true } 32768) optHostId localID)
    []

namespace DtpContext

def sendRSTPacket (c : DtpContext) (fid : UInt32) (addr : SockAddr) : DtpContext :=
  c.send addr (rstDatagram c.localID fid)

/-- A nonce of `0` is replaced by a random one. -/
def freshNonce (c : DtpContext) (rnd : UInt32) : DtpContext :=
  { c with nonce := if c.nonce = 0 then rnd else c.nonce }

/-- The header of CHG and RSP packets, which carry no sequence number. -/
def challengeHeader (c : DtpContext) (flags : Flags) : HdrBuf :=
  dtpGenerateHeader 0 0 c.flowID flags c.advertisedWindow

/-- `SendCHGPacket`; `rnd` is `rand () % MAX_INT + 1`. -/
def sendCHGPacket (c : DtpContext) (addr : SockAddr) (rnd : UInt32) : DtpContext :=
  let c := c.freshNonce rnd
  c.send addr (mkDatagram (c.challengeHeader { chg := true }) (bytes32 c.nonce))

def sendRSPPacket (hmac : List UInt8 → List UInt8 → List UInt8) (c : DtpContext) : DtpContext :=
  c.send c.peerAddr
    (mkDatagram (c.challengeHeader { rsp := true }) (hmac c.key (bytes32 c.nonce)))

/-- Note that an AUTH packet has been sent. -/
def markAUTHSent (c : DtpContext) : DtpContext := { c with isAUTHSent := true }

def sendAUTHPacket (c : DtpContext) : DtpContext :=
  (c.send c.peerAddr (mkDatagram
    (dtpGenerateHeader c.lastByteSent c.getAckNumber c.flowID { auth := true, ack := true }
      c.advertisedWindow) [])).markAUTHSent

/-- Note that a challenge is under way. -/
def markChallenge (c : DtpContext) : DtpContext := { c with doingCHGRSP := true }

def handleAddressChange (c : DtpContext) (addr : SockAddr) (rnd : UInt32) : DtpContext :=
  c.markChallenge.sendCHGPacket addr rnd

/-- The connection is given up with `ECONNRESET`. -/
def resetConnection (c : DtpContext) : DtpContext :=
  ({ c with connReset := true, state := .closed } : DtpContext).dtpReadBufWakeup.dtpWriteBufWakeup

/-- Take over the nonce of a CHG packet. -/
def storeNonce (c : DtpContext) (d : Datagram) : DtpContext := { c with nonce := word32 d.body 0 }

/-- `HandleCHGPacket`: answer the challenge; a challenge from an address that is not the
peer's also resets the connection. -/
def handleCHGPacket (hmac : List UInt8 → List UInt8 → List UInt8) (c : DtpContext) (d : Datagram)
    (addr : SockAddr) : DtpContext :=
  let c := if c.peerAddr ≠ addr then (c.sendRSTPacket d.hdr.fid addr).resetConnection else c
  (c.storeNonce d).sendRSPPacket hmac

/-- The response is the hash of the context's own nonce. -/
def validRSP (hmac : List UInt8 → List UInt8 → List UInt8) (c : DtpContext) (d : Datagram) : Bool :=
  peek d.body 0 sha1DigestLength == hmac c.key (bytes32 c.nonce)

/-- Move the connection to the address the response came from. -/
def adoptAddress (c : DtpContext) (addr : SockAddr) : DtpContext :=
  { c with doingCHGRSP := false, peerAddr := addr }

/-- Send from a slow start. -/
def resumeTransfer (c : DtpContext) : DtpContext :=
  c.dtpSlowStart.dtpWriteAvail.dtpWriteBufWakeup

/-- Retransmit the first packet of the queue. -/
def retransmitHead (c : DtpContext) : DtpContext :=
  match c.packetQ with
  | [] => c
  | p :: _ =>
    let r := c.dtpRetransmit p
    r.1.setHead r.2

def handleRSPPacket (hmac : List UInt8 → List UInt8 → List UInt8) (c : DtpContext) (d : Datagram)
    (addr : SockAddr) : DtpContext :=
  if !c.validRSP hmac d then
    if c.doingCHGRSP then c.sendRSTPacket d.hdr.fid addr else c
  else (c.adoptAddress addr).sendAUTHPacket.resumeTransfer.retransmitHead

def handleAUTHPacket (c : DtpContext) (addr : SockAddr) (rnd : UInt32) : DtpContext :=
  if c.peerAddr ≠ addr then c.handleAddressChange addr rnd
  else if c.isACKInserted then
    match c.packetQ with
    | [] => c.resumeTransfer.dtpSendACKPacket
    | p :: q =>
      if !p.castAckBit then c
      else ({ c with packetQ := q, isACKInserted := false } : DtpContext).resumeTransfer.dtpSendACKPacket
  else c.resumeTransfer.dtpSendACKPacket

end DtpContext
end Cedos.Dtp
