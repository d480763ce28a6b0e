import Cedos.Dtp.Challenge
import Cedos.Dtp.Socket
import Cedos.Dtp.Timer

/-!
# Batches of packets on one connection

`OnReadEvent` hands consecutive ACK and data packets of a flow to
`ProcessAggregatePackets` in one batch: the highest ACK number is handled first, then
the data packets in order, then one ACK is sent for all of them.
-/

namespace Cedos.Dtp

/-- `AdjPktInfo` without its context: the highest ACK number with the window that came
with it, and the packets. -/
structure AdjPktInfo where
  ack : Option (UInt32 × UInt16)
  pkts : List Datagram

namespace DtpContext

/-- One round of the packet loop of `ProcessAggregatePackets`: data is stored, and a
packet that is neither data nor ACK is a probe. -/
def processPacket (c : DtpContext) (d : Datagram) : DtpContext :=
  if 0 < getPayloadLen d then (c.handleNormalPacket d (u32 (getPayloadLen d))).1
  else if getPayloadLen d = 0 ∧ d.hdr.ack = false then c.dtpSendACKPacket
  else c

/-- The keep-alive timer starts afresh. -/
def clearProbes (c : DtpContext) : DtpContext := { c with sentProbes := 0 }

/-- The SYN has been answered by data. -/
def clearSendSYN (c : DtpContext) : DtpContext := { c with sendSYN := false }

/-- The answer to a batch with data in it. -/
def ackBatch (c : DtpContext) : DtpContext :=
  if c.state ≠ .closeWait ∧ c.state ≠ .synRcvd ∧ c.state ≠ .synSent then
    if c.sendSYN then c.clearSendSYN else c.dtpSendACKPacket
  else c

/-- Raise the read event when there is something to read. -/
def noteReadable (c : DtpContext) : DtpContext :=
  if 0 < c.getReadBufDataSize then c.dtpReadBufWakeup else c

def hasData (d : Datagram) : Bool := decide (0 < getPayloadLen d)

/-- The ACK part of a batch; in `TIME_WAIT` it is skipped. -/
def processACK (c : DtpContext) (ack : Option (UInt32 × UInt16)) : DtpContext :=
  match ack with
  | some (ackNum, window) => if c.state ≠ .timeWait then c.handleACKPacket ackNum window else c
  | none => c

/-- The packets of a batch, after its ACK. When the ACK has closed the context its locks
are gone, and the call returns at the first data packet. -/
def processData (c : DtpContext) (pkts : List Datagram) : DtpContext :=
  if c.isActive then
    let c := (pkts.foldl processPacket c).clearProbes
    if pkts.any hasData then c.ackBatch.noteReadable else c
  else
    let c := (pkts.takeWhile fun d => !hasData d).foldl processPacket c
    if pkts.any hasData then c else c.clearProbes

def processAggregatePackets (c : DtpContext) (p : AdjPktInfo) : DtpContext :=
  (c.processACK p.ack).processData p.pkts

end DtpContext
end Cedos.Dtp
