import Cedos.Dtp.Send

/-!
# Teardown

`DTPCloseContext`, `DTPCloseConnection` and `HandleFINPacket`.

`HandleFINPacket` decides by state whether the FIN is in order. In `ESTABLISHED` it
compares the FIN's sequence number with `tc_nextByteExpected`. In `FIN_WAIT_1` and
`FIN_WAIT_2` it compares the acknowledgement number with `tc_lastByteWritten`; only
when those differ does it look at the sequence number, and then in an `ASSERT`.
-/

namespace Cedos.Dtp.DtpContext

/-- `DTPReadBufWakeup`. -/
def dtpReadBufWakeup (c : DtpContext) : DtpContext := { c with pendingRead := true }

/-- `DTPWriteBufWakeup`. -/
def dtpWriteBufWakeup (c : DtpContext) : DtpContext := { c with pendingWrite := true }

/-- `DTPCloseContext`: wakes a lingering `dtp_close`, does nothing in `TIME_WAIT`,
and otherwise releases the buffers and the socket. -/
def dtpCloseContext (c : DtpContext) : DtpContext :=
  if !c.isActive then c.assert false
  else if c.waitACK then c
  else if c.state = .timeWait then c
  else
    { c with
      readBufHead := []
      isActive := false
      closeCalled := false
      onFlowIDMap := false
      pendingRead := false
      pendingWrite := false }

/-- `DTPCloseConnection`: the keep-alive probes ran out. -/
def dtpCloseConnection (c : DtpContext) : DtpContext :=
  let c : DtpContext := { c with connTimedOut := true, pendingRead := true, pendingWrite := true
                                 state := .closed }
  c.dtpReadBufWakeup.dtpWriteBufWakeup

/-- States in which `HandleFINPacket` ignores a FIN. -/
def ignoresFIN (c : DtpContext) : Bool :=
  c.state == .closed || c.state == .listen || c.state == .synRcvd || c.state == .synSent

/-- `FIN_WAIT_1` or `FIN_WAIT_2`. -/
def inFinWait (c : DtpContext) : Bool := c.state == .finWait1 || c.state == .finWait2

/-- The acknowledgement numbers accepted besides `tc_lastByteWritten`: the FIN that a
timeout took back, and everything but the FIN. -/
def nearbyAck (c : DtpContext) (ackNum : UInt32) : Bool :=
  ackNum == c.lastByteWritten + 1 || (ackNum == c.lastByteWritten - 1 && c.isFINSent)

/-- The peer's FIN is in. -/
def noteFIN (c : DtpContext) : DtpContext :=
  { c with isFINRcvd := true, pendingRead := true
           state := if c.state = .established then .closeWait else c.state }

/-- Free the first packet of the queue, which is taken to be the FIN. -/
def freeFirst (c : DtpContext) : DtpContext :=
  match c.packetQ with
  | [] => c.assert false
  | _ :: q => { c with packetQ := q }

/-- From `FIN_WAIT_1` or `FIN_WAIT_2` to `TIME_WAIT`. -/
def enterTimeWait (c : DtpContext) : DtpContext :=
  let c := if c.state = .finWait1 then c.freeFirst else c
  ({ c with state := .timeWait } : DtpContext).dtpCloseContext

/-- What `HandleFINPacket` does once the FIN is accepted. -/
def acceptFIN (c : DtpContext) : DtpContext :=
  let c := c.dtpSendACKPacket.noteFIN
  if c.state = .closeWait then c.dtpReadBufWakeup.dtpWriteBufWakeup
  else if c.inFinWait then c.enterTimeWait
  else c

def handleFINPacket (c : DtpContext) (h : DtpHdr) : DtpContext :=
  if c.ignoresFIN then c
  else if c.inFinWait && h.ackSeq != c.lastByteWritten then
    if !c.nearbyAck h.ackSeq then c
    else ((c.assert c.closeCalled).assert (h.seq == c.nextByteExpected)).acceptFIN
  else if c.state = .established ∧ h.seq ≠ c.nextByteExpected then c
  else c.acceptFIN

end Cedos.Dtp.DtpContext
