import Cedos.Dtp.Header

/-!
# The connection context

`struct dtp_context`, the packets of its retransmission queue, and the small
helpers of `dtp_transport.h`.

Fields keep their names without the `tc_` prefix. Left out are locks and
condition variables (every handler runs as one step), clocks and round-trip
estimates (a timer either has expired or not, and the environment says which),
traffic counters, and the scheduler's bookkeeping.

The four fields of `Host` are not in the source. `wire` is everything the context
has handed to `sendto` and `sendmsg`, oldest first; a datagram on it may be
delivered, lost, delayed or duplicated by the network. `fault` records that an `ASSERT` or `EXIT`
was reached, or that a pointer was used in a way the list model cannot follow;
the library as configured logs the former and carries on, and so does the model.
`localID` and `localPort` are what `DTPGenerateHostID` and `getsockname` return on
the context's host.
-/

namespace Cedos.Dtp

/-- The connection states. -/
inductive SockState
  | closed | listen | synRcvd | synSent | established
  | finWait1 | finWait2 | timeWait | closeWait | lastAck
  deriving DecidableEq, Repr, Inhabited

/-- `struct buffer`: one contiguous run of received bytes. -/
structure Buffer where
  seq : UInt32
  len : UInt32
  deriving DecidableEq, Repr, Inhabited

/-- `struct dtp_pkt`: a packet kept for retransmission. The payload stays in the
write buffer; `len` counts header and payload. -/
structure DtpPkt where
  seqNum : UInt32
  len : ℤ
  headerLen : ℤ
  header : HdrBuf
  isRetrans : Bool
  deriving DecidableEq, Repr, Inhabited

/-- `tp_len - tp_headerLen`. -/
def DtpPkt.payloadLen (p : DtpPkt) : ℤ := p.len - p.headerLen

/-- `tp_seqNum + tp_len - tp_headerLen`, in the packet's unsigned arithmetic. -/
def DtpPkt.stop (p : DtpPkt) : UInt32 := p.seqNum + u32 p.len - u32 p.headerLen

/-- The write buffer, its offsets, and the packets kept for retransmission. -/
structure SendSide where
  writeBuf : ℕ → UInt8 := fun _ => 0
  writeBufLen : ℤ := 0
  lastByteAcked : UInt32 := 0
  lastByteWritten : UInt32 := 0
  lastByteSent : UInt32 := 0
  packetQ : List DtpPkt := []

/-- The read buffer, its offsets, and the runs of bytes present in it. -/
structure RecvSide where
  readBuf : ℕ → UInt8 := fun _ => 0
  readBufHead : List Buffer := []
  readBufLen : ℤ := 0
  lastByteRead : UInt32 := 0
  nextByteExpected : UInt32 := 0
  lastByteRcvd : UInt32 := 0

/-- The window the peer has advertised. -/
structure PeerWindow where
  rcvWindow : UInt32 := 0
  isHerWindowZero : Bool := false
  persistIntvl : ℤ := 0
  sendWindowScale : UInt8 := 0

/-- The congestion window and what counts against it. -/
structure Congestion where
  isCongested : Bool := false
  cwnd : ℤ := 0
  ssthresh : ℤ := 0
  segSent : ℤ := 0
  numACKRcvd : ℤ := 0

/-- What the receiver announces and counts. -/
structure RecvControl where
  useWindowScale : Bool := false
  recvWindowScale : UInt8 := 0
  isMyWindowZero : Bool := false
  recvAnyData : Bool := false
  seqNum : UInt32 := 0
  numPacketRcvd : ℤ := 0
  blockSize : UInt32 := 0
  blockRemain : UInt32 := 0
  rcvLoBufHB : UInt32 := 0
  rcvLoBufLB : UInt32 := 0
  limitRcvBuf : Bool := false
  wifiAvailable : Bool := false

/-- Who the peer is and how it proves that. -/
structure Identity where
  key : List UInt8 := []
  peerAddr : SockAddr := default
  flowID : UInt32 := 0
  hostID : List UInt8 := List.replicate sha1DigestLength 0
  nonce : UInt32 := 0
  doingCHGRSP : Bool := false
  isAUTHSent : Bool := false

/-- The connection state and how the connection ends. -/
structure Lifecycle where
  state : SockState := .closed
  isActive : Bool := false
  closeCalled : Bool := false
  isFINSent : Bool := false
  isFINRcvd : Bool := false
  useLinger : Bool := false
  waitACK : Bool := false
  connTimedOut : Bool := false
  connReset : Bool := false
  onFlowIDMap : Bool := false

/-- One-shot flags and options of the opening. -/
structure Opening where
  keyLen : ℤ := 0
  sendSYN : Bool := false
  isSYNSent : Bool := false
  isFirstPacketSent : Bool := false
  isFirstDataSent : Bool := false
  deadline : ℤ := 0
  isDeadlineSet : Bool := false
  backlog : ℤ := 0
  /-- the connection queue; `tc_qidx` is its length -/
  listenQ : List ℕ := []

/-- What the socket calls and `select` see. -/
structure SocketSide where
  /-- `tc_fstatus & O_NONBLOCK` -/
  nonblock : Bool := false
  isReadBlocked : Bool := false
  isWriteBlocked : Bool := false
  /-- this socket's bit in `g_rfds` -/
  pendingRead : Bool := false
  /-- this socket's bit in `g_wfds` -/
  pendingWrite : Bool := false

/-- Whether the network is thought to be there. -/
structure Liveness where
  isNetConnected : Bool := false
  isACKInserted : Bool := false

/-- Whether the peer is thought to be there. -/
structure KeepAlive where
  isKeepAliveEnabled : Bool := false
  keepAliveProbes : ℤ := 0
  sentProbes : ℤ := 0

/-- The host's own identity, what has been sent, and whether a check has failed. -/
structure Host where
  localID : List UInt8 := List.replicate sha1DigestLength 0
  localPort : UInt16 := 0
  wire : List (SockAddr × Datagram) := []
  fault : Bool := false

/-- `struct dtp_context`. The groups are for the proofs: most functions leave most
of them alone. -/
structure DtpContext extends SendSide, RecvSide, PeerWindow, Congestion, RecvControl, Identity,
  Lifecycle, Opening, SocketSide, Liveness, KeepAlive, Host

namespace DtpContext

/-! ## Helpers of `dtp_transport.h` -/

/-- `GetWriteBufOff`. -/
def getWriteBufOff (c : DtpContext) : ℤ := i32 (c.lastByteWritten - c.lastByteAcked)

/-- `GetAvailWriteBufSize`. -/
def getAvailWriteBufSize (c : DtpContext) : ℤ := c.writeBufLen - c.getWriteBufOff

/-- `GetReadBufDataSize`. -/
def getReadBufDataSize (c : DtpContext) : ℤ := i32 (c.nextByteExpected - c.lastByteRead)

/-- `GetAvailReadBufSize`. -/
def getAvailReadBufSize (c : DtpContext) : UInt32 := u32 (c.readBufLen - c.getReadBufDataSize)

/-- The window a packet advertises: the free space shifted by the scale. -/
def advertisedWindow (c : DtpContext) : UInt32 :=
  c.getAvailReadBufSize >>> c.recvWindowScale.toUInt32

/-- `GetAckNumber`. -/
def getAckNumber (c : DtpContext) : UInt32 := c.nextByteExpected + (if c.isFINRcvd then 1 else 0)

/-- `GetWriteBufLastByteSentPtr`, as an offset into the write buffer. -/
def getWriteBufLastByteSentOff (c : DtpContext) : ℕ := (c.lastByteSent - c.lastByteAcked).toNat

/-- `GetWriteBufPacketSentPtr`, as an offset into the write buffer. -/
def getWriteBufPacketSentOff (c : DtpContext) (p : DtpPkt) : ℕ :=
  (p.seqNum - c.lastByteAcked).toNat

/-- `UseWindowScale`. -/
def useWindowScaleOf (c : DtpContext) (scale : UInt8) : DtpContext :=
  { c with
    useWindowScale := true
    recvWindowScale := if scale > maxWinscaleShift then maxWinscaleShift else scale }

/-- `ASSERT (cond)`: log and carry on. -/
def assert (c : DtpContext) (cond : Bool) : DtpContext := { c with fault := c.fault || !cond }

/-- `DTPSendPacket` when the socket accepts the datagram. -/
def send (c : DtpContext) (addr : SockAddr) (d : Datagram) : DtpContext :=
  { c with wire := c.wire ++ [(addr, d)] }

/-! ## Creation -/

/-- `DEF_READ_BUFLEN` and `DEF_WRITE_BUFLEN`. -/
def defBufLen : ℤ := 32 * 1024

/-- `DTPSlowStart`: the window is reset to the local buffer size and nothing
counts as in flight any more. -/
def dtpSlowStart (c : DtpContext) : DtpContext :=
  { c with
    numPacketRcvd := 0
    rcvWindow := u32 c.readBufLen
    isCongested := false
    cwnd := (mtu : ℤ) - hdrSize
    ssthresh := c.readBufLen
    segSent := 0 }

/-- `DTPCreateContext`: a zeroed context with default buffers and scale `4`. The
probe count and the probe interval are swapped in the source, so the number of
probes is `DTP_KEEPALIVE_INTVL`. -/
def dtpCreateContext : DtpContext :=
  dtpSlowStart <| useWindowScaleOf
    { isActive := true, isNetConnected := true, keepAliveProbes := 75,
      readBufLen := defBufLen, writeBufLen := defBufLen } 4

end DtpContext
end Cedos.Dtp
