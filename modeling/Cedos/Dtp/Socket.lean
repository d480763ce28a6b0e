import Cedos.Dtp.Close
import Cedos.Dtp.Receive

/-!
# Socket calls on a connection

`dtp_send`, `dtp_recv` and `dtp_close`. A call that waits on a condition variable
is split there: `CallResult.blocked` is the state in which the thread sleeps, and
`dtpSendWake`, `dtpRecvWake` and `dtpCloseWake` are what it does when it is woken.
-/

namespace Cedos.Dtp

/-- The error codes the calls set. -/
inductive Errno
  | ebadf | epipe | econnreset | etimedout | eagain | einval | enomem | enoprotoopt
  deriving DecidableEq, Repr

/-- What a socket call does for its caller. -/
inductive CallResult (α : Type)
  | done (value : α)
  | error (e : Errno)
  | blocked
  deriving DecidableEq, Repr

/-- States in which the peer takes no more data or the connection is gone. -/
def SockState.isClosing : SockState → Bool
  | .closeWait | .lastAck | .closed | .finWait1 | .finWait2 | .timeWait => true
  | _ => false

/-- States in which a drained or full buffer leaves its event bit alone. -/
def SockState.keepsEvent : SockState → Bool
  | .closeWait | .lastAck | .finWait1 | .finWait2 | .timeWait => true
  | _ => false

/-- `__min (length, n)` for a `size_t` and an `int`: a negative `int` converts to a
huge `size_t`. -/
def minSize (length : ℕ) (n : ℤ) : ℤ :=
  if n < 0 then i32 (UInt32.ofNat length) else min (length : ℤ) n

/-- The list without the first `n` bytes of its first node. -/
def dropFront (n : UInt32) : List Buffer → List Buffer
  | [] => []
  | b :: rest => if b.len - n = 0 then rest else ⟨b.seq + n, b.len - n⟩ :: rest

namespace DtpContext

/-! ## `dtp_send` -/

/-- Copy the accepted prefix into the write buffer. -/
def copyBytes (c : DtpContext) (data : List UInt8) (len : ℤ) : DtpContext :=
  { c with
    writeBuf := blit c.writeBuf c.getWriteBufOff.toNat (fun i => data.getD i 0) len.toNat
    lastByteWritten := c.lastByteWritten + u32 len }

/-- Adjust the write event when the buffer is full. -/
def noteFull (c : DtpContext) : DtpContext :=
  if c.getAvailWriteBufSize = 0 ∧ c.state.keepsEvent = false then { c with pendingWrite := false }
  else c

/-- Take the accepted prefix and try to send. -/
def acceptBytes (c : DtpContext) (data : List UInt8) (len : ℤ) : DtpContext :=
  (c.copyBytes data len).noteFull.dtpWriteAvail

/-- `dtp_send` from its waiting loop on; the value is the number of bytes accepted. -/
def sendBody (c : DtpContext) (data : List UInt8) : DtpContext × CallResult ℤ :=
  let len := minSize data.length c.getAvailWriteBufSize
  if len = 0 then
    if c.state.isClosing then (c, .error .epipe)
    else if c.connTimedOut then (c, .error .etimedout)
    else if c.connReset then (c, .error .econnreset)
    else if c.nonblock then (c, .error .eagain)
    else ({ c with isWriteBlocked := true }, .blocked)
  else if 0 < len then (c.acceptBytes data len, .done len)
  else (c, .done len)

def dtpSend (c : DtpContext) (data : List UInt8) : DtpContext × CallResult ℤ :=
  if !c.isActive then (c, .error .ebadf)
  else if data.length = 0 then (c, .done 0)
  else if c.state.isClosing then (c, .error .epipe)
  else if c.connReset then (c, .error .econnreset)
  else c.sendBody data

def dtpSendWake (c : DtpContext) (data : List UInt8) : DtpContext × CallResult ℤ :=
  ({ c with isWriteBlocked := false } : DtpContext).sendBody data

/-! ## `dtp_recv` -/

/-- Take `len` bytes off the first node of the list, and the node itself if it is
drained. -/
def dropHead (c : DtpContext) (len : ℤ) : DtpContext :=
  { c with readBufHead := dropFront (u32 len) c.readBufHead }

/-- The same with the checks around it. -/
def consumeHead (c : DtpContext) (len : ℤ) : DtpContext :=
  match c.readBufHead with
  | [] => c.assert false
  | b :: _ =>
    if b.len - u32 len = 0 then (c.dropHead len).assert (c.dropHead len).headMatches
    else c.dropHead len

/-- Move the read position. -/
def advanceRead (c : DtpContext) (len : ℤ) : DtpContext :=
  { c with lastByteRead := c.lastByteRead + u32 len }

/-- Move what has been received beyond the consumed bytes to the front. -/
def slideReadBuf (c : DtpContext) (len : ℤ) : DtpContext :=
  let moveLen := i32 (c.lastByteRcvd - c.lastByteRead)
  if 0 < moveLen then { c with readBuf := move c.readBuf 0 len.toNat moveLen.toNat } else c

/-- Adjust the read event when nothing is left to read. -/
def noteDrained (c : DtpContext) : DtpContext :=
  if c.getReadBufDataSize = 0 then
    if c.isFINRcvd then { c with pendingRead := true }
    else if c.state.keepsEvent then c else { c with pendingRead := false }
  else c

/-- Announce that the window, once advertised as zero, is open again. -/
def reopenWindow (c : DtpContext) : DtpContext :=
  if c.isMyWindowZero ∧ 0 < c.advertisedWindow then
    ({ c with isMyWindowZero := false } : DtpContext).dtpSendACKPacket
  else c

/-- Count the bytes against the block being transferred. -/
def chargeBlock (c : DtpContext) (len : ℤ) : DtpContext :=
  { c with blockRemain := c.blockRemain - u32 len }

/-- The part of `dtp_recv` that a peek skips. -/
def consume (c : DtpContext) (len : ℤ) : DtpContext :=
  ((((c.advanceRead len).consumeHead len).slideReadBuf len).noteDrained.reopenWindow).chargeBlock len

/-- The check before the copy: the data is the first node. -/
def headHolds (c : DtpContext) (len : ℤ) : Bool :=
  match c.readBufHead with
  | [] => false
  | b :: _ => c.lastByteRead == b.seq && decide (u32 len ≤ b.len)

/-- `dtp_recv` from its waiting loop on. `woken` is whether it has waited, since the
source makes one more check then. -/
def recvBody (c : DtpContext) (length : ℕ) (msgPeek woken : Bool) :
    DtpContext × CallResult (List UInt8) :=
  let len := minSize length c.getReadBufDataSize
  let c := c.assert (!(woken && decide (0 < len) && decide (c.state = .closeWait)))
  if len = 0 then
    if c.state.isClosing then (c, .done [])
    else if c.nonblock then (c, .error .eagain)
    else ({ c with isReadBlocked := true }, .blocked)
  else if 0 < len then
    let c := c.assert (c.headHolds len)
    let bytes := peek c.readBuf 0 len.toNat
    if msgPeek then (c, .done bytes) else (c.consume len, .done bytes)
  else (c, .done [])

def dtpRecv (c : DtpContext) (length : ℕ) (msgPeek : Bool) :
    DtpContext × CallResult (List UInt8) :=
  if !c.isActive then (c, .error .ebadf)
  else if c.connTimedOut then (c, .error .etimedout)
  else if c.connReset then (c, .error .econnreset)
  else if length = 0 then (c, .done [])
  else c.recvBody length msgPeek false

def dtpRecvWake (c : DtpContext) (length : ℕ) (msgPeek : Bool) :
    DtpContext × CallResult (List UInt8) :=
  let c := { c with isReadBlocked := false }
  if c.connTimedOut then (c, .error .etimedout)
  else if c.connReset then (c, .error .econnreset)
  else c.recvBody length msgPeek true

/-! ## `dtp_close` -/

/-- `dtp_close`; with the linger option it waits for the teardown. -/
def dtpClose (c : DtpContext) : DtpContext × CallResult Unit :=
  if !c.isActive then (c, .error .ebadf)
  else
    let c := { c with closeCalled := true }
    if c.state ≠ .closed ∧ c.connReset = false then
      let c := c.dtpWriteAvail
      if c.useLinger then ({ c with waitACK := true }, .blocked) else (c, .done ())
    else if c.useLinger then (c.dtpCloseContext, .done ())
    else (c, .done ())

/-- The option is looked at again after the wait. -/
def dtpCloseWake (c : DtpContext) : DtpContext × CallResult Unit :=
  let c := { c with waitACK := false }
  (if c.useLinger then c.dtpCloseContext else c, .done ())

end DtpContext
end Cedos.Dtp
