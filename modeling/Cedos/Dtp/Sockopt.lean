import Cedos.Dtp.Socket

/-!
# Socket options

`dtp_setsockopt`. The buffer options do not look at the data in the buffer they resize, and
`DTP_SO_DEADLINE` stores the value it is given before it checks it. Two options take the
context out of the retransmission queue and put it back; the flag of the result says so.

The times of `DTP_KEEPIDLE` and `DTP_KEEPINTVL` and the interface choice of
`DTP_SO_WIFIONLY` are not part of the context here.
-/

namespace Cedos.Dtp

/-- The options of `dtp_setsockopt` with their values. -/
inductive SockOpt
  | acceptConn
  | rcvBuf (n : ℤ)
  | sndBuf (n : ℤ)
  | keepAlive (n : ℤ)
  | keepIdle
  | keepIntvl
  | keepCnt (n : ℤ)
  | linger (n : ℤ)
  | bindToDevice
  | blockSize (n : UInt32)
  | deadline (n : ℤ)
  | wifiOnly
  | rcvLoBuf (high low : UInt32)
  | nodelay
  | other
  deriving DecidableEq, Repr

/-- What the call depends on besides the option. -/
structure SockoptEnv where
  /-- `optlen` is the size of the option's value -/
  lenOk : Bool
  /-- `realloc` succeeds -/
  alloc : Bool
  /-- the result of the kernel's `setsockopt` -/
  kernel : CallResult Unit

/-- The value has its own size; the others take what they get. -/
def SockOpt.checksLen : SockOpt → Bool
  | .acceptConn | .bindToDevice | .nodelay | .other => false
  | _ => true

namespace DtpContext

/-- `DTP_SO_RCVBUF` after its checks. -/
def setReadBufLen (c : DtpContext) (n : ℤ) : DtpContext := { c with readBufLen := n }

/-- `DTP_SO_SNDBUF`: twice the value. -/
def setWriteBufLen (c : DtpContext) (n : ℤ) : DtpContext := { c with writeBufLen := i32 (u32 (2 * n)) }

/-- `DTP_SO_BLOCKSIZE`: another block is to be transferred. -/
def addBlock (c : DtpContext) (n : UInt32) : DtpContext :=
  { c with
    blockSize := n
    blockRemain := c.blockRemain + n
    isDeadlineSet := c.isDeadlineSet || decide (0 < c.deadline ∧ 0 < n) }

/-- `DTP_SO_DEADLINE`; the flag is `false` for `EINVAL`. -/
def setDeadline (c : DtpContext) (n : ℤ) : DtpContext × Bool :=
  let c := { c with deadline := n }
  if 0 < n ∧ 0 < c.blockSize then ({ c with isDeadlineSet := true }, true)
  else (c, decide (n = 0))

/-- The cases of `dtp_setsockopt`: the context, the result, and whether the context has been
taken out of the retransmission queue and put back. -/
def setOption (c : DtpContext) (env : SockoptEnv) : SockOpt → DtpContext × CallResult Unit × Bool
  | .acceptConn => (c, .error .einval, false)
  | .rcvBuf n =>
    -- the comparison is unsigned
    if u32 n < c.rcvLoBufHB then (c, .error .einval, false)
    else (c.setReadBufLen n, if env.alloc then .done () else .error .enomem, false)
  | .sndBuf n => (c.setWriteBufLen n, if env.alloc then .done () else .error .enomem, false)
  | .keepAlive n => ({ c with isKeepAliveEnabled := decide (n ≠ 0) }, .done (), false)
  | .keepIdle => (c, .done (), false)
  | .keepIntvl => (c, .done (), false)
  | .keepCnt n => ({ c with keepAliveProbes := n }, .done (), false)
  | .linger n => ({ c with useLinger := decide (n ≠ 0) }, .done (), false)
  | .bindToDevice => (c, env.kernel, false)
  | .blockSize n => (c.addBlock n, .done (), true)
  | .deadline n =>
    let r := c.setDeadline n
    (r.1, if r.2 then .done () else .error .einval, r.2)
  | .wifiOnly => (c, .done (), false)
  | .rcvLoBuf high low =>
    if u32 c.readBufLen < high ∨ high ≤ low then (c, .error .einval, false)
    else ({ c with rcvLoBufHB := high, rcvLoBufLB := low }, .done (), false)
  | .nodelay => (c, .done (), false)
  | .other => (c, .error .enoprotoopt, false)

def dtpSetsockopt (c : DtpContext) (o : SockOpt) (env : SockoptEnv) :
    DtpContext × CallResult Unit × Bool :=
  if !c.isActive then (c, .error .ebadf, false)
  else if o.checksLen && !env.lenOk then (c, .error .einval, false)
  else c.setOption env o

/-- What `dtp_setsockopt` can do to the context. -/
inductive Adjusts (c : DtpContext) : SockOpt → DtpContext → Prop
  | same (o : SockOpt) : Adjusts c o c
  | readLen (n : ℤ) : Adjusts c (.rcvBuf n) (c.setReadBufLen n)
  | writeLen (n : ℤ) : Adjusts c (.sndBuf n) (c.setWriteBufLen n)
  | marks (high low : UInt32) :
      Adjusts c (.rcvLoBuf high low) { c with rcvLoBufHB := high, rcvLoBufLB := low }
  | block (n : UInt32) : Adjusts c (.blockSize n) (c.addBlock n)
  | tune (o : SockOpt) (alive linger set : Bool) (probes deadline : ℤ) :
      Adjusts c o { c with isKeepAliveEnabled := alive, useLinger := linger, isDeadlineSet := set
                           keepAliveProbes := probes, deadline := deadline }

theorem adjusts_dtpSetsockopt (c : DtpContext) (o : SockOpt) (env : SockoptEnv) :
    Adjusts c o (c.dtpSetsockopt o env).1 := by
  simp only [dtpSetsockopt]
  split_ifs
  · exact .same o
  · exact .same o
  · cases o with
    | rcvBuf n =>
      rw [setOption]
      by_cases hlow : u32 n < c.rcvLoBufHB
      · rw [if_pos hlow]
        exact .same _
      · rw [if_neg hlow]
        exact .readLen n
    | sndBuf n => exact .writeLen n
    | deadline n =>
      simp only [setOption, setDeadline]
      split_ifs <;> exact .tune ..
    | rcvLoBuf high low =>
      simp only [setOption]
      split_ifs
      · exact .same _
      · exact .marks high low
    | blockSize n => exact .block n
    | keepAlive _ | keepCnt _ | linger _ => exact .tune ..
    | _ => exact .same _

/-- The state and the entry of the flow-ID map stay. -/
theorem dtpSetsockopt_frame (c : DtpContext) (o : SockOpt) (env : SockoptEnv) :
    (c.dtpSetsockopt o env).1.onFlowIDMap = c.onFlowIDMap ∧
      (c.dtpSetsockopt o env).1.flowID = c.flowID ∧ (c.dtpSetsockopt o env).1.state = c.state := by
  have h := adjusts_dtpSetsockopt c o env
  generalize (c.dtpSetsockopt o env).1 = c' at h ⊢
  cases h <;> exact ⟨rfl, rfl, rfl⟩

end DtpContext
end Cedos.Dtp
