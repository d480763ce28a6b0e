import Cedos.Dtp.Ack

/-!
# The timer pass

`HandleTimeout` for one context of the retransmission queue. Which of the timers have
expired is up to the environment: `TimerEnv` answers every comparison with the clock,
for the packets by their position in the queue when the pass begins.

The source frees a packet one round late; nothing looks at the queue in between, so
the loop frees it at once.
-/

namespace Cedos.Dtp

/-- The outcome of every comparison with the clock in one pass. -/
structure TimerEnv where
  /-- the `TIME_WAIT` period is over -/
  waitExpired : Bool
  keepAliveExpired : Bool
  persistExpired : Bool
  /-- the proxy address parses and `dtp_setiface` succeeds -/
  ifaceSet : Bool
  /-- the packet has waited for the retransmission timeout -/
  expired : ℕ → Bool
  /-- the packet has waited for `LAST_TIMEOUT` -/
  lastExpired : ℕ → Bool

def persistMax : ℤ := 60

namespace DtpContext

/-- Take a packet out of the queue, leaving `q`. -/
def prunePacket (c : DtpContext) (p : DtpPkt) (q : List DtpPkt) : DtpContext :=
  { c with packetQ := q, segSent := c.segSent - p.payloadLen }

def setQueue (c : DtpContext) (q : List DtpPkt) : DtpContext := { c with packetQ := q }

/-- A FIN sent after the packet that timed out counts as not sent. -/
def unsendFIN (c : DtpContext) (p : DtpPkt) : DtpContext :=
  if c.isFINSent && !p.header.hdr.fin then
    { c with lastByteWritten := c.lastByteWritten - 1, isFINSent := false }
  else c

/-- The packet timed out: fall back to it. -/
def fallBack (c : DtpContext) (p : DtpPkt) : DtpContext :=
  (({ c with isCongested := true, lastByteSent := p.stop } : DtpContext).unsendFIN p).timeoutSlowStart

/-- States in which a timed-out packet is sent again. -/
def retransmits (c : DtpContext) : Bool :=
  c.state == .synSent || c.state == .established || c.state == .closeWait ||
    c.state == .finWait1 || c.state == .lastAck

/-- The last branch of the packet loop; the pair is as in `dtpRetransmit`. -/
def timeoutPacket (c : DtpContext) (p : DtpPkt) : DtpContext × DtpPkt :=
  let p' : DtpPkt := if c.isNetConnected then { p with isRetrans := true } else p
  let c := if c.isNetConnected then c.fallBack p else c
  if c.retransmits then c.dtpRetransmit p' else (c, p')

/-- The packet loop, with the packets already passed and kept, and those still ahead.
The flag says that the context is to be closed. -/
def timeoutLoop (env : TimerEnv) :
    ℕ → List DtpPkt → List DtpPkt → DtpContext → DtpContext × Bool
  | _, _, [], c => (c, false)
  | i, kept, p :: q, c =>
    if c.isCongested && !p.isRetrans then
      timeoutLoop env (i + 1) kept q (c.prunePacket p (kept ++ q))
    else if c.state = .lastAck ∧ env.lastExpired i then (c.prunePacket p (kept ++ q), true)
    else if !env.expired i then (c, false)
    else
      let r := c.timeoutPacket p
      timeoutLoop env (i + 1) (kept ++ [r.2]) q (r.1.setQueue (kept ++ r.2 :: q))

/-- Close the context at the end of the pass. -/
def expire (c : DtpContext) : DtpContext :=
  ({ c with state := .closed } : DtpContext).dtpCloseContext

def countProbe (c : DtpContext) : DtpContext := { c with sentProbes := c.sentProbes + 1 }

/-- The keep-alive timer matters and has expired. -/
def keepAliveDue (c : DtpContext) (env : TimerEnv) : Bool :=
  c.isKeepAliveEnabled && !(c.isDeadlineSet && decide (0 < c.deadline)) && env.keepAliveExpired

/-- Change the interface when the read buffer crosses a mark (`DTP_SO_RCVLOBUF`). -/
def switchInterface (c : DtpContext) (env : TimerEnv) : DtpContext :=
  if c.state = .established ∧ 0 < c.rcvLoBufHB ∧ env.ifaceSet then
    if c.limitRcvBuf then
      if c.wifiAvailable ∧ c.rcvLoBufHB < u32 c.getReadBufDataSize then
        ({ c with limitRcvBuf := false } : DtpContext).dtpReconnect
      else c
    else if c.wifiAvailable = false ∨ u32 c.getReadBufDataSize < c.rcvLoBufLB then
      ({ c with limitRcvBuf := true } : DtpContext).dtpReconnect
    else c
  else c

/-- Double the persist interval. -/
def backOffPersist (c : DtpContext) : DtpContext :=
  { c with persistIntvl := min (2 * c.persistIntvl) persistMax }

/-- Probe a zero window. -/
def persistProbe (c : DtpContext) (env : TimerEnv) : DtpContext :=
  if c.isHerWindowZero && env.persistExpired then c.dtpSendProbePacket.backOffPersist else c

/-- The part of the pass that concerns the packet queue. -/
def timeoutQueue (c : DtpContext) (env : TimerEnv) : DtpContext :=
  let r := timeoutLoop env 0 [] c.packetQ c
  if r.2 then r.1.expire else r.1

def handleTimeout (c : DtpContext) (env : TimerEnv) : DtpContext :=
  if c.state = .timeWait then if env.waitExpired then c.expire else c
  else if c.keepAliveDue env ∧ ¬c.sentProbes < c.keepAliveProbes then c.dtpCloseConnection
  else
    let c := if c.keepAliveDue env then c.dtpSendProbePacket.countProbe else c
    ((c.switchInterface env).persistProbe env).timeoutQueue env

end DtpContext
end Cedos.Dtp
