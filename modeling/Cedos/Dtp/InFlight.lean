import Cedos.Dtp.Flush
import Cedos.Dtp.SendProgress
import Cedos.Dtp.Sockopt

/-!
# What counts as in flight

`tc_segSent` is a running count of the payload in the packet queue. `DTPWriteAvail` adds to it,
`RemovePacket` and the timeout take off it what they take out of the queue, and the congestion
window is compared with it.

Three places do not keep the count. `DTPSlowStart` clears it with packets in the queue;
`DTPReconnect` then sets it to the whole length, header included, of the first of them; and the
places that free the first packet because it must be the FIN do not look whether it is.
-/

namespace Cedos.Dtp

open DtpContext

/-- What can happen to a context. -/
inductive ConnEvent
  | own (e : Event)
  /-- a SYN of the flow, with the host ID found in it -/
  | syn (d : Datagram) (addr : SockAddr) (hid key : List UInt8) (pad : ℕ)
  | option (o : SockOpt) (env : SockoptEnv)

namespace ConnEvent

/-- The callers' checks. -/
def offered (c : DtpContext) : ConnEvent → Prop
  | .own e => e.offered c
  | .syn d _ _ _ _ => c.onFlowIDMap = true ∧ d.hdr.fid = c.flowID
  | .option _ _ => True

/-- What it does. -/
def apply (k : Crypto) (c : DtpContext) : ConnEvent → DtpContext
  | .own e => e.apply k c
  | .syn d addr hid key pad => c.repeatSYN k.toRsa d addr hid key pad
  | .option o env => (c.dtpSetsockopt o env).1

def kinds : ConnEvent → List ActKind
  | .own e => e.kinds
  | .syn _ _ _ _ _ => [.address, .note, .key, .rst]
  | .option _ _ => [.resize, .tune, .marks]

end ConnEvent

theorem Acts.conn (k : Crypto) (c : DtpContext) (e : ConnEvent) : Acts e.kinds c (e.apply k c) := by
  cases e with
  | own e => exact Acts.apply k c e
  | syn d addr hid key pad => exact Acts.repeatSYN c k.toRsa d addr hid key pad
  | option o env => exact Acts.dtpSetsockopt c o env

/-- `switchInterface` calls `DTPReconnect`. -/
def DtpContext.reconnects (c : DtpContext) (env : TimerEnv) : Bool :=
  decide (c.state = .established) && decide (0 < c.rcvLoBufHB) && env.ifaceSet &&
    if c.limitRcvBuf then c.wifiAvailable && decide (c.rcvLoBufHB < u32 c.getReadBufDataSize)
    else !c.wifiAvailable || decide (u32 c.getReadBufDataSize < c.rcvLoBufLB)

/-- The first packet of the queue, which is about to be freed, carries no data. -/
def DtpContext.freesFIN (c : DtpContext) : Prop := ∀ p ∈ c.packetQ.head?, p.payloadLen = 0

/-- An address change and a new interface find nothing in flight, and where the first packet is
taken for the FIN, or for the only packet, it is. -/
def ConnEvent.KeepsCount (k : Crypto) (c : DtpContext) : ConnEvent → Prop
  | .own (.rsp d _) => c.validRSP k.hmac d = true → queueLen c.packetQ = 0
  | .own (.auth addr _) => c.peerAddr = addr → queueLen c.packetQ = 0
  | .own (.timeout env) => c.reconnects env = true → c.packetQ = []
  | .own (.fin _) => c.state = .finWait1 → c.freesFIN
  | .own (.rst _ _ _) => (c.state = .lastAck → c.freesFIN) ∧ (c.state = .synSent → queueLen c.packetQ.tail = 0)
  | _ => True

def connection (k : Crypto) (c₀ : DtpContext) : Machine DtpContext ConnEvent where
  init c := c = c₀
  allowed c e := e.offered c
  apply c e := e.apply k c

/-- The count of bytes in flight is right. In this build the network is always taken to be there,
and no ACK is ever put into the queue. -/
structure Accounted (c : DtpContext) : Prop where
  count : c.segSent = queueLen c.packetQ
  connected : c.isNetConnected = true
  ackInserted : c.isACKInserted = false

/-- The fields it is about. -/
structure FlightView extends Liveness where
  segSent : ℤ
  packetQ : List DtpPkt

def DtpContext.flightView (c : DtpContext) : FlightView where
  toLiveness := c.toLiveness
  segSent := c.segSent
  packetQ := c.packetQ

namespace Accounted
variable {c c' : DtpContext} {p : DtpPkt} {q : List DtpPkt} {a : UInt32} (h : Accounted c)
include h

/-- Some packets leave the queue, and the count loses what they carry. -/
theorem take {x : ℤ} (hl : c'.toLiveness = c.toLiveness) (hs : c'.segSent = c.segSent - x)
    (hq : queueLen c'.packetQ = queueLen c.packetQ - x) : Accounted c' := by
  refine ⟨?_, ?_, ?_⟩
  · rw [hs, hq, h.count]
  · rw [congrArg Liveness.isNetConnected hl, h.connected]
  · rw [congrArg Liveness.isACKInserted hl, h.ackInserted]

theorem of_view (hv : c'.flightView = c.flightView) : Accounted c' := by
  rcases FlightView.mk.inj hv with ⟨hl, hs, hq⟩
  exact h.take (x := 0) hl (by rw [hs, sub_zero]) (by rw [hq, sub_zero])

/-! ## Acts -/

/-- The acts that do not keep the count by themselves. -/
def lossy : List ActKind := [.slowStart, .switch, .dropFirst, .dropLast, .retry]

theorem of_act {k : ActKind} (ha : Act k c c') (hk : k ∉ lossy) : Accounted c' := by
  cases ha with
  | data =>
    rename_i flags len _ _ _ _ _ _ _
    refine ⟨?_, h.connected, h.ackInserted⟩
    change c.segSent + c.writeLen flags len = queueLen (c.packetQ ++ [c.writePkt flags len])
    simp [payloadLen_writePkt, h.count]
  | fin =>
    refine ⟨?_, h.connected, h.ackInserted⟩
    change c.segSent = queueLen (c.packetQ ++ [c.finPkt])
    simp [h.count, finPkt, DtpPkt.payloadLen]
  | acked _ a =>
    refine h.take rfl (segSent_removePacket _ a) ?_
    rw [packetQ_removePacket]
    exact removed_cutQueue a c.packetQ
  | mark hq =>
    refine h.take rfl (x := 0) (sub_zero _).symm ?_
    simp [hq, setQueue, DtpPkt.payloadLen]
  | prune hq hold =>
    rename_i kept q p
    refine h.take rfl rfl ?_
    change queueLen (kept ++ q) = queueLen c.packetQ - p.payloadLen
    simp only [hq, queueLen_append, queueLen_cons]
    omega
  | fallBack =>
    rw [fallBack, unsendFIN]
    split_ifs <;> exact h.of_view rfl
  | reconnect hnet => exact absurd (h.connected.symm.trans hnet) (by decide)
  | dropACK hins => exact absurd (h.ackInserted.symm.trans hins) (by decide)
  | released =>
    simp only [DtpContext.dtpCloseContext]
    split_ifs <;> exact h.of_view rfl
  | slowStart | switch | dropFirst | dropLast | retry => exact absurd (by decide) hk
  | _ => exact h.of_view rfl

theorem of_acts {K : List ActKind} (ha : Acts K c c')
    (hK : ∀ k ∈ K, k ∉ lossy) : Accounted c' :=
  ha.invariant (fun k hk _ _ ha h => h.of_act ha (hK k hk)) h

/-! ## Timeouts -/

theorem switchInterface {env : TimerEnv}
    (hsw : c.reconnects env = true → c.packetQ = []) : Accounted (c.switchInterface env) := by
  have hempty (b : Bool) (hq : c.packetQ = []) :
      Accounted ({ c with limitRcvBuf := b } : DtpContext).dtpReconnect := by
    simp only [dtpReconnect, hq]
    exact ⟨h.count, rfl, h.ackInserted⟩
  simp only [DtpContext.switchInterface]
  split_ifs with hon hlim hup hdown
  · exact hempty _ (hsw (by simp [reconnects, hon, hlim, hup]))
  · exact h
  · refine hempty _ (hsw ?_)
    rcases hdown with hw | hlow
    · simp [reconnects, hon, hlim, hw]
    · simp [reconnects, hon, hlim, hlow]
  · exact h
  · exact h

theorem handleTimeout {env : TimerEnv}
    (hsw : c.reconnects env = true → c.packetQ = []) : Accounted (c.handleTimeout env) := by
  have hrest : ∀ c : DtpContext, Accounted c → (c.reconnects env = true → c.packetQ = []) →
      Accounted (((c.switchInterface env).persistProbe env).timeoutQueue env) := by
    intro c h hsw
    exact ((h.switchInterface hsw).of_acts (.persistProbe _ env) (by decide)).of_acts (.timeoutQueue _ env) (by decide)
  simp only [DtpContext.handleTimeout]
  split_ifs
  · exact h.of_acts (.expire c) (by decide)
  · exact h
  · exact h.of_view rfl
  · refine hrest c.dtpSendProbePacket.countProbe ?_ hsw
    exact h.of_view rfl
  · exact hrest c h hsw

/-! ## Address changes -/

/-- A slow start with nothing in flight. -/
theorem resumeTransfer (hq : queueLen c.packetQ = 0) : Accounted c.resumeTransfer := by
  have hslow : Accounted c.dtpSlowStart := ⟨hq.symm, h.connected, h.ackInserted⟩
  exact (hslow.of_acts (.dtpWriteAvail _) (by decide)).of_view rfl

theorem handleRSPPacket (hmac : List UInt8 → List UInt8 → List UInt8) {d : Datagram}
    (hq : c.validRSP hmac d = true → queueLen c.packetQ = 0) (addr : SockAddr) :
    Accounted (c.handleRSPPacket hmac d addr) := by
  simp only [DtpContext.handleRSPPacket]
  split_ifs with hv
  · exact h.of_view rfl
  · exact h
  · have hadopted : Accounted (c.adoptAddress addr).sendAUTHPacket := h.of_view rfl
    exact (hadopted.resumeTransfer (hq (by simpa using hv))).of_acts (.retransmitHead _) (by decide)

theorem handleAUTHPacket {addr : SockAddr} (hq : c.peerAddr = addr → queueLen c.packetQ = 0)
    (rnd : UInt32) : Accounted (c.handleAUTHPacket addr rnd) := by
  simp only [DtpContext.handleAUTHPacket, h.ackInserted, Bool.false_eq_true, if_false]
  split_ifs with haddr
  · exact h.of_view rfl
  · exact (h.resumeTransfer (hq (by simpa using haddr))).of_view rfl

/-! ## The end -/

/-- The first packet leaves the queue without being taken off the count. -/
theorem dropFirst (hf : c.freesFIN) (hq : c.packetQ = p :: q) (hl : c'.toLiveness = c.toLiveness)
    (hs : c'.segSent = c.segSent) (hq' : c'.packetQ = q) : Accounted c' := by
  have hfree : p.payloadLen = 0 := hf p (by simp [hq])
  refine h.take hl (x := 0) (by simp [hs]) ?_
  simp [hq, hq', hfree]

theorem handleFINPacket (hf : c.state = .finWait1 → c.freesFIN) (hd : DtpHdr) : Accounted (c.handleFINPacket hd) := by
  have hkeeps : ∀ k ∈ Acts.finishing, ∀ c c', Act k c c' → (Accounted c ∧ (c.state = .finWait1 → c.freesFIN)) →
      Accounted c' ∧ (c'.state = .finWait1 → c'.freesFIN) := by
    rintro k hk c c' ha ⟨h, hf⟩
    cases ha with
    | note | ack => exact ⟨h.of_view rfl, hf⟩
    | finHeard =>
      refine ⟨h.of_view rfl, fun hs => hf ?_⟩
      change (if c.state = .established then SockState.closeWait else c.state) = .finWait1 at hs
      split_ifs at hs
      exact hs
    | dropFirst hs _ hq => exact ⟨h.dropFirst (hf hs) hq rfl rfl rfl, fun hs => by cases hs⟩
    | timeWait => exact ⟨h.of_view rfl, fun hs => by cases hs⟩
    | _ => exact absurd hk (by decide)
  exact ((Acts.handleFINPacket c hd).invariant hkeeps ⟨h, hf⟩).1

theorem handleRSTPacket {d : Datagram} {hid : List UInt8} {fid : UInt32} {r : DtpContext}
    (hlast : c.state = .lastAck → c.freesFIN) (hsyn : c.state = .synSent → queueLen c.packetQ.tail = 0)
    (hr : c.handleRSTPacket d hid fid = .ok r) : Accounted r := by
  rcases handleRSTPacket_cases hr with rfl | ⟨hs, rfl⟩ | ⟨-, rfl⟩ | ⟨hs, rfl⟩
  · exact h
  · simp only [retryConnect]
    cases hq : c.packetQ with
    | nil => exact h.of_view rfl
    | cons p q =>
      have htail := hsyn hs
      rw [hq] at htail
      refine of_acts ?_ (.dtpWriteAvail _) (by decide)
      exact ⟨htail.symm, h.connected, h.ackInserted⟩
  · exact h.of_view rfl
  · simp only [dropLastAck]
    cases hq : c.packetQ with
    | nil => exact h.of_view rfl
    | cons p q => exact h.dropFirst (hlast hs) hq rfl rfl rfl

theorem apply {k : Crypto} {e : ConnEvent} (hk : e.KeepsCount k c) : Accounted (e.apply k c) := by
  have hplain (hK : ∀ a ∈ e.kinds, a ∉ lossy) : Accounted (e.apply k c) := h.of_acts (.conn k c e) hK
  cases e with
  | syn | option => exact hplain (by simp only [ConnEvent.kinds]; decide)
  | own e =>
    cases e with
    | fin hd => exact h.handleFINPacket hk hd
    | rsp d addr => exact h.handleRSPPacket k.hmac hk addr
    | auth addr rnd => exact h.handleAUTHPacket hk rnd
    | rst d hid fid =>
      simp only [ConnEvent.apply, Event.apply]
      split
      · rename_i r hr
        exact h.handleRSTPacket hk.1 hk.2 hr
      · exact h
    | timeout env => exact h.handleTimeout hk
    | _ => exact hplain (by simp only [ConnEvent.kinds, Event.kinds]; decide)

/-- The context on which `HandleACKPacket` calls `DTPWriteAvail`. -/
theorem flushACK {w : UInt16} (hx : c.flushACK a w = some c') : Accounted c' := by
  have hnoted : Accounted ((c.noteWrap a).noteAckWindow w) := by
    simp only [noteWrap]
    split_ifs <;> exact h.of_view rfl
  simp only [DtpContext.flushACK] at hx
  generalize (c.noteWrap a).noteAckWindow w = b at hnoted hx
  have hcounted : Accounted (b.countDuplicate a) := by
    simp only [countDuplicate]
    split_ifs <;> exact hnoted.of_view rfl
  split_ifs at hx
  · rw [← Option.some.inj hx]
    exact hnoted.of_view rfl
  · rw [← Option.some.inj hx]
    exact hcounted.of_acts (.recordACK _ a) (by decide)

theorem flush {k : Crypto} {e : Event} (hk : (ConnEvent.own e).KeepsCount k c)
    (hx : e.flush k c = some c') : Accounted c' := by
  have hsend (c : DtpContext) (h : Accounted c) (data : List UInt8)
      (hx : c.flushSend data = some c') : Accounted c' := by
    simp only [flushSend, noteFull] at hx
    split_ifs at hx <;> rw [← Option.some.inj hx] <;> exact h.of_view rfl
  cases e with
  | send data =>
    simp only [Event.flush] at hx
    split_ifs at hx
    exact hsend c h data hx
  | sendWake data => exact hsend { c with isWriteBlocked := false } (h.of_view rfl) data hx
  | close =>
    simp only [Event.flush] at hx
    split_ifs at hx
    rw [← Option.some.inj hx]
    exact h.of_view rfl
  | batch p =>
    simp only [Event.flush] at hx
    split at hx
    · cases hx
    · split_ifs at hx
      exact h.flushACK hx
  | rsp d addr =>
    simp only [Event.flush] at hx
    split_ifs at hx with hv
    rw [← Option.some.inj hx]
    exact ⟨(hk hv).symm, h.connected, h.ackInserted⟩
  | auth addr rnd =>
    simp only [Event.flush, flushAUTH, h.ackInserted, Bool.false_eq_true, if_false] at hx
    split_ifs at hx with haddr
    rw [← Option.some.inj hx]
    exact ⟨(hk haddr).symm, h.connected, h.ackInserted⟩
  | rst d hid fid =>
    simp only [Event.flush] at hx
    split at hx
    · split_ifs at hx with hok
      simp only [flushRetry] at hx
      cases hq : c.packetQ with
      | nil => simp [hq] at hx
      | cons p q =>
        have htail := hk.2 hok.2
        simp only [hq, Option.some.injEq, List.tail_cons] at hx htail
        rw [← hx]
        exact ⟨htail.symm, h.connected, h.ackInserted⟩
    · cases hx
  | _ => simp [Event.flush] at hx

end Accounted

/-! ## The congestion window -/

section Window
variable {c : DtpContext} {f : Flags} {l : ℤ}

theorem queueLen_writeLoop (hs : c.state ≠ .synSent) (net : ℕ → Bool) (fuel k : ℕ) :
    queueLen (writeLoop net fuel k f l c).1.packetQ ≤ max (queueLen c.packetQ) (queueLen c.packetQ + l) := by
  induction fuel generalizing k f l c with
  | zero => simp [writeLoop]
  | succ fuel ih =>
    have hle : c.writeLen f l ≤ l := by simp [writeLen, hs]
    have hadd : queueLen (c.writeOne f l).packetQ = queueLen c.packetQ + c.writeLen f l := by
      simp [writeOne, writeQueue, payloadLen_writePkt]
    simp only [writeLoop]
    split_ifs
    · simp
    · change queueLen (c.writeOne f l).packetQ ≤ _
      omega
    · have hrest := ih (c := c.writeOne f l) (f := laterFlags f) (l := l - c.writeLen f l) hs (k + 1)
      rw [hadd] at hrest
      omega

/-- When the count is right, no call of `DTPWriteAvail` fills the queue beyond the congestion
window. -/
theorem queueLen_dtpWriteAvailOn (h : c.segSent = queueLen c.packetQ) (hs : c.state ≠ .synSent) (net : ℕ → Bool) :
    queueLen (c.dtpWriteAvailOn net).packetQ ≤ max (queueLen c.packetQ) c.cwnd := by
  have hlen : c.sendLen ≤ c.cwnd - c.segSent := min_le_right _ _
  have hflush : queueLen (c.writeFlush net).1.packetQ ≤ max (queueLen c.packetQ) c.cwnd := by
    simp only [writeFlush]
    split_ifs
    · simp
    · simp
    · have hloop := queueLen_writeLoop (c := c.beginWrite) (f := c.writeFlags) (l := c.sendLen) hs net
        c.sendLen.toNat 0
      change _ ≤ max (queueLen c.packetQ) (queueLen c.packetQ + c.sendLen) at hloop
      omega
  simp only [dtpWriteAvailOn]
  split_ifs
  · simpa [dtpSendFINPacket, finPkt, DtpPkt.payloadLen] using hflush
  · exact hflush

end Window

/-! ## Runs -/

section Runs
variable {k : Crypto} {c₀ s : DtpContext}

theorem accounted_of_reachable (h₀ : Accounted c₀)
    (hs : ((connection k c₀).restrict (ConnEvent.KeepsCount k)).Reachable s) : Accounted s := by
  refine Machine.Reachable.invariant (P := Accounted) ?_ ?_ hs
  · intro t ht
    rwa [show t = c₀ from ht]
  · intro t e ht he
    exact ht.apply he.2

/-- **In-flight accounting.**  In every run in which address changes and new interfaces find nothing
in flight, and in which only a FIN is freed as one, `tc_segSent` is the payload in the queue, and
no call of `DTPWriteAvail` on the open connection fills the queue beyond the congestion window. -/
theorem in_flight_counted (h₀ : Accounted c₀)
    (hs : ((connection k c₀).restrict (ConnEvent.KeepsCount k)).Reachable s) :
    s.segSent = queueLen s.packetQ ∧
    ∀ e x, (ConnEvent.own e).KeepsCount k s → e.flush k s = some x → x.state ≠ .synSent →
      ∀ net, queueLen (x.dtpWriteAvailOn net).packetQ ≤ max (queueLen x.packetQ) x.cwnd := by
  have h := accounted_of_reachable h₀ hs
  refine ⟨h.count, ?_⟩
  intro e x hk hx hsyn net
  exact queueLen_dtpWriteAvailOn (h.flush hk hx).count hsyn net

theorem accounted_sampleSender : Accounted sampleSender := by
  constructor <;> decide

/-- Two full packets are written; the first goes out. -/
def twoPackets : ConnEvent := .own (.send (List.replicate 2904 0))

theorem in_flight_counted_first :
    ∃ s, ((connection sampleCrypto sampleSender).restrict
        (ConnEvent.KeepsCount sampleCrypto)).Reachable s ∧
      s.segSent = 1452 ∧ queueLen s.packetQ = 1452 := by
  have hinit : ((connection sampleCrypto sampleSender).restrict
      (ConnEvent.KeepsCount sampleCrypto)).init sampleSender := rfl
  have hsent : (((connection sampleCrypto sampleSender).restrict (ConnEvent.KeepsCount sampleCrypto)).apply
      sampleSender twoPackets).segSent = 1452 := by decide +kernel
  have hrun := Machine.Reachable.step (.init hinit) (e := twoPackets) ⟨trivial, trivial⟩
  have hcount := (in_flight_counted accounted_sampleSender hrun).1
  exact ⟨_, hrun, hsent, hcount.symm.trans hsent⟩

/-- The peer authenticates with the first packet in flight: it is no longer counted, and the second
follows it. -/
theorem migration_forgets_flight :
    ∃ s, (connection sampleCrypto sampleSender).Reachable s ∧
      s.segSent = 1452 ∧ queueLen s.packetQ = 2904 ∧ s.cwnd = 1452 := by
  have hinit : (connection sampleCrypto sampleSender).init sampleSender := rfl
  have hoffer : (connection sampleCrypto sampleSender).allowed
      ((connection sampleCrypto sampleSender).apply sampleSender twoPackets)
      (.own (.auth sampleSender.peerAddr 0)) := by
    change DtpContext.receives _ = true
    decide +kernel
  have hrun := Machine.Reachable.step (.init hinit) (e := twoPackets) trivial
  exact ⟨_, hrun.step hoffer, by decide +kernel⟩

end Runs

end Cedos.Dtp
