import Cedos.Dtp.Accept
import Cedos.Dtp.Moves
import Cedos.Dtp.Sockopt
import Cedos.Lib.Links

/-!
# Membership in the retransmission queue

A context enters the retransmission queue in `DTPCreateContext` and leaves it in seven places, among
them the RST, CHG and keep-alive handlers, which leave the context active. Nothing in the context
records whether it is linked. `dtp_setsockopt` takes a context out and puts it back, in two critical
sections, and looks only at `tc_isActive`.
-/

namespace Cedos.Dtp

open DtpContext

/-! ## Where a context is taken out of the queue -/

namespace DtpContext

/-- `HandleACKPacket` gets to its end and finds `LAST_ACK`. -/
def ackUnlinks (c : DtpContext) (ackNum : UInt32) (window : UInt16) : Bool :=
  if !c.isNetConnected then false
  else if ackNum < c.lastByteAcked ∧ ¬c.lastByteAcked + 1472 < c.lastByteAcked then false
  else
    let c := (c.noteWrap ackNum).noteAckWindow window
    if c.isHerWindowZero ∧ 0 < c.rcvWindow then false
    else
      let c := c.countDuplicate ackNum
      if ackNum = c.lastByteAcked ∧ c.numACKRcvd = 4 then false
      else decide ((c.recordACK ackNum).dtpWriteAvail.dtpWriteBufWakeup.state = .lastAck)

/-- The context as `HandleTimeout` finds it before the packet queue. -/
def beforeQueue (c : DtpContext) (env : TimerEnv) : DtpContext :=
  ((if c.keepAliveDue env then c.dtpSendProbePacket.countProbe else c).switchInterface
    env).persistProbe env

/-- `HandleTimeout` closes the context: `TIME_WAIT` or `LAST_ACK` is over, or the keep-alive probes
are. -/
def timerUnlinks (c : DtpContext) (env : TimerEnv) : Bool :=
  if c.state = .timeWait then env.waitExpired
  else if c.keepAliveDue env ∧ ¬c.sentProbes < c.keepAliveProbes then true
  else (timeoutLoop env 0 [] (c.beforeQueue env).packetQ (c.beforeQueue env)).2

end DtpContext

/-- The event takes the context out of the retransmission queue. -/
def Event.unlinks (c : DtpContext) : Event → Bool
  | .batch p =>
    match p.ack with
    | some (ackNum, window) => decide (c.state ≠ .timeWait) && c.ackUnlinks ackNum window
    | none => false
  | .chg _ addr => decide (c.peerAddr ≠ addr)
  | .rst d hid _ =>
    match dtpGetOption d hid none with
    | .ok o => decide (c.hostID = o.1 ∧ c.state = .established)
    | .error _ => false
  | .timeout env => c.timerUnlinks env
  | _ => false

/-! ## What the events do to a context -/

/-- A step that neither ends the connection nor anything else that the queue depends on. -/
structure Kept (c c' : DtpContext) : Prop where
  active : c'.isActive = c.isActive
  waitACK : c'.waitACK = c.waitACK
  connReset : c'.connReset = c.connReset
  connTimedOut : c'.connTimedOut = c.connTimedOut
  closed : c'.state = .closed ↔ c.state = .closed

namespace Kept
variable {c c' c'' : DtpContext}

theorem refl (c : DtpContext) : Kept c c := ⟨rfl, rfl, rfl, rfl, Iff.rfl⟩

theorem trans (h : Kept c c') (h' : Kept c' c'') : Kept c c'' where
  active := h'.active.trans h.active
  waitACK := h'.waitACK.trans h.waitACK
  connReset := h'.connReset.trans h.connReset
  connTimedOut := h'.connTimedOut.trans h.connTimedOut
  closed := h'.closed.trans h.closed

theorem finState_closed : ∀ s : SockState, finState s = .closed ↔ s = .closed := by decide

theorem assert (c : DtpContext) (b : Bool) : Kept c (c.assert b) := ⟨rfl, rfl, rfl, rfl, Iff.rfl⟩

/-- The acts that end a connection. -/
def ending : List ActKind := [.called, .waits, .woken, .closes, .reset, .timedOut, .released, .dropLast]

theorem of_act {k : ActKind} (h : Act k c c') (hk : k ∉ ending) : Kept c c' := by
  cases h with
  | fin => exact ⟨rfl, rfl, rfl, rfl, finState_closed c.state⟩
  | fallBack =>
    rw [fallBack, unsendFIN]
    split_ifs <;> exact ⟨rfl, rfl, rfl, rfl, Iff.rfl⟩
  | reconnect | switch =>
    simp only [dtpReconnect]
    split <;> exact ⟨rfl, rfl, rfl, rfl, Iff.rfl⟩
  | establish hs | finAcked hs | dropFirst hs | adopted hs =>
    exact ⟨rfl, rfl, rfl, rfl, iff_of_false (fun h => by cases h) (by simp [hs])⟩
  | finHeard =>
    refine ⟨rfl, rfl, rfl, rfl, ?_⟩
    simp only [noteFIN]
    split_ifs with hs
    · simp [hs]
    · exact Iff.rfl
  | timeWait hs =>
    refine ⟨rfl, rfl, rfl, rfl, iff_of_false (by simp) fun hc => ?_⟩
    simp [inFinWait, hc] at hs
  | called | waits | woken | closes | reset | timedOut | released | dropLast => exact absurd (by decide) hk
  | _ => exact ⟨rfl, rfl, rfl, rfl, Iff.rfl⟩

theorem of_acts {K : List ActKind} (h : Acts K c c') (hK : ∀ k ∈ K, k ∉ ending := by decide) : Kept c c' := by
  refine h.invariant (P := Kept c) ?_ (refl c)
  intro k hk x y ha hx
  exact hx.trans (of_act ha (hK k hk))

end Kept

/-- The connection is over; a context that is still active says why. -/
structure DtpContext.Ended (c : DtpContext) : Prop where
  state : c.state = .closed
  shut : c.isActive = true → c.connReset = true ∨ c.connTimedOut = true ∨ c.waitACK = true

section Events
variable {c c' : DtpContext}

theorem DtpContext.Ended.of_kept (h : c.Ended) (hk : Kept c c') : c'.Ended where
  state := hk.closed.mpr h.state
  shut hactive := by
    rw [hk.connReset, hk.connTimedOut, hk.waitACK]
    exact h.shut (hk.active.symm.trans hactive)

theorem ended_dtpCloseContext (hs : c.state = .closed) : c.dtpCloseContext.Ended := by
  have hwait : c.state ≠ .timeWait := by simp [hs]
  simp only [DtpContext.dtpCloseContext, hwait, if_false]
  split_ifs with ha hw
  · exact ⟨hs, fun hactive => absurd hactive (by simpa [DtpContext.assert] using ha)⟩
  · exact ⟨hs, fun _ => .inr (.inr hw)⟩
  · exact ⟨hs, fun hactive => by cases hactive⟩

theorem ended_enterClosed (c : DtpContext) : c.enterClosed.Ended := ended_dtpCloseContext rfl

theorem ended_expire (c : DtpContext) : c.expire.Ended := ended_dtpCloseContext rfl

theorem finishACK_of_ne_lastAck (hs : c.state ≠ .lastAck) (ack : UInt32) : Kept c (c.finishACK ack) := by
  simp only [DtpContext.finishACK, hs, if_false]
  split_ifs with h
  · exact .of_act (.finAcked h.1) (by decide)
  · exact .refl c

/-- `HandleACKPacket` takes the context out of the queue exactly when it closes it. -/
theorem handleACKPacket_unlinks (c : DtpContext) (ack : UInt32) (w : UInt16) :
    if c.ackUnlinks ack w then
      ∃ y, Kept c y ∧ y.state = .lastAck ∧ c.handleACKPacket ack w = y.enterClosed
    else Kept c (c.handleACKPacket ack w) := by
  have hnoted : Kept c ((c.noteWrap ack).noteAckWindow w) := by
    rw [noteWrap]
    split_ifs <;> exact ⟨rfl, rfl, rfl, rfl, Iff.rfl⟩
  rw [DtpContext.ackUnlinks, DtpContext.handleACKPacket]
  by_cases hnet : c.isNetConnected = true
  · by_cases hold : ack < c.lastByteAcked ∧ ¬c.lastByteAcked + 1472 < c.lastByteAcked
    · simp only [hnet, Bool.not_true, Bool.false_eq_true, if_false, if_pos hold]
      exact Kept.refl c
    · simp only [hnet, Bool.not_true, Bool.false_eq_true, if_false, if_neg hold]
      generalize (c.noteWrap ack).noteAckWindow w = b at hnoted
      by_cases hopen : b.isHerWindowZero = true ∧ 0 < b.rcvWindow
      · have hopened : Kept b b.clearHerWindowZero := ⟨rfl, rfl, rfl, rfl, Iff.rfl⟩
        rw [if_pos hopen, if_pos hopen, if_neg Bool.false_ne_true]
        exact ((hnoted.trans hopened).trans (.of_acts (.dtpWriteAvail _))).trans ⟨rfl, rfl, rfl, rfl, Iff.rfl⟩
      · have hcounted : Kept c (b.countDuplicate ack) := by
          rw [countDuplicate]
          split_ifs
          · exact hnoted.trans ⟨rfl, rfl, rfl, rfl, Iff.rfl⟩
          · exact hnoted
        rw [if_neg hopen, if_neg hopen]
        generalize b.countDuplicate ack = b at hcounted
        by_cases hdup : ack = b.lastByteAcked ∧ b.numACKRcvd = 4
        · rw [if_pos hdup, if_pos hdup, if_neg Bool.false_ne_true]
          exact hcounted.trans (.of_acts (.handleDuplicateACK b ack))
        · have hrecorded := hcounted.trans (Kept.of_acts (.recordACK b ack))
          have hwritten : Kept c (b.recordACK ack).dtpWriteAvail.dtpWriteBufWakeup :=
            (hrecorded.trans (.of_acts (.dtpWriteAvail _))).trans ⟨rfl, rfl, rfl, rfl, Iff.rfl⟩
          rw [if_neg hdup, if_neg hdup]
          generalize (b.recordACK ack).dtpWriteAvail.dtpWriteBufWakeup = y at hwritten
          by_cases hlast : y.state = .lastAck
          · have hfinish : y.finishACK ack = y.enterClosed := by simp [DtpContext.finishACK, hlast]
            rw [if_pos (by simpa using hlast)]
            exact ⟨y, hwritten, hlast, hfinish⟩
          · rw [if_neg (by simpa using hlast)]
            exact hwritten.trans (finishACK_of_ne_lastAck hlast ack)
  · simp only [hnet, Bool.not_false, if_true, Bool.false_eq_true, if_false]
    exact Kept.refl c

/-- `HandleTimeout` takes the context out of the queue exactly when it closes it. -/
theorem handleTimeout_unlinks (c : DtpContext) (env : TimerEnv) :
    if c.timerUnlinks env then (c.handleTimeout env).Ended else Kept c (c.handleTimeout env) := by
  rw [DtpContext.timerUnlinks, DtpContext.handleTimeout]
  by_cases hw : c.state = .timeWait
  · rw [if_pos hw, if_pos hw]
    split_ifs
    · exact ended_expire c
    · exact Kept.refl c
  · rw [if_neg hw, if_neg hw]
    by_cases hk : c.keepAliveDue env ∧ ¬c.sentProbes < c.keepAliveProbes
    · rw [if_pos hk, if_pos hk, if_pos rfl]
      exact ⟨rfl, fun _ => .inr (.inl rfl)⟩
    · rw [if_neg hk, if_neg hk]
      have hprobed : Kept c (if c.keepAliveDue env then c.dtpSendProbePacket.countProbe else c) :=
        .of_acts (.keepAlive c env)
      have hbefore : Kept c (c.beforeQueue env) :=
        (hprobed.trans (.of_acts (.switchInterface _ env))).trans (.of_acts (.persistProbe _ env))
      have hloop : Kept (c.beforeQueue env)
          (timeoutLoop env 0 [] (c.beforeQueue env).packetQ (c.beforeQueue env)).1 :=
        .of_acts (.timeoutLoop env 0 rfl)
      change if (timeoutLoop env 0 [] (c.beforeQueue env).packetQ (c.beforeQueue env)).2 = true then
        ((c.beforeQueue env).timeoutQueue env).Ended else Kept c ((c.beforeQueue env).timeoutQueue env)
      rw [DtpContext.timeoutQueue]
      split_ifs
      · exact ended_expire _
      · exact hbefore.trans hloop

theorem kept_handleCHGPacket {addr : SockAddr} (ha : c.peerAddr = addr) (hmac : List UInt8 → List UInt8 → List UInt8)
    (d : Datagram) : Kept c (c.handleCHGPacket hmac d addr) := by
  simp only [DtpContext.handleCHGPacket, ha, ne_eq, not_true_eq_false, if_false]
  exact ⟨rfl, rfl, rfl, rfl, Iff.rfl⟩

/-- An event that takes the context out of the queue ends the connection. A packet takes only an open one out. -/
theorem Event.ended (k : Crypto) {e : Event} (ho : e.offered c) (hu : e.unlinks c = true) :
    (e.apply k c).Ended ∧ (c.state ≠ .closed ∨ ∃ env, e = .timeout env) := by
  cases e with
  | batch p =>
    cases hp : p.ack with
    | none => simp [Event.unlinks, hp] at hu
    | some a =>
      simp only [Event.unlinks, hp, Bool.and_eq_true, decide_eq_true_eq] at hu
      have hack := handleACKPacket_unlinks c a.1 a.2
      rw [if_pos hu.2] at hack
      rcases hack with ⟨y, hy, hlast, heq⟩
      refine ⟨?_, .inl fun hs => ?_⟩
      · have hdata : Kept y.enterClosed (y.enterClosed.processData p.pkts) := .of_acts (.processData _ _)
        simp only [Event.apply, DtpContext.processAggregatePackets, DtpContext.processACK, hp]
        rw [if_pos hu.1, heq]
        exact (ended_enterClosed y).of_kept hdata
      · simp [hy.closed.mpr hs] at hlast
  | chg d addr =>
    simp only [Event.unlinks, ne_eq, decide_eq_true_eq] at hu
    simp only [Event.apply, DtpContext.handleCHGPacket, ne_eq, hu, not_false_eq_true, if_true]
    refine ⟨⟨rfl, fun _ => .inl rfl⟩, .inl fun hs => ?_⟩
    simp [Event.offered, DtpContext.receives, hs] at ho
  | rst d hid fid =>
    simp only [Event.unlinks] at hu
    cases hopt : dtpGetOption d hid none with
    | error f => simp [hopt] at hu
    | ok o =>
      simp only [hopt, decide_eq_true_eq] at hu
      simp only [Event.apply, DtpContext.handleRSTPacket, hopt, bind, Except.bind, pure, Except.pure,
        hu.1, ne_eq, not_true_eq_false, if_false, hu.2, if_true]
      exact ⟨⟨rfl, fun _ => .inl rfl⟩, .inl (by decide)⟩
  | timeout env =>
    have h := handleTimeout_unlinks c env
    simp only [Event.unlinks] at hu
    rw [if_pos hu] at h
    exact ⟨h, .inr ⟨env, rfl⟩⟩
  | _ => simp [Event.unlinks] at hu

/-- An RST that does not take an established connection out of the queue does nothing. -/
theorem handleRSTPacket_of_not_unlinks {d : Datagram} {hid : List UInt8} {fid : UInt32} {r : DtpContext}
    (hs : c.state = .established) (hu : (Event.rst d hid fid).unlinks c = false)
    (hr : c.handleRSTPacket d hid fid = .ok r) : r = c := by
  cases hopt : dtpGetOption d hid none with
  | error f => simp [DtpContext.handleRSTPacket, hopt, bind, Except.bind] at hr
  | ok o =>
    have hne : c.hostID ≠ o.1 := by simpa [Event.unlinks, hopt, hs] using hu
    simp only [DtpContext.handleRSTPacket, hopt, bind, Except.bind, pure, Except.pure, ne_eq, hne,
      not_false_eq_true, if_true] at hr
    exact (Except.ok.inj hr).symm

/-- Apart from `dtp_close`, and from an RST in `LAST_ACK`, every other event keeps the context. -/
theorem Event.kept (k : Crypto) {e : Event} (hu : e.unlinks c = false) (hclose : e ≠ .close)
    (hwake : e ≠ .closeWake) (hrst : ∀ d hid fid, e = .rst d hid fid → c.state ≠ .lastAck) :
    Kept c (e.apply k c) := by
  cases e with
  | close => exact absurd rfl hclose
  | closeWake => exact absurd rfl hwake
  | batch p =>
    have hack : Kept c (c.processACK p.ack) := by
      cases hp : p.ack with
      | none => exact Kept.refl c
      | some a =>
        by_cases hw : c.state = .timeWait
        · simp only [DtpContext.processACK, hw, ne_eq, not_true_eq_false, if_false]
          exact Kept.refl c
        · have h := handleACKPacket_unlinks c a.1 a.2
          have hno : c.ackUnlinks a.1 a.2 = false := by simpa [Event.unlinks, hp, hw] using hu
          rw [if_neg (by simp [hno])] at h
          simp only [DtpContext.processACK, ne_eq, hw, not_false_eq_true, if_true]
          exact h
    exact hack.trans (.of_acts (.processData _ p.pkts))
  | chg d addr => exact kept_handleCHGPacket (by simpa [Event.unlinks] using hu) k.hmac d
  | rst d hid fid =>
    simp only [Event.apply]
    split
    · rename_i r hr
      rcases handleRSTPacket_cases hr with rfl | ⟨hs, rfl⟩ | ⟨hs, rfl⟩ | ⟨hs, rfl⟩
      · exact Kept.refl _
      · exact Kept.of_acts (.retryConnect hs fid)
      · rw [handleRSTPacket_of_not_unlinks hs hu hr]
        exact Kept.refl c
      · exact absurd hs (hrst d hid fid rfl)
    · exact Kept.refl c
  | timeout env =>
    have h := handleTimeout_unlinks c env
    simp only [Event.unlinks] at hu
    rwa [if_neg (by simp [hu])] at h
  | _ => exact Kept.of_acts (.apply k c _) (by simp only [Event.kinds]; decide)

end Events

/-! ## The host -/

/-- What a call of `dtp_setsockopt` still has to do to the queue. -/
inductive Requeue
  | remove (x : ℕ)
  | insert (x : ℕ)
  deriving DecidableEq, Repr

/-- The context it is for. -/
def Requeue.sock : Requeue → ℕ
  | .remove x => x
  | .insert x => x

/-- The contexts of a host by their sockets, the sockets that are open, the retransmission queue with
the seconds of `tc_deadlineTime`, and the calls of `dtp_setsockopt` that are under way. -/
structure TimerHost where
  ctx : ℕ → DtpContext
  opened : ℕ → Bool
  queue : List ℕ
  deadlineTime : ℕ → ℤ
  calls : List Requeue

/-- The steps of the library and of its callers. -/
inductive TimerEvent
  /-- `DTPCreateContext`, for `dtp_socket` or for a SYN -/
  | create (x : ℕ) (c : DtpContext) (now : ℤ)
  /-- the same, without memory for the buffers -/
  | createFails (x : ℕ) (c : DtpContext) (now : ℤ)
  | connect (x : ℕ) (addr : SockAddr) (fid : UInt32) (n e : List UInt8)
  | listen (x : ℕ) (bound alloc : Bool) (backlog : ℤ)
  | setsockopt (x : ℕ) (o : SockOpt) (env : SockoptEnv) (now : ℤ)
  /-- a critical section of a call of `dtp_setsockopt` -/
  | requeue (r : Requeue)
  /-- `HandleDeadline` finds that the deadline has passed -/
  | deadline (x : ℕ)
  | event (x : ℕ) (e : Event)

namespace TimerHost

/-- The order of `InsertToRetransQueue`. -/
def before (dt : ℕ → ℤ) (x y : ℕ) : Prop := dt x < dt y

instance (dt : ℕ → ℤ) : DecidableRel (before dt) := fun x y => inferInstanceAs (Decidable (dt x < dt y))

/-- What the step does to the queue. -/
def ops (s : TimerHost) : TimerEvent → List (LinkOp ℕ)
  | .create x _ _ | .createFails x _ _ => [.clear x, .insert x]
  | .requeue (.remove x) => [.remove x]
  | .requeue (.insert x) => [.insert x]
  | .deadline x => [.remove x]
  | .event x e => if e.unlinks (s.ctx x) then [.remove x] else []
  | _ => []

/-- The deadlines by which the step inserts. -/
def deadlines (s : TimerHost) : TimerEvent → ℕ → ℤ
  | .create x _ now | .createFails x _ now => Function.update s.deadlineTime x now
  | _ => s.deadlineTime

def set (s : TimerHost) (x : ℕ) (c : DtpContext) : TimerHost :=
  { s with ctx := Function.update s.ctx x c }

/-- Replace a context by what an event has made of it; the socket is closed with it. -/
def step (s : TimerHost) (x : ℕ) (c : DtpContext) : TimerHost :=
  { s.set x c with
    opened := Function.update s.opened x (s.opened x && !((s.ctx x).isActive && !c.isActive)) }

/-- One step, apart from the queue. -/
def effect (k : Crypto) (s : TimerHost) : TimerEvent → TimerHost
  | .create x c now =>
    { s.set x c with
      opened := Function.update s.opened x true
      deadlineTime := Function.update s.deadlineTime x (if 0 < c.deadline then now + c.deadline else now) }
  | .createFails x c now =>
    { s.set x c with deadlineTime := Function.update s.deadlineTime x now }
  | .connect x addr fid n e => s.set x ((s.ctx x).dtpConnect addr fid n e)
  | .listen x bound alloc backlog => s.set x ((s.ctx x).dtpListen bound alloc backlog).1
  | .setsockopt x o env now =>
    let r := (s.ctx x).dtpSetsockopt o env
    if r.2.2 then
      { s.set x r.1 with
        deadlineTime := Function.update s.deadlineTime x
          (if 0 < r.1.deadline ∧ 0 < r.1.blockSize then now + r.1.deadline else s.deadlineTime x)
        calls := .remove x :: s.calls }
    else s.set x r.1
  | .requeue (.remove x) => { s with calls := .insert x :: s.calls.erase (.remove x) }
  | .requeue (.insert x) => { s with calls := s.calls.erase (.insert x) }
  | .deadline x => s.step x (s.ctx x).dtpCloseConnection
  | .event x e => s.step x (e.apply k (s.ctx x))

/-- One step. -/
def apply (k : Crypto) (s : TimerHost) (e : TimerEvent) : TimerHost :=
  { s.effect k e with queue := runAll (before (s.deadlines e)) s.queue (s.ops e) }

/-- A context as it is created: `dtp_socket` leaves it `CLOSED`, a SYN in `SYN_RCVD`. -/
structure Created (c : DtpContext) : Prop where
  active : c.isActive = true
  waitACK : c.waitACK = false
  connReset : c.connReset = false
  connTimedOut : c.connTimedOut = false
  state : c.state = .closed ∨ c.state = .synRcvd

/-- When a step can be taken. A socket number is free once the socket is closed; the timers look at
the contexts in the queue. -/
def allowed (s : TimerHost) : TimerEvent → Prop
  | .create x c _ | .createFails x c _ => s.opened x = false ∧ Created c
  | .requeue r => r ∈ s.calls
  | .deadline x => x ∈ s.queue ∧ (s.ctx x).isDeadlineSet = true ∧ 0 < (s.ctx x).deadline
  | .event x e => e.offered (s.ctx x) ∧ ∀ env, e = .timeout env → x ∈ s.queue
  | _ => True

/-- No context has been created yet. -/
def empty : TimerHost := ⟨fun _ => {}, fun _ => false, [], fun _ => 0, []⟩

end TimerHost

def retransmitting (k : Crypto) : Machine TimerHost TimerEvent where
  init s := s = TimerHost.empty
  allowed := TimerHost.allowed
  apply := TimerHost.apply k

/-! ## The condition -/

/-- The connection has not been reset, has not timed out, and nobody waits for its end. -/
structure DtpContext.Usable (c : DtpContext) : Prop where
  active : c.isActive = true
  waitACK : c.waitACK = false
  connReset : c.connReset = false
  connTimedOut : c.connTimedOut = false

/-- The option reorders the queue. -/
def SockOpt.requeues : SockOpt → Bool
  | .blockSize _ | .deadline _ => true
  | _ => false

/-- A call of `dtp_setsockopt` is under way for the context. -/
def TimerHost.Busy (s : TimerHost) (x : ℕ) : Prop := ∃ r ∈ s.calls, r.sock = x

/-- A lingering `dtp_close` is not called on a socket that was never connected, does not return before
the library tells it to, finds its option still set when it returns from a connection that is over, and is
not overtaken by an RST in `LAST_ACK`. -/
def Timely (c : DtpContext) : Event → Prop
  | .close => ¬(c.useLinger = true ∧ c.state = .closed ∧ c.Usable)
  | .closeWake => c.state = .timeWait ∨ (c.state = .closed ∧ c.useLinger = true)
  | .rst _ _ _ => ¬(c.state = .lastAck ∧ c.waitACK = true)
  | _ => True

/-- The steps under which the queue stays intact: sockets are connected, made to listen, and given a
block size or deadline only while they are usable, nothing happens to a context in the middle of such
a call, and memory does not run out. -/
def Careful (s : TimerHost) : TimerEvent → Prop
  | .create _ _ _ => True
  | .createFails _ _ _ => False
  | .connect x _ _ _ _ | .listen x _ _ _ => (s.ctx x).Usable ∧ ¬s.Busy x
  | .setsockopt x o _ _ =>
    ¬s.Busy x ∧ (o.requeues = true → (s.ctx x).isActive = true → (s.ctx x).Usable)
  | .requeue _ => True
  | .deadline x => ¬s.Busy x
  | .event x e => ¬s.Busy x ∧ Timely (s.ctx x) e

/-! ## What one step keeps -/

/-- The queue and the contexts agree. -/
structure TimerHost.Tracked (s : TimerHost) : Prop where
  nodup : s.queue.Nodup
  linked : ∀ x ∈ s.queue, s.opened x = true ∧ (s.ctx x).isActive = true
  opened : ∀ x, (s.ctx x).state ≠ .closed → x ∈ s.queue ∨ .insert x ∈ s.calls
  usable : ∀ x, (s.ctx x).Usable → x ∈ s.queue ∨ .insert x ∈ s.calls
  ended : ∀ x ∈ s.queue, (s.ctx x).connReset = false ∧ (s.ctx x).connTimedOut = false
  lingers : ∀ x ∈ s.queue, (s.ctx x).waitACK = true → (s.ctx x).state ≠ .closed
  single : (s.calls.map Requeue.sock).Nodup
  taking : ∀ x, .remove x ∈ s.calls → x ∈ s.queue ∧ (s.ctx x).Usable
  taken : ∀ x, .insert x ∈ s.calls → x ∉ s.queue ∧ s.opened x = true ∧ (s.ctx x).Usable

namespace TimerHost
variable {k : Crypto} {s : TimerHost} {x : ℕ}

theorem tracked_empty : empty.Tracked where
  nodup := List.nodup_nil
  linked x hx := by cases hx
  opened x hs := absurd rfl hs
  usable x hu := by cases hu.active
  ended x hx := by cases hx
  lingers x hx := by cases hx
  single := List.nodup_nil
  taking x hx := by cases hx
  taken x hx := by cases hx

theorem Tracked.mem_of_open (h : s.Tracked) (hb : ¬s.Busy x) (hs : (s.ctx x).state ≠ .closed) : x ∈ s.queue := by
  rcases h.opened x hs with hq | hc
  · exact hq
  · exact absurd ⟨_, hc, rfl⟩ hb

theorem Tracked.mem_of_usable (h : s.Tracked) (hb : ¬s.Busy x) (hu : (s.ctx x).Usable) : x ∈ s.queue := by
  rcases h.usable x hu with hq | hc
  · exact hq
  · exact absurd ⟨_, hc, rfl⟩ hb

/-- What has to be checked of a context that is replaced while no call is under way for it. -/
structure Fits (q : List ℕ) (x : ℕ) (c : DtpContext) (o : Bool) : Prop where
  linked : x ∈ q → o = true ∧ c.isActive = true
  opened : c.state ≠ .closed → x ∈ q
  usable : c.Usable → x ∈ q
  ended : x ∈ q → c.connReset = false ∧ c.connTimedOut = false
  lingers : x ∈ q → c.waitACK = true → c.state ≠ .closed

/-- A context is replaced; its socket may be opened or closed, and it may enter or leave the queue. -/
theorem Tracked.replace (h : s.Tracked) (hb : ¬s.Busy x) {c : DtpContext} {o : Bool} {q : List ℕ}
    (hq : q.Nodup) (hmem : ∀ y, y ≠ x → (y ∈ q ↔ y ∈ s.queue)) (hc : Fits q x c o) (dt : ℕ → ℤ) :
    ({ s.set x c with
      opened := Function.update s.opened x o
      queue := q
      deadlineTime := dt } : TimerHost).Tracked := by
  have hctx : ∀ y, y ≠ x → Function.update s.ctx x c y = s.ctx y :=
    fun y hy => Function.update_of_ne hy ..
  have hopen : ∀ y, y ≠ x → Function.update s.opened x o y = s.opened y :=
    fun y hy => Function.update_of_ne hy ..
  constructor <;> simp only [set]
  · exact hq
  · intro y hy
    by_cases hyx : y = x
    · subst hyx
      simpa using hc.linked hy
    · simpa [hctx y hyx, hopen y hyx] using h.linked y ((hmem y hyx).mp hy)
  · intro y hy
    by_cases hyx : y = x
    · subst hyx
      exact .inl (hc.opened (by simpa using hy))
    · rw [hmem y hyx]
      exact h.opened y (by simpa [hctx y hyx] using hy)
  · intro y hy
    by_cases hyx : y = x
    · subst hyx
      exact .inl (hc.usable (by simpa using hy))
    · rw [hmem y hyx]
      exact h.usable y (by simpa [hctx y hyx] using hy)
  · intro y hy
    by_cases hyx : y = x
    · subst hyx
      simpa using hc.ended hy
    · simpa [hctx y hyx] using h.ended y ((hmem y hyx).mp hy)
  · intro y hy
    by_cases hyx : y = x
    · subst hyx
      simpa using hc.lingers hy
    · simpa [hctx y hyx] using h.lingers y ((hmem y hyx).mp hy)
  · exact h.single
  · intro y hy
    have hyx : y ≠ x := fun heq => hb ⟨_, hy, heq⟩
    simpa [hctx y hyx, hmem y hyx] using h.taking y hy
  · intro y hy
    have hyx : y ≠ x := fun heq => hb ⟨_, hy, heq⟩
    simpa [hctx y hyx, hopen y hyx, hmem y hyx] using h.taken y hy

/-- A context keeps what the queue depends on. -/
theorem Tracked.fits_of_kept (h : s.Tracked) (hb : ¬s.Busy x) {c : DtpContext} (hk : Kept (s.ctx x) c) :
    Fits s.queue x c (s.opened x) where
  linked hx := by
    rw [hk.active]
    exact h.linked x hx
  opened hs := h.mem_of_open hb fun hclosed => hs (hk.closed.mpr hclosed)
  usable hu := h.mem_of_usable hb
    ⟨hk.active ▸ hu.active, hk.waitACK ▸ hu.waitACK, hk.connReset ▸ hu.connReset, hk.connTimedOut ▸ hu.connTimedOut⟩
  ended hx := by
    rw [hk.connReset, hk.connTimedOut]
    exact h.ended x hx
  lingers hx hw := by
    rw [hk.waitACK] at hw
    exact fun hs => h.lingers x hx hw (hk.closed.mp hs)

/-- A socket that is in use opens a connection. -/
theorem Tracked.fits_of_opens (h : s.Tracked) (hb : ¬s.Busy x) (hu : (s.ctx x).Usable) {c : DtpContext}
    (hactive : c.isActive = (s.ctx x).isActive) (hwait : c.waitACK = (s.ctx x).waitACK)
    (hreset : c.connReset = (s.ctx x).connReset) (hout : c.connTimedOut = (s.ctx x).connTimedOut) :
    Fits s.queue x c (s.opened x) := by
  have hx := h.mem_of_usable hb hu
  refine ⟨fun _ => ?_, fun _ => hx, fun _ => hx, fun _ => ?_, fun _ hw => ?_⟩
  · rw [hactive]
    exact h.linked x hx
  · rw [hreset, hout]
    exact h.ended x hx
  · rw [hwait, hu.waitACK] at hw
    cases hw

/-- A context that is closed leaves the queue, or has left it before. -/
theorem fits_of_not_mem {q : List ℕ} {c : DtpContext} (hx : x ∉ q) (hs : c.state = .closed)
    (hu : ¬c.Usable) (o : Bool) : Fits q x c o :=
  ⟨fun h => absurd h hx, fun h => absurd hs h, fun h => absurd h hu, fun h => absurd h hx, fun h => absurd h hx⟩

theorem not_usable_of_ended {c : DtpContext} (h : c.Ended) : ¬c.Usable := by
  intro hu
  rcases h.shut hu.active with hr | ht | hw
  · exact absurd (hu.connReset.symm.trans hr) Bool.false_ne_true
  · exact absurd (hu.connTimedOut.symm.trans ht) Bool.false_ne_true
  · exact absurd (hu.waitACK.symm.trans hw) Bool.false_ne_true

theorem Fits.step {q : List ℕ} {c : DtpContext} {o : Bool} (h : Fits q x c o) (a : Bool) :
    Fits q x c (o && !(a && !c.isActive)) := by
  refine ⟨fun hx => ?_, h.opened, h.usable, h.ended, h.lingers⟩
  simp [h.linked hx]

/-! ### `dtp_close` -/

section
variable (h : s.Tracked)
include h

section
variable (hb : ¬s.Busy x)
include hb

/-- A context that `dtp_close` releases is not in the queue. -/
theorem Tracked.fits_release {c : DtpContext}
    (hk : Kept (s.ctx x) c) (hx : c.state = .closed → c.waitACK = false → x ∉ s.queue)
    (hs : c.state = .closed ∨ x ∉ s.queue) : Fits s.queue x c.dtpCloseContext (s.opened x) := by
  simp only [DtpContext.dtpCloseContext]
  split_ifs with ha hw ht
  · exact h.fits_of_kept hb (hk.trans ⟨rfl, rfl, rfl, rfl, Iff.rfl⟩)
  · exact h.fits_of_kept hb hk
  · exact h.fits_of_kept hb hk
  · have hclosed : c.state = .closed := by
      rcases hs with hs | hnot
      · exact hs
      · by_contra hopen
        exact hnot (h.mem_of_open hb fun heq => hopen (hk.closed.mpr heq))
    apply fits_of_not_mem
    · exact hx hclosed (by simpa using hw)
    · exact hclosed
    · intro hu
      cases hu.active

/-- `dtp_close` keeps the context, waits for the end of an open connection, or releases a context that
is not in the queue. -/
theorem Tracked.fits_dtpClose (ht : Timely (s.ctx x) .close) :
    Fits s.queue x (s.ctx x).dtpClose.1 (s.opened x) := by
  have hcalled : Kept (s.ctx x) { s.ctx x with closeCalled := true } := ⟨rfl, rfl, rfl, rfl, Iff.rfl⟩
  have hwritten := hcalled.trans (Kept.of_acts (.dtpWriteAvail _))
  simp only [DtpContext.dtpClose]
  split_ifs with ha hs hl hl
  · exact h.fits_of_kept hb (Kept.refl _)
  · have hfit := h.fits_of_kept hb hwritten
    refine ⟨hfit.linked, hfit.opened, fun hu => ?_, hfit.ended, fun _ _ hclosed => ?_⟩
    · cases hu.waitACK
    · exact hs.1 (hwritten.closed.mp hclosed)
  · exact h.fits_of_kept hb hwritten
  · have hactive : (s.ctx x).isActive = true := by simpa using ha
    refine h.fits_release hb hcalled (fun hclosed hw hx => ?_) ?_
    · rcases h.ended x hx with ⟨hreset, hout⟩
      exact ht ⟨hl, hclosed, hactive, hw, hreset, hout⟩
    · by_cases hclosed : (s.ctx x).state = .closed
      · exact .inl hclosed
      · right
        intro hx
        exact hs ⟨hclosed, (h.ended x hx).1⟩
  · exact h.fits_of_kept hb hcalled

theorem Tracked.fits_dtpCloseWake (hw : (s.ctx x).waitACK = true)
    (ht : Timely (s.ctx x) .closeWake) : Fits s.queue x (s.ctx x).dtpCloseWake.1 (s.opened x) := by
  simp only [DtpContext.dtpCloseWake]
  rcases ht with hwait | ⟨hclosed, hlinger⟩
  · -- the library still has the context in its queue
    have hx : x ∈ s.queue := h.mem_of_open hb (by simp [hwait])
    have heq : ({ s.ctx x with waitACK := false } : DtpContext).dtpCloseContext =
        { s.ctx x with waitACK := false } := by
      simp [DtpContext.dtpCloseContext, (h.linked x hx).2, hwait]
    rw [heq, ite_self]
    exact ⟨fun _ => h.linked x hx, fun _ => hx, fun _ => hx, fun _ => h.ended x hx, fun _ hw => by cases hw⟩
  · have hx : x ∉ s.queue := fun hx => h.lingers x hx hw hclosed
    have hended : ({ s.ctx x with waitACK := false } : DtpContext).dtpCloseContext.Ended :=
      ended_dtpCloseContext hclosed
    rw [if_pos hlinger]
    exact fits_of_not_mem hx hended.state (not_usable_of_ended hended) _

/-! ### The other steps -/

/-- An RST in `LAST_ACK` leaves a closed context in the queue. -/
theorem Tracked.fits_dropLastAck (hs : (s.ctx x).state = .lastAck)
    (hw : (s.ctx x).waitACK = false) : Fits s.queue x (s.ctx x).dropLastAck (s.opened x) := by
  have hx : x ∈ s.queue := h.mem_of_open hb (by simp [hs])
  simp only [DtpContext.dropLastAck]
  cases (s.ctx x).packetQ with
  | nil => exact h.fits_of_kept hb (Kept.assert _ false)
  | cons p q =>
    exact ⟨fun _ => h.linked x hx, fun _ => hx, fun _ => hx, fun _ => h.ended x hx,
      fun _ hwait => absurd (hw.symm.trans hwait) Bool.false_ne_true⟩

theorem Tracked.fits_event {e : Event} (ho : e.offered (s.ctx x))
    (ht : Timely (s.ctx x) e) (hu : e.unlinks (s.ctx x) = false) :
    Fits s.queue x (e.apply k (s.ctx x)) (s.opened x) := by
  by_cases hclose : e = .close
  · subst hclose
    exact h.fits_dtpClose hb ht
  · by_cases hwake : e = .closeWake
    · subst hwake
      exact h.fits_dtpCloseWake hb ho ht
    · by_cases hrst : ∀ d hid fid, e = .rst d hid fid → (s.ctx x).state ≠ .lastAck
      · exact h.fits_of_kept hb (Event.kept k hu hclose hwake hrst)
      · simp only [not_forall, not_not] at hrst
        rcases hrst with ⟨d, hid, fid, rfl, hs⟩
        have hw : (s.ctx x).waitACK = false := by simpa [Timely, hs] using ht
        simp only [Event.apply]
        split
        · rename_i r hr
          rcases handleRSTPacket_cases hr with rfl | ⟨hs', -⟩ | ⟨hs', -⟩ | ⟨-, rfl⟩
          · exact h.fits_of_kept hb (Kept.refl _)
          · simp [hs] at hs'
          · simp [hs] at hs'
          · exact h.fits_dropLastAck hb hs hw
        · exact h.fits_of_kept hb (Kept.refl _)

end

/-- A context is taken out of the queue when its connection ends. -/
theorem Tracked.unlink (hb : ¬s.Busy x) {c : DtpContext} (hended : c.Ended) :
    ({ s.step x c with queue := s.queue.erase x } : TimerHost).Tracked := by
  have hfits : Fits (s.queue.erase x) x c (s.opened x) :=
    fits_of_not_mem h.nodup.not_mem_erase hended.state (not_usable_of_ended hended) _
  exact h.replace hb (h.nodup.erase x) (fun y hy => List.mem_erase_of_ne hy) (hfits.step (s.ctx x).isActive)
    s.deadlineTime

end

/-- Only an active context is reordered, and only by two options. -/
theorem requeues_of_dtpSetsockopt {c : DtpContext} {o : SockOpt} {env : SockoptEnv}
    (h : (c.dtpSetsockopt o env).2.2 = true) : o.requeues = true ∧ c.isActive = true := by
  simp only [DtpContext.dtpSetsockopt] at h
  split_ifs at h with ha hl
  have hactive : c.isActive = true := by simpa using ha
  cases o with
  | blockSize n => exact ⟨rfl, hactive⟩
  | deadline n => exact ⟨rfl, hactive⟩
  | rcvBuf n =>
    simp only [DtpContext.setOption] at h
    split_ifs at h
  | rcvLoBuf high low =>
    simp only [DtpContext.setOption] at h
    split_ifs at h
  | _ => cases h

variable (h : s.Tracked)
include h

/-- A call of `dtp_setsockopt` has checked its context. -/
theorem Tracked.call (hb : ¬s.Busy x) (hu : (s.ctx x).Usable) (dt : ℕ → ℤ) :
    ({ s with deadlineTime := dt, calls := .remove x :: s.calls } : TimerHost).Tracked := by
  have hx := h.mem_of_usable hb hu
  refine ⟨h.nodup, h.linked, fun y hy => ?_, fun y hy => ?_, h.ended, h.lingers, ?_, fun y hy => ?_, fun y hy => ?_⟩
  · simpa using h.opened y hy
  · simpa using h.usable y hy
  · simp only [List.map_cons, List.nodup_cons]
    refine ⟨?_, h.single⟩
    intro hmem
    rcases List.mem_map.mp hmem with ⟨r, hr, hsock⟩
    exact hb ⟨r, hr, hsock⟩
  · rcases List.mem_cons.mp hy with heq | hy
    · rw [Requeue.remove.inj heq]
      exact ⟨hx, hu⟩
    · exact h.taking y hy
  · exact h.taken y (by simpa using hy)

/-- Another call for the same context is the same call. -/
theorem Tracked.call_unique {r r' : Requeue} (hr : r ∈ s.calls) (hr' : r' ∈ s.calls)
    (hsock : r.sock = r'.sock) : r = r' :=
  List.inj_on_of_nodup_map h.single hr hr' hsock

theorem Tracked.other_call {r r' : Requeue} (hr : r ∈ s.calls)
    (hr' : r' ∈ s.calls.erase r) : r' ∈ s.calls ∧ r'.sock ≠ r.sock := by
  have hold := List.mem_of_mem_erase hr'
  refine ⟨hold, fun hsock => ?_⟩
  have hnodup : s.calls.Nodup := List.Nodup.of_map _ h.single
  rw [h.call_unique hold hr hsock] at hr'
  exact hnodup.not_mem_erase hr'

theorem Tracked.remove (hr : .remove x ∈ s.calls) :
    ({ s with
      queue := s.queue.erase x
      calls := .insert x :: s.calls.erase (.remove x) } : TimerHost).Tracked := by
  rcases h.taking x hr with ⟨hx, hu⟩
  have hother : ∀ r ∈ s.calls.erase (.remove x), r ∈ s.calls ∧ r.sock ≠ x :=
    fun r hmem => h.other_call hr hmem
  have hkeep : ∀ y, y ∈ s.queue ∨ .insert y ∈ s.calls →
      y ∈ s.queue.erase x ∨ .insert y ∈ (Requeue.insert x :: s.calls.erase (.remove x)) := by
    intro y hy
    by_cases hyx : y = x
    · simp [hyx]
    · rcases hy with hy | hy
      · exact .inl ((List.mem_erase_of_ne hyx).mpr hy)
      · exact .inr (List.mem_cons_of_mem _ ((List.mem_erase_of_ne (by simp)).mpr hy))
  refine ⟨h.nodup.erase x, fun y hy => h.linked y (List.mem_of_mem_erase hy),
    fun y hy => hkeep y (h.opened y hy), fun y hy => hkeep y (h.usable y hy),
    fun y hy => h.ended y (List.mem_of_mem_erase hy), fun y hy => h.lingers y (List.mem_of_mem_erase hy),
    ?_, fun y hy => ?_, fun y hy => ?_⟩
  · simp only [List.map_cons, List.nodup_cons, List.mem_map, not_exists, not_and]
    exact ⟨fun r hmem => (hother r hmem).2, h.single.sublist (List.erase_sublist.map _)⟩
  · rcases List.mem_cons.mp hy with heq | hy
    · cases heq
    · rcases hother _ hy with ⟨hold, hne⟩
      rcases h.taking y hold with ⟨hyq, hyu⟩
      exact ⟨(List.mem_erase_of_ne hne).mpr hyq, hyu⟩
  · rcases List.mem_cons.mp hy with heq | hy
    · rw [Requeue.insert.inj heq]
      exact ⟨h.nodup.not_mem_erase, (h.linked x hx).1, hu⟩
    · rcases h.taken y (hother _ hy).1 with ⟨hyq, hyo, hyu⟩
      exact ⟨fun hmem => hyq (List.mem_of_mem_erase hmem), hyo, hyu⟩

theorem Tracked.insert (hr : .insert x ∈ s.calls) (dt : ℕ → ℤ) :
    ({ s with
      queue := s.queue.orderedInsert (before dt) x
      calls := s.calls.erase (.insert x) } : TimerHost).Tracked := by
  rcases h.taken x hr with ⟨hx, ho, hu⟩
  have hother : ∀ r ∈ s.calls.erase (.insert x), r ∈ s.calls ∧ r.sock ≠ x :=
    fun r hmem => h.other_call hr hmem
  have hmem : ∀ y, y ∈ s.queue.orderedInsert (before dt) x ↔ y = x ∨ y ∈ s.queue := by simp
  have hkeep : ∀ y, y ∈ s.queue ∨ .insert y ∈ s.calls →
      y ∈ s.queue.orderedInsert (before dt) x ∨ .insert y ∈ s.calls.erase (.insert x) := by
    intro y hy
    rw [hmem]
    by_cases hyx : y = x
    · exact .inl (.inl hyx)
    · rcases hy with hy | hy
      · exact .inl (.inr hy)
      · exact .inr ((List.mem_erase_of_ne (by simpa using hyx)).mpr hy)
  refine ⟨(LinkOp.nodup_run (o := .insert x) h.nodup hx), fun y hy => ?_,
    fun y hy => hkeep y (h.opened y hy), fun y hy => hkeep y (h.usable y hy), fun y hy => ?_,
    fun y hy hw => ?_, h.single.sublist (List.erase_sublist.map _), fun y hy => ?_, fun y hy => ?_⟩
  · rcases (hmem y).mp hy with rfl | hy
    · exact ⟨ho, hu.active⟩
    · exact h.linked y hy
  · rcases (hmem y).mp hy with rfl | hy
    · exact ⟨hu.connReset, hu.connTimedOut⟩
    · exact h.ended y hy
  · rcases (hmem y).mp hy with rfl | hy
    · exact absurd (hu.waitACK.symm.trans hw) Bool.false_ne_true
    · exact h.lingers y hy hw
  · rcases h.taking y (hother _ hy).1 with ⟨hyq, hyu⟩
    exact ⟨(hmem y).mpr (.inr hyq), hyu⟩
  · rcases hother _ hy with ⟨hold, hne⟩
    rcases h.taken y hold with ⟨hyq, hyo, hyu⟩
    refine ⟨fun hin => ?_, hyo, hyu⟩
    rcases (hmem y).mp hin with heq | hin
    · exact hne heq
    · exact hyq hin

theorem Tracked.set (hb : ¬s.Busy x) {c : DtpContext} (hc : Fits s.queue x c (s.opened x)) :
    (s.set x c).Tracked := by
  have hset := h.replace hb h.nodup (fun _ _ => Iff.rfl) hc s.deadlineTime
  rwa [Function.update_eq_self] at hset

theorem Tracked.apply {e : TimerEvent} (he : s.allowed e) (hc : Careful s e) :
    LegalAll (before (s.deadlines e)) s.queue (s.ops e) ∧ (s.apply k e).Tracked := by
  cases e with
  | create x c now =>
    have hx : x ∉ s.queue := fun hx => absurd (he.1.symm.trans (h.linked x hx).1) Bool.false_ne_true
    have hb : ¬s.Busy x := by
      rintro ⟨r, hr, hsock⟩
      cases r with
      | remove y => exact hx (hsock ▸ (h.taking y hr).1)
      | insert y =>
        have ho := (h.taken y hr).2.1
        rw [show y = x from hsock, he.1] at ho
        cases ho
    have hlegal : LegalAll (before (s.deadlines (.create x c now))) s.queue [.clear x, .insert x] :=
      ⟨hx, hx, trivial⟩
    refine ⟨hlegal, h.replace hb (nodup_runAll h.nodup hlegal) ?_ ?_ _⟩
    · intro y hy
      simp [runAll, LinkOp.run, hy]
    · have hin : x ∈ runAll (before (s.deadlines (.create x c now))) s.queue [.clear x, .insert x] := by
        simp [runAll, LinkOp.run]
      exact ⟨fun _ => ⟨rfl, he.2.active⟩, fun _ => hin, fun _ => hin, fun _ => ⟨he.2.connReset, he.2.connTimedOut⟩,
        fun _ hw => absurd (he.2.waitACK.symm.trans hw) Bool.false_ne_true⟩
  | createFails x c now => cases hc
  | connect x addr fid n e =>
    have hk : Kept ((s.ctx x).startConnect addr fid n e) ((s.ctx x).dtpConnect addr fid n e) :=
      Kept.of_acts (.dtpWriteAvail _)
    exact ⟨trivial, h.set hc.2 (h.fits_of_opens hc.2 hc.1 hk.active hk.waitACK hk.connReset
      hk.connTimedOut)⟩
  | listen x bound alloc backlog =>
    refine ⟨trivial, h.set hc.2 ?_⟩
    apply h.fits_of_opens hc.2 hc.1 <;> simp only [DtpContext.dtpListen] <;> split_ifs <;> rfl
  | setsockopt x o env now =>
    refine ⟨trivial, ?_⟩
    have hk := Kept.of_acts (.dtpSetsockopt (s.ctx x) o env)
    have hset := h.set hc.1 (h.fits_of_kept hc.1 hk)
    simp only [TimerHost.apply, TimerHost.effect]
    by_cases hr : ((s.ctx x).dtpSetsockopt o env).2.2 = true
    · rcases requeues_of_dtpSetsockopt hr with ⟨ho, hactive⟩
      have hu := hc.2 ho hactive
      have hu' : ((s.set x ((s.ctx x).dtpSetsockopt o env).1).ctx x).Usable := by
        simp only [TimerHost.set, Function.update_self]
        exact ⟨hk.active.trans hu.active, hk.waitACK.trans hu.waitACK,
          hk.connReset.trans hu.connReset, hk.connTimedOut.trans hu.connTimedOut⟩
      rw [if_pos hr]
      exact hset.call hc.1 hu' _
    · rw [if_neg hr]
      exact hset
  | requeue r =>
    cases r with
    | remove x => exact ⟨⟨(h.taking x he).1, trivial⟩, h.remove he⟩
    | insert x => exact ⟨⟨(h.taken x he).1, trivial⟩, h.insert he _⟩
  | deadline x => exact ⟨⟨he.1, trivial⟩, h.unlink hc ⟨rfl, fun _ => .inr (.inl rfl)⟩⟩
  | event x e =>
    have hops : s.ops (.event x e) = if e.unlinks (s.ctx x) then [.remove x] else [] := rfl
    cases hu : e.unlinks (s.ctx x) with
    | false =>
      have hset := h.replace hc.1 h.nodup (fun _ _ => Iff.rfl)
        ((h.fits_event (k := k) hc.1 he.1 hc.2 hu).step (s.ctx x).isActive) s.deadlineTime
      simp only [TimerHost.apply, hops, hu, Bool.false_eq_true, if_false]
      exact ⟨trivial, hset⟩
    | true =>
      obtain ⟨hended, hwas⟩ := Event.ended k he.1 hu
      have hx : x ∈ s.queue := by
        rcases hwas with hs | ⟨env, htime⟩
        · exact h.mem_of_open hc.1 hs
        · exact he.2 env htime
      simp only [TimerHost.apply, hops, hu, if_true]
      exact ⟨⟨hx, trivial⟩, h.unlink hc.1 hended⟩

end TimerHost

/-! ## Runs -/

open TimerHost

/-- In every run of careful steps the retransmission queue contains no context twice, only a linked
context is removed, and only an unlinked one is inserted or cleared. -/
theorem queue_discipline (k : Crypto) {s : TimerHost}
    (hs : ((retransmitting k).restrict Careful).Reachable s) :
    s.queue.Nodup ∧ ∀ e, s.allowed e → Careful s e → LegalAll (before (s.deadlines e)) s.queue (s.ops e) := by
  have htracked : s.Tracked := by
    refine Machine.Reachable.invariant (P := Tracked) ?_ ?_ hs
    · intro s hinit
      rw [hinit]
      exact tracked_empty
    · intro s e h he
      exact (h.apply he.1 he.2).2
  exact ⟨htracked.nodup, fun e he hc => (htracked.apply (k := k) he hc).1⟩

/-- A socket is created, connected, and given a block size. -/
def blockRun : List TimerEvent :=
  [.create 3 dtpCreateContext 0, .connect 3 default 7 [] [],
    .setsockopt 3 (.blockSize 1000) ⟨true, true, .done ()⟩ 5, .requeue (.remove 3)]

theorem queue_discipline_block_size :
    ∃ s, ((retransmitting sampleCrypto).restrict Careful).Reachable s ∧ s.queue = [] ∧
      s.allowed (.requeue (.insert 3)) ∧
      LegalAll (before (s.deadlines (.requeue (.insert 3)))) s.queue (s.ops (.requeue (.insert 3))) := by
  have hidle : ∀ s : TimerHost, s.calls = [] → ¬s.Busy 3 := by
    rintro s hs ⟨r, hr, -⟩
    rw [hs] at hr
    cases hr
  have hadm : ((retransmitting sampleCrypto).restrict Careful).Admits empty blockRun := by
    refine ⟨⟨⟨rfl, rfl, rfl, rfl, rfl, .inl rfl⟩, trivial⟩,
      ⟨trivial, ⟨by decide +kernel, by decide +kernel, by decide +kernel, by decide +kernel⟩, hidle _ rfl⟩,
      ⟨trivial, hidle _ rfl, fun _ _ => ⟨by decide +kernel, by decide +kernel, by decide +kernel,
        by decide +kernel⟩⟩, ⟨?_, trivial⟩, trivial⟩
    change Requeue.remove 3 ∈ _
    decide +kernel
  have hs := Machine.Reachable.run (.init rfl) hadm
  have he : ((retransmitting sampleCrypto).run empty blockRun).allowed (.requeue (.insert 3)) := by
    change Requeue.insert 3 ∈ _
    decide +kernel
  exact ⟨_, hs, by decide +kernel, he, (queue_discipline sampleCrypto hs).2 _ he trivial⟩

/-- A challenge from a foreign address takes the context out of the queue and leaves it active. -/
def resetRun : List TimerEvent :=
  [.create 3 { dtpCreateContext with state := .synRcvd } 0,
    .event 3 (.chg (mkDatagram (dtpGenerateHeader 0 0 0 { chg := true } 0) (bytes32 1)) ⟨1, 1⟩),
    .setsockopt 3 (.blockSize 1000) ⟨true, true, .done ()⟩ 5]

/-- `dtp_setsockopt` then removes a context that is not there. -/
theorem second_removal :
    ∃ s, (retransmitting sampleCrypto).Reachable s ∧ s.allowed (.requeue (.remove 3)) ∧
      s.queue = [] ∧ ¬LegalAll (before (s.deadlines (.requeue (.remove 3)))) s.queue
        (s.ops (.requeue (.remove 3))) := by
  have hadm : (retransmitting sampleCrypto).Admits empty resetRun := by
    refine ⟨⟨rfl, rfl, rfl, rfl, rfl, .inr rfl⟩, ⟨?_, fun env h => by cases h⟩, trivial, trivial⟩
    change DtpContext.receives _ = true
    decide +kernel
  have hq : ((retransmitting sampleCrypto).run empty resetRun).queue = [] := by decide +kernel
  refine ⟨_, Machine.Reachable.run (.init rfl) hadm, ?_, hq, fun h => ?_⟩
  · change Requeue.remove 3 ∈ _
    decide +kernel
  · have hmem : 3 ∈ ((retransmitting sampleCrypto).run empty resetRun).queue := h.1
    rw [hq] at hmem
    cases hmem

end Cedos.Dtp
