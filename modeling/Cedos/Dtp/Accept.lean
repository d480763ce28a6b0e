import Cedos.Dtp.Socket
import Cedos.Lib.Run

/-!
# The connection queue of a listening socket

`HandleSYNPacket` appends the new connections, on the library's thread; any number of application
threads take them out with `dtp_accept`. The queue is protected by `tc_readBufLock`, apart from the
test for room, which the library makes before it takes the lock. Both sides wait on one condition
variable. A waiting thread may return from its wait whenever the lock is free, so the signals need
no model of their own. The mutex and condition-variable calls themselves do not fail here.

`dtp_accept` takes the connection out of the queue before it looks at the address arguments, and
returns from that error without giving back the lock.
-/

namespace Cedos.Dtp

open DtpContext

def sockaddrInSize : UInt32 := 16

/-- What `dtp_accept` is given for the peer's address: whether `address` is a pointer, and what
`address_len` points to. -/
structure AcceptArgs where
  address : Bool
  addressLen : Option UInt32
  deriving DecidableEq, Repr

/-- No address is asked for, or the length is that of an address. -/
def AcceptArgs.Fit (a : AcceptArgs) : Prop :=
  a.address = true → a.addressLen = some sockaddrInSize

namespace DtpContext

/-- `dtp_listen`; `bound` is `tc_isBound` and `alloc` says that there is memory. The size of a queue
with a negative backlog is beyond any allocation. -/
def dtpListen (c : DtpContext) (bound alloc : Bool) (backlog : ℤ) : DtpContext × CallResult Unit :=
  if !bound then (c, .error .einval)
  else if c.state ≠ .closed then
    if c.state = .listen ∧ c.listenQ = [] then
      if alloc && decide (0 ≤ backlog) then ({ c with backlog := backlog }, .done ())
      else (c, .error .enomem)
    else (c, .error .einval)
  else if alloc && decide (0 ≤ backlog) then
    ({ c with state := .listen, listenQ := [], backlog := backlog }, .done ())
  else ({ c with state := .listen }, .error .enomem)

/-- The first connection leaves the queue, whose remaining entries move up. -/
def takeConnection (c : DtpContext) : DtpContext :=
  { c with
    listenQ := c.listenQ.tail
    pendingRead := c.pendingRead && decide (c.listenQ.tail ≠ []) }

/-- The end of `dtp_accept` for the connection `new`; the flag says that the lock is still held. -/
def answerAccept (a : AcceptArgs) (new : ℕ) : CallResult ℕ × Bool :=
  if a.address then
    match a.addressLen with
    | none => (.error .einval, true)
    -- `dtp_getpeername`
    | some len => if len = sockaddrInSize then (.done new, false) else (.error .einval, true)
  else (.done new, false)

/-- `dtp_accept` from the test of the queue on. -/
def acceptBody (c : DtpContext) (a : AcceptArgs) : DtpContext × CallResult ℕ × Bool :=
  match c.listenQ with
  | [] =>
    if c.nonblock then (c, .error .eagain, false)
    else ({ c with isReadBlocked := true }, .blocked, false)
  | new :: _ => (c.takeConnection, answerAccept a new)

end DtpContext

/-! ## The threads -/

/-- Where a call of `dtp_accept` stands. -/
inductive AcceptPhase
  | idle
  /-- before the lock -/
  | entered (a : AcceptArgs)
  /-- in `pthread_cond_wait` -/
  | waits (a : AcceptArgs)
  deriving DecidableEq, Repr

/-- Where the library stands with a new connection. -/
inductive SynPhase
  | idle
  /-- before the lock, with the new socket -/
  | created (new : ℕ)
  /-- in `pthread_cond_wait` -/
  | waits
  deriving DecidableEq, Repr

/-- A listening socket, its threads, and the connections that have been put into its queue and those
that calls of `dtp_accept` have returned. -/
structure Listening where
  ctx : DtpContext
  isTransportWaiting : Bool
  syn : SynPhase
  call : ℕ → AcceptPhase
  /-- the application thread that holds `tc_readBufLock` -/
  lock : Option ℕ
  arrived : List ℕ
  accepted : List ℕ

/-- The steps of the threads; each of them takes the lock and gives it back, or does not need it. -/
inductive ListenEvent
  /-- a SYN passes the test for room, and its context is created -/
  | syn (new : ℕ)
  | enqueue
  | synWakes
  | accept (t : ℕ) (a : AcceptArgs)
  | acquire (t : ℕ)
  | wakes (t : ℕ)
  deriving DecidableEq, Repr

namespace Listening

/-- No thread is at the socket yet. -/
def start (c : DtpContext) : Listening := ⟨c, false, .idle, fun _ => .idle, none, [], []⟩

/-- What a call of `dtp_accept` does once it has the lock. -/
def take (s : Listening) (t : ℕ) (a : AcceptArgs) : Listening :=
  let r := s.ctx.acceptBody a
  { s with
    ctx := r.1
    call := Function.update s.call t (if r.2.1 = .blocked then .waits a else .idle)
    lock := if r.2.2 then some t else none
    accepted := match r.2.1 with
      | .done new => s.accepted ++ [new]
      | _ => s.accepted }

/-- The call has been woken. -/
def unblock (s : Listening) : Listening := { s with ctx := { s.ctx with isReadBlocked := false } }

/-- The new connection enters the queue; the library then waits for a blocked call. -/
def enqueue (s : Listening) (new : ℕ) : Listening :=
  { s with
    ctx := { s.ctx with listenQ := s.ctx.listenQ ++ [new] }
    isTransportWaiting := s.isTransportWaiting || s.ctx.isReadBlocked
    syn := if s.ctx.isReadBlocked then .waits else .idle
    arrived := s.arrived ++ [new] }

/-- The checks of `dtp_accept` before its lock. -/
def mayAccept (s : Listening) : Prop := s.ctx.isActive = true ∧ s.ctx.state = .listen

instance (s : Listening) : Decidable s.mayAccept := inferInstanceAs (Decidable (_ ∧ _))

/-- One step. -/
def apply (s : Listening) : ListenEvent → Listening
  | .syn new => { s with syn := .created new }
  | .enqueue =>
    match s.syn with
    | .created new => s.enqueue new
    | _ => s
  | .synWakes => { s with syn := .idle, isTransportWaiting := false }
  | .accept t a => if s.mayAccept then { s with call := Function.update s.call t (.entered a) } else s
  | .acquire t =>
    match s.call t with
    | .entered a => s.take t a
    | _ => s
  | .wakes t =>
    match s.call t with
    | .waits a => s.unblock.take t a
    | _ => s

/-- When a step can be taken. -/
def allowed (s : Listening) : ListenEvent → Prop
  | .syn _ => s.syn = .idle ∧ (s.ctx.listenQ.length : ℤ) ≠ s.ctx.backlog
  | .enqueue => s.lock = none ∧ ∃ new, s.syn = .created new
  | .synWakes => s.lock = none ∧ s.syn = .waits
  | .accept t _ => s.call t = .idle
  | .acquire t => s.lock = none ∧ ∃ a, s.call t = .entered a
  | .wakes t => s.lock = none ∧ ∃ a, s.call t = .waits a

/-- The result a step brings to the call of a thread. -/
def result (s : Listening) : ListenEvent → Option (ℕ × CallResult ℕ)
  | .accept t _ =>
    if s.mayAccept then none
    else some (t, if s.ctx.isActive then .error .einval else .error .ebadf)
  | .acquire t =>
    match s.call t with
    | .entered a => some (t, (s.ctx.acceptBody a).2.1)
    | _ => none
  | .wakes t =>
    match s.call t with
    | .waits a => some (t, (s.unblock.ctx.acceptBody a).2.1)
    | _ => none
  | _ => none

end Listening

/-- The runs from a context on which `dtp_listen` has just succeeded. -/
def listening (c : DtpContext) : Machine Listening ListenEvent where
  init s := s = Listening.start c
  allowed := Listening.allowed
  apply := Listening.apply

/-- The address arguments of the calls are fit. -/
def WellCalled : ListenEvent → Prop
  | .accept _ a => a.Fit
  | _ => True

/-! ## What one step keeps -/

/-- The arguments a call has been given. -/
def AcceptPhase.args : AcceptPhase → Option AcceptArgs
  | .idle => none
  | .entered a => some a
  | .waits a => some a

namespace Listening

/-- Nothing is lost and nobody keeps the lock. -/
structure Sound (s : Listening) : Prop where
  bound : (s.ctx.listenQ.length : ℤ) ≤ s.ctx.backlog
  room : ∀ new, s.syn = .created new → (s.ctx.listenQ.length : ℤ) < s.ctx.backlog
  order : s.accepted ++ s.ctx.listenQ = s.arrived
  lock : s.lock = none
  fit : ∀ t a, (s.call t).args = some a → a.Fit

variable {s : Listening}

/-- With fit arguments the call returns the connection. -/
theorem answerAccept_of_fit {a : AcceptArgs} (ha : a.Fit) (new : ℕ) :
    answerAccept a new = (.done new, false) := by
  unfold answerAccept
  by_cases haddr : a.address = true
  · simp [haddr, ha haddr]
  · simp [haddr]

theorem fit_update {call : ℕ → AcceptPhase} (h : ∀ t a, (call t).args = some a → a.Fit) (t : ℕ)
    {p : AcceptPhase} (hp : ∀ a, p.args = some a → a.Fit) :
    ∀ u a, (Function.update call t p u).args = some a → a.Fit := by
  intro u a hu
  by_cases hut : u = t
  · rw [hut, Function.update_self] at hu
    exact hp a hu
  · rw [Function.update_of_ne hut] at hu
    exact h u a hu

/-- A call with fit arguments that gets the lock finds nothing, and the queue stays as it is, or
returns the first connection. -/
theorem take_of_fit {t : ℕ} {a : AcceptArgs} (ha : a.Fit) :
    (s.ctx.listenQ = [] ∧ ∃ c p, c.listenQ = [] ∧ c.backlog = s.ctx.backlog ∧ (p = .idle ∨ p = .waits a) ∧
        s.take t a = { s with ctx := c, call := Function.update s.call t p, lock := none }) ∨
      ∃ new q, s.ctx.listenQ = new :: q ∧ s.take t a = { s with
          ctx := s.ctx.takeConnection
          call := Function.update s.call t .idle
          lock := none
          accepted := s.accepted ++ [new] } := by
  cases hq : s.ctx.listenQ with
  | nil =>
    left
    by_cases hn : s.ctx.nonblock = true
    · refine ⟨rfl, s.ctx, .idle, hq, rfl, .inl rfl, ?_⟩
      simp [Listening.take, acceptBody, hq, hn]
    · refine ⟨rfl, { s.ctx with isReadBlocked := true }, .waits a, hq, rfl, .inr rfl, ?_⟩
      simp [Listening.take, acceptBody, hq, hn]
  | cons new q =>
    right
    refine ⟨new, q, rfl, ?_⟩
    simp [Listening.take, acceptBody, hq, answerAccept_of_fit ha]

theorem Sound.take (h : s.Sound) {t : ℕ} {a : AcceptArgs} (ha : a.Fit) : (s.take t a).Sound := by
  rcases take_of_fit (s := s) (t := t) ha with ⟨hq, c, p, hc, hb, hp, heq⟩ | ⟨new, q, hq, heq⟩
  · have hargs : ∀ b, p.args = some b → b.Fit := by
      intro b hpb
      rcases hp with rfl | rfl
      · cases hpb
      · rwa [← Option.some.inj hpb]
    rw [heq]
    refine ⟨?_, fun new hnew => ?_, ?_, rfl, fit_update h.fit t hargs⟩
    · simpa [hc, hq, hb] using h.bound
    · simpa [hc, hq, hb] using h.room new hnew
    · simpa [hc, hq] using h.order
  · have htail : s.ctx.takeConnection.listenQ = q := by simp [takeConnection, hq]
    have hbound := h.bound
    have horder := h.order
    simp only [hq, List.length_cons, Nat.cast_add, Nat.cast_one] at hbound horder
    rw [heq]
    refine ⟨?_, fun new' hnew => ?_, ?_, rfl, fit_update h.fit t fun b hb => by cases hb⟩
    · simp only [htail]
      exact (Int.le_of_lt (Int.lt_succ_self _)).trans hbound
    · simp only [htail]
      exact Int.add_one_le_iff.mp hbound
    · simp only [htail, List.append_assoc, List.singleton_append]
      exact horder

theorem Sound.unblock (h : s.Sound) : s.unblock.Sound :=
  ⟨h.bound, h.room, h.order, h.lock, h.fit⟩

theorem Sound.apply (h : s.Sound) {e : ListenEvent} (he : s.allowed e) (hc : WellCalled e) : (s.apply e).Sound := by
  cases e with
  | syn new =>
    -- nothing enters the queue before this connection does
    refine ⟨h.bound, fun _ _ => ?_, h.order, h.lock, h.fit⟩
    exact lt_of_le_of_ne h.bound he.2
  | enqueue =>
    rcases he with ⟨-, new, hnew⟩
    have hroom := h.room new hnew
    have horder := h.order
    simp only [Listening.apply, hnew, Listening.enqueue]
    refine ⟨?_, fun new' hnew' => ?_, ?_, h.lock, h.fit⟩
    · simp only [List.length_append, List.length_singleton]
      omega
    · split_ifs at hnew'
    · simp [← horder]
  | synWakes =>
    refine ⟨h.bound, fun new hnew => ?_, h.order, h.lock, h.fit⟩
    cases hnew
  | accept t a =>
    simp only [Listening.apply]
    by_cases hm : s.mayAccept
    · simp only [hm, if_true]
      have ha : ∀ b, (AcceptPhase.entered a).args = some b → b.Fit := by
        intro b hb
        rwa [← Option.some.inj hb]
      exact ⟨h.bound, h.room, h.order, h.lock, fit_update h.fit t ha⟩
    · simp only [hm, if_false]
      exact h
  | acquire t =>
    rcases he with ⟨-, a, ha⟩
    simp only [Listening.apply, ha]
    exact h.take (h.fit t a (by simp [ha, AcceptPhase.args]))
  | wakes t =>
    rcases he with ⟨-, a, ha⟩
    simp only [Listening.apply, ha]
    exact h.unblock.take (h.fit t a (by simp [ha, AcceptPhase.args]))

/-- A call that fails once it has the lock leaves the queue as it is. -/
theorem listenQ_take_of_error {t : ℕ} {a : AcceptArgs} (ha : a.Fit) {err : Errno}
    (hr : (s.ctx.acceptBody a).2.1 = .error err) : (s.take t a).ctx.listenQ = s.ctx.listenQ := by
  rcases take_of_fit (s := s) (t := t) ha with ⟨hq, c, p, hc, -, -, heq⟩ | ⟨new, q, hq, -⟩
  · rw [heq, hq]
    exact hc
  · simp [acceptBody, hq, answerAccept_of_fit ha] at hr

theorem Sound.listenQ_of_error (h : s.Sound) {e : ListenEvent} {t : ℕ} {err : Errno}
    (hr : s.result e = some (t, .error err)) : (s.apply e).ctx.listenQ = s.ctx.listenQ := by
  cases e with
  | accept u a =>
    simp only [Listening.apply]
    split_ifs <;> rfl
  | acquire u =>
    cases hc : s.call u with
    | entered a =>
      simp only [Listening.result, hc, Option.some.injEq, Prod.mk.injEq] at hr
      simp only [Listening.apply, hc]
      exact listenQ_take_of_error (h.fit u a (by simp [hc, AcceptPhase.args])) hr.2
    | _ => simp [Listening.result, hc] at hr
  | wakes u =>
    cases hc : s.call u with
    | waits a =>
      simp only [Listening.result, hc, Option.some.injEq, Prod.mk.injEq] at hr
      simp only [Listening.apply, hc]
      exact listenQ_take_of_error (s := s.unblock) (h.fit u a (by simp [hc, AcceptPhase.args])) hr.2
    | _ => simp [Listening.result, hc] at hr
  | _ => simp [Listening.result] at hr

end Listening

/-! ## Runs -/

theorem Listening.sound_of_dtpListen {c : DtpContext} {alloc : Bool} {backlog : ℤ}
    (hc : c.state = .closed) (hl : (c.dtpListen true alloc backlog).2 = .done ()) :
    (Listening.start (c.dtpListen true alloc backlog).1).Sound := by
  have hb : (alloc && decide (0 ≤ backlog)) = true := by
    by_contra hno
    simp [dtpListen, hc, hno] at hl
  have heq : (c.dtpListen true alloc backlog).1 = { c with state := .listen, listenQ := [], backlog := backlog } := by
    simp [dtpListen, hc, hb]
  simp only [Bool.and_eq_true, decide_eq_true_eq] at hb
  rw [heq]
  constructor
  · exact hb.2
  · intro new hnew
    cases hnew
  · rfl
  · rfl
  · intro t a ha
    cases ha

/-- At a listening socket whose `dtp_accept` calls ask for no address or for one of the right length,
in every run: the queue stays within the backlog, what the calls have returned followed by what waits
is what has arrived, and a call that returns -1 leaves the queue alone and keeps no lock. -/
theorem accept_loses_nothing {c : DtpContext} {alloc : Bool} {backlog : ℤ} (hc : c.state = .closed)
    (hl : (c.dtpListen true alloc backlog).2 = .done ()) {s : Listening}
    (hs : ((listening (c.dtpListen true alloc backlog).1).restrict fun _ => WellCalled).Reachable s) :
    (s.ctx.listenQ.length : ℤ) ≤ s.ctx.backlog ∧ s.accepted ++ s.ctx.listenQ = s.arrived ∧
      ∀ e t err, s.allowed e → WellCalled e → s.result e = some (t, .error err) →
        (s.apply e).ctx.listenQ = s.ctx.listenQ ∧ (s.apply e).lock = none := by
  have hsound : s.Sound := by
    refine Machine.Reachable.invariant (P := Listening.Sound) ?_ ?_ hs
    · intro s hinit
      rw [hinit]
      exact Listening.sound_of_dtpListen hc hl
    · intro s e h he
      exact h.apply he.1 he.2
  exact ⟨hsound.bound, hsound.order, fun e t err he hfit hr =>
    ⟨hsound.listenQ_of_error hr, (hsound.apply he hfit).lock⟩⟩

/-- A fresh context on which `dtp_listen` has been called with room for two connections. -/
def sampleListener : DtpContext := (DtpContext.dtpCreateContext.dtpListen true true 2).1

/-- Two connections arrive while a call waits for one. -/
def sampleArrivals : List ListenEvent :=
  [.accept 1 ⟨true, some 16⟩, .acquire 1, .syn 7, .enqueue, .wakes 1, .synWakes, .syn 8, .enqueue]

/-- The call returns the first of them, the other one waits. -/
theorem accept_loses_nothing_in_order :
    ∃ s, ((listening sampleListener).restrict fun _ => WellCalled).Reachable s ∧
      s.arrived = [7, 8] ∧ s.accepted ++ s.ctx.listenQ = [7, 8] ∧ s.ctx.listenQ = [8] := by
  have hadm : ((listening sampleListener).restrict fun _ => WellCalled).Admits (.start sampleListener)
      sampleArrivals := by
    refine ⟨⟨rfl, fun _ => rfl⟩, ⟨⟨rfl, ⟨true, some 16⟩, by decide +kernel⟩, trivial⟩,
      ⟨⟨rfl, by decide +kernel⟩, trivial⟩, ⟨⟨rfl, _, rfl⟩, trivial⟩,
      ⟨⟨rfl, ⟨true, some 16⟩, by decide +kernel⟩, trivial⟩, ⟨⟨rfl, by decide +kernel⟩, trivial⟩,
      ⟨⟨rfl, by decide +kernel⟩, trivial⟩, ⟨⟨rfl, _, rfl⟩, trivial⟩, trivial⟩
  have hs := Machine.Reachable.run (.init rfl) hadm
  refine ⟨_, hs, by decide +kernel, ?_, by decide +kernel⟩
  rw [(accept_loses_nothing (c := DtpContext.dtpCreateContext) rfl rfl hs).2.1]
  decide +kernel

/-- A call that asks for the address without a length takes the connection out of the queue, returns
-1, and keeps the lock. -/
theorem refused_accept_loses :
    ∃ s e, (listening sampleListener).Reachable s ∧ s.allowed e ∧
      s.result e = some (1, .error .einval) ∧ s.ctx.listenQ = [7] ∧
      (s.apply e).ctx.listenQ = [] ∧ (s.apply e).lock = some 1 ∧
      (s.apply e).accepted ++ (s.apply e).ctx.listenQ ≠ (s.apply e).arrived := by
  have hadm : (listening sampleListener).Admits (.start sampleListener)
      [.syn 7, .enqueue, .accept 1 ⟨true, none⟩] :=
    ⟨⟨rfl, by decide +kernel⟩, ⟨rfl, _, rfl⟩, rfl, trivial⟩
  refine ⟨_, .acquire 1, Machine.Reachable.run (.init rfl) hadm, ⟨rfl, ⟨true, none⟩, by decide +kernel⟩, ?_⟩
  decide +kernel

end Cedos.Dtp
