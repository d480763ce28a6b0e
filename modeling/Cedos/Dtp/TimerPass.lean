import Cedos.Dtp.Mobile
import Cedos.Dtp.RetransQueue
import Cedos.Lib.Foreach

/-!
# Passes over all flows

`HandleTimeout` and `HandleDeadline` go over the retransmission queue. A context whose `TIME_WAIT` or `LAST_ACK` is
over is noted, and taken out of the queue when the loop is at the next one. `DTPCloseConnection`, called where the
keep-alive probes are exhausted and where a deadline has passed, takes the context out at once; `TAILQ_REMOVE` clears
its links, and the loop does not come to the contexts behind it.

`HandleDeadline` belongs to the build for mobile hosts. There `DTPSendACKPacket` sends only where a network may be
used; the flag it sets in the header on a cellular network is not modelled.
-/

namespace Cedos.Dtp

open DtpContext

/-! ## `HandleTimeout` -/

namespace DtpContext

/-- The keep-alive probes are exhausted. -/
def probesExhausted (c : DtpContext) (env : TimerEnv) : Bool :=
  decide (c.state ≠ .timeWait) && c.keepAliveDue env && !decide (c.sentProbes < c.keepAliveProbes)

/-- The body of the loop of `HandleTimeout`, without the closing of the context noted before. -/
def timeoutVisit (c : DtpContext) (env : TimerEnv) : DtpContext × Fate :=
  if c.state = .timeWait then (c, if env.waitExpired then .later else .stays)
  else if c.keepAliveDue env ∧ ¬c.sentProbes < c.keepAliveProbes then (c.dtpCloseConnection, .atOnce)
  else
    let r := timeoutLoop env 0 [] (c.beforeQueue env).packetQ (c.beforeQueue env)
    (r.1, if r.2 then .later else .stays)

theorem timeoutVisit_atOnce (c : DtpContext) (env : TimerEnv) :
    (c.timeoutVisit env).2 = .atOnce ↔ c.probesExhausted env = true := by
  rw [timeoutVisit, probesExhausted]
  by_cases hs : c.state = .timeWait
  · rw [if_pos hs]
    cases env.waitExpired <;> simp [hs]
  · rw [if_neg hs]
    by_cases hk : c.keepAliveDue env ∧ ¬c.sentProbes < c.keepAliveProbes
    · simp [hs, hk]
    · rw [if_neg hk]
      have hdue : c.keepAliveDue env = true → c.sentProbes < c.keepAliveProbes := by simpa using hk
      dsimp only
      cases (timeoutLoop env 0 [] (c.beforeQueue env).packetQ (c.beforeQueue env)).2 <;> simpa [hs] using hdue

end DtpContext

/-- `HandleTimeout`, with the outcome of the comparisons with the clock for each context. -/
def timeoutPass (env : ℕ → TimerEnv) : Visit ℕ DtpContext where
  body x c := c.timeoutVisit (env x)
  close := expire

/-! ## `HandleDeadline` -/

/-- A context with all that `HandleDeadline` counts. -/
structure DeadlineContext extends MobileContext where
  schedAllowTime : ℤ := 0

namespace DeadlineContext

def hasDeadline (m : DeadlineContext) : Bool := m.ctx.isDeadlineSet && decide (0 < m.ctx.deadline)

def deadlinePassed (now : ℚ) (m : DeadlineContext) : Bool :=
  m.hasDeadline && decide (m.deadlineTime.seconds - now ≤ 0)

/-- Whether the flow needs the cellular network to meet its deadline. -/
def chooseMobile (net : Networks) (now : ℚ) (m : DeadlineContext) : DeadlineContext :=
  let diff := m.deadlineTime.seconds - now
  { m with
    useMobile :=
      if (diff - 30) * m.mobileSpeed ≤ m.ctx.blockRemain.toNat ∧ m.isWifiOnly = false then true
      else if 0 < m.ctx.deadline ∧ net.wifiConnected = false then false
      else m.useMobile }

/-- `DTPStartMobileBWMeasuring`. -/
def startMobileBWMeasuring (m : DeadlineContext) : DeadlineContext :=
  { m with isMobileBWMeasuring := true, mobileCounter := 0, lastBlockRemain := m.ctx.blockRemain }

/-- `DTPStopMobileBWMeasuring`. -/
def stopMobileBWMeasuring (m : DeadlineContext) : DeadlineContext := { m with isMobileBWMeasuring := false }

/-- `DTPCalculateMobileBW`. -/
def calculateMobileBW (m : DeadlineContext) : DeadlineContext :=
  { m with
    mobileSpeed := (m.lastBlockRemain - m.ctx.blockRemain).toNat / 5
    mobileCounter := 0
    lastBlockRemain := m.ctx.blockRemain }

/-- One more second of the measurement. -/
def countMobileBW (m : DeadlineContext) : DeadlineContext :=
  let m := { m with mobileCounter := m.mobileCounter + 1 }
  if m.mobileCounter = 5 then m.calculateMobileBW else m

/-- Start, stop and continue the measurement. -/
def measureMobileBW (net : Networks) (m : DeadlineContext) : DeadlineContext :=
  let m := if (m.useMobile && net.mobileConnected) && !m.isMobileBWMeasuring
    then m.startMobileBWMeasuring else m
  let m := if !(m.useMobile && net.mobileConnected) && m.isMobileBWMeasuring
    then m.stopMobileBWMeasuring else m
  if m.isMobileBWMeasuring then m.countMobileBW else m

/-- The body of the first loop over the contexts. -/
def deadlineVisit (net : Networks) (now : ℚ) (m : DeadlineContext) : DeadlineContext × Fate :=
  if m.hasDeadline then
    if m.deadlineTime.seconds - now ≤ 0 then ({ m with ctx := m.ctx.dtpCloseConnection }, .atOnce)
    else if net.useScheduler then (m, .stays)
    else ((m.chooseMobile net now).measureMobileBW net, .stays)
  else (m, .stays)

/-- `IsAvailConnection`. -/
def isAvailConnection (net : Networks) (m : DeadlineContext) : Bool :=
  if net.useScheduler then
    if m.ctx.state = .established then !m.ctx.isDeadlineSet || m.scheduleSend else true
  else
    ((net.mobileConnected && m.useMobile) || net.wifiConnected) &&
      (if m.ctx.state ≠ .established ∨ m.ctx.rcvLoBufHB = 0 then true
      -- the comparison is unsigned
      else if m.ctx.limitRcvBuf then decide (u32 m.ctx.getReadBufDataSize < m.ctx.rcvLoBufHB)
      else true)

/-- The body of the loop at the end. -/
def ackVisit (net : Networks) (m : DeadlineContext) : DeadlineContext × Fate :=
  if m.ctx.state = .established then
    ({ m with
      schedAllowTime := m.schedAllowTime + 1
      ctx := if m.isAvailConnection net then m.ctx.dtpSendACKPacket else m.ctx }, .stays)
  else (m, .stays)

theorem deadlineVisit_atOnce (net : Networks) (now : ℚ) (m : DeadlineContext) :
    (m.deadlineVisit net now).2 = .atOnce ↔ m.deadlinePassed now = true := by
  rw [deadlineVisit, deadlinePassed]
  by_cases hd : m.hasDeadline = true
  · by_cases ht : m.deadlineTime.seconds - now ≤ 0
    · simp [hd, ht]
    · rw [if_pos hd, if_neg ht]
      cases net.useScheduler <;> simp [ht]
  · simp [hd]

end DeadlineContext

/-- The first loop of `HandleDeadline`. -/
def deadlinePass (net : Networks) (now : ℚ) : Visit ℕ DeadlineContext where
  body _ m := m.deadlineVisit net now
  close := id

/-- The last. -/
def ackPass (net : Networks) : Visit ℕ DeadlineContext where
  body _ m := m.ackVisit net
  close := id

/-- The speeds as they are measured while the first flow of the queue sends. -/
def measureSpeeds (net : Networks) (q : List ℕ) (s : ItemQueue ℕ DeadlineContext) :
    ItemQueue ℕ DeadlineContext × Networks :=
  match q with
  | [] => (s, net)
  | x :: _ =>
    if (s.item x).scheduleSend then
      let total : ℚ := (q.map fun y =>
        (((s.item y).lastBlockRemain - (s.item y).ctx.blockRemain).toNat : ℚ)).sum
      let speed := 8 * total / 1000 / 1000 / 5
      let item y := if y ∈ q then { s.item y with lastBlockRemain := (s.item y).ctx.blockRemain } else s.item y
      let net :=
        if net.wifiConnected && decide (0 < total) then
          if net.wifiActivated then { net with wifiSpeed := speed } else { net with mobileSpeed := speed }
        else if net.mobileConnected && decide (0 < total) then { net with mobileSpeed := speed }
        else net
      ({ s with item := item }, net)
    else (s, net)

def runSchedule (net : Networks) (now : ℚ) (q : List ℕ) (s : ItemQueue ℕ DeadlineContext) :
    ItemQueue ℕ DeadlineContext × Networks :=
  let r := schedule net now net.wifiSpeed net.mobileSpeed (q.map fun x => (s.item x).toMobileContext)
  let item x := match (q.zip r.1).lookup x with
    | some m => { s.item x with toMobileContext := m }
    | none => s.item x
  ({ s with item := item }, r.2)

/-- `HandleDeadline`, with the contexts its first loop has come to. `Schedule` reads the clock again. -/
def handleDeadline (rounds : ℕ) (net : Networks) (now later : ℚ) (s : ItemQueue ℕ DeadlineContext) :
    (ItemQueue ℕ DeadlineContext × Networks) × List ℕ :=
  let m := measureSpeeds net (s.queue rounds) s
  let r := m.1.foreach (deadlinePass m.2 now) rounds
  let t := if m.2.useScheduler then runSchedule m.2 later (r.1.queue rounds) r.1 else (r.1, m.2)
  (((t.1.foreach (ackPass t.2) rounds).1, t.2), r.2)

/-- `HandleDeadline` as a pass over the queue. -/
def deadlines (rounds : ℕ) (net : Networks) (now later : ℚ) (s : ItemQueue ℕ DeadlineContext) :
    ItemQueue ℕ DeadlineContext × List ℕ :=
  ((handleDeadline rounds net now later s).1.1, (handleDeadline rounds net now later s).2)

/-! ## Without the scheduler -/

/-- Without the scheduler no flow has been told to send. -/
structure SchedulerOff (net : Networks) (s : ItemQueue ℕ DeadlineContext) : Prop where
  global : net.useScheduler = false
  unscheduled : ∀ x, (s.item x).scheduleSend = false

namespace SchedulerOff
variable {net : Networks} {s : ItemQueue ℕ DeadlineContext} {rounds : ℕ} {now later : ℚ} (h : SchedulerOff net s)
include h

theorem measureSpeeds_eq (q : List ℕ) : measureSpeeds net q s = (s, net) := by
  cases q with
  | nil => rfl
  | cons x q => simp [measureSpeeds, h.unscheduled x]

/-- What is left of `HandleDeadline` are two loops. -/
theorem handleDeadline_eq :
    handleDeadline rounds net now later s =
      (((s.foreach (deadlinePass net now) rounds).1.foreach (ackPass net) rounds |>.1, net),
        (s.foreach (deadlinePass net now) rounds).2) := by
  rw [handleDeadline, h.measureSpeeds_eq]
  simp [h.global]

theorem solo (x : ℕ) : SchedulerOff net (s.solo x) := ⟨h.global, h.unscheduled⟩

theorem deadlines_eq : deadlines rounds net now later s =
    ItemQueue.followed (ackPass net) rounds (ItemQueue.foreach (deadlinePass net now) rounds) s := by
  rw [deadlines, h.handleDeadline_eq]
  rfl

end SchedulerOff

theorem stays_ackPass (net : Networks) (x : ℕ) (m : DeadlineContext) : ((ackPass net).body x m).2 = .stays := by
  change (m.ackVisit net).2 = .stays
  rw [DeadlineContext.ackVisit]
  split_ifs <;> rfl

/-! ## Independence -/

/-- In a pass of either timer each context fares as it would alone exactly when, of those before the last, none has
exhausted its probes, and none has missed its deadline. -/
theorem timer_passes_independent_iff (rounds : ℕ) (q : List ℕ) (hrounds : q.length ≤ rounds) :
    (∀ (env : ℕ → TimerEnv) (s : ItemQueue ℕ DtpContext), s.Lists q →
      (ItemQueue.Independent (ItemQueue.foreach (timeoutPass env) rounds) rounds s q ↔
        ∀ x ∈ q.dropLast, (s.item x).probesExhausted (env x) = false)) ∧
      ∀ (net : Networks) (now later : ℚ) (s : ItemQueue ℕ DeadlineContext), s.Lists q → SchedulerOff net s →
        (ItemQueue.Independent (deadlines rounds net now later) rounds s q ↔
          ∀ x ∈ q.dropLast, (s.item x).deadlinePassed now = false) := by
  constructor
  · intro env s hs
    rw [(ItemQueue.local_foreach (timeoutPass env) rounds).independent_iff hs hrounds]
    refine forall₂_congr fun x _ => ?_
    rw [← Bool.not_eq_true, ← timeoutVisit_atOnce]
    rfl
  · intro net now later s hs hoff
    have hlocal := (ItemQueue.local_foreach (deadlinePass net now) rounds).followed (stays_ackPass net)
    rw [ItemQueue.Independent.congr hoff.deadlines_eq fun x => (hoff.solo x).deadlines_eq,
      hlocal.independent_iff hs hrounds]
    refine forall₂_congr fun x _ => ?_
    rw [← Bool.not_eq_true, ← DeadlineContext.deadlineVisit_atOnce net]
    rfl

def sampleTwo {σ : Type} (c c' : σ) : ItemQueue ℕ σ where
  links := (TailQueues.init.insertHead () 2).insertHead () 1
  item x := if x = 1 then c else c'

theorem lists_sampleTwo {σ : Type} (c c' : σ) : (sampleTwo c c').Lists [1, 2] := by
  have hone := TailQueues.Holds.insertHead (b := ()) (a := 2) TailQueues.holds_init (by simp)
  have htwo := TailQueues.Holds.insertHead (b := ()) (a := 1) hone (by simp)
  have hlist : (fun _ : Unit => [1, 2]) =
      Function.update (Function.update (fun _ => []) () [2]) () (1 :: Function.update (fun _ => []) () [2] ()) := by
    ext u
    simp
  rw [ItemQueue.Lists, hlist]
  exact htwo

def sampleExpired : TimerEnv where
  waitExpired := true
  keepAliveExpired := true
  persistExpired := true
  ifaceSet := false
  expired _ := true
  lastExpired _ := true

def sampleWaiting : DtpContext := { dtpCreateContext with state := .timeWait }

/-- The peer of a context has answered none of the probes. -/
def sampleUnanswered : DtpContext :=
  { dtpCreateContext with state := .established, isKeepAliveEnabled := true, sentProbes := 75 }

/-- A flow with a deadline at a given second. -/
def sampleDeadlineAt (t : ℤ) : DeadlineContext where
  ctx := { dtpCreateContext with state := .established, isDeadlineSet := true, deadline := 10 }
  deadlineTime := ⟨t, 0⟩

theorem schedulerOff_sampleTwo (t t' : ℤ) :
    SchedulerOff { useScheduler := false } (sampleTwo (sampleDeadlineAt t) (sampleDeadlineAt t')) := by
  refine ⟨rfl, fun x => ?_⟩
  simp only [sampleTwo]
  split_ifs <;> rfl

/-- Two contexts are closed at the end of `TIME_WAIT`, and one at its deadline. -/
theorem timer_passes_independent_two :
    ItemQueue.Independent (ItemQueue.foreach (timeoutPass fun _ => sampleExpired) 2) 2
        (sampleTwo sampleWaiting sampleWaiting) [1, 2] ∧
      ItemQueue.Independent (deadlines 2 { useScheduler := false } 20 20) 2
        (sampleTwo (sampleDeadlineAt 100) (sampleDeadlineAt 10)) [1, 2] := by
  obtain ⟨htimeout, hdeadline⟩ := timer_passes_independent_iff 2 [1, 2] (by decide)
  constructor
  · refine (htimeout _ _ (lists_sampleTwo _ _)).mpr ?_
    decide +kernel
  · refine (hdeadline _ 20 20 _ (lists_sampleTwo _ _) (schedulerOff_sampleTwo 100 10)).mpr ?_
    decide +kernel

/-- The first context is closed, and the second is not looked at: its `TIME_WAIT` or its deadline is over, and alone
it would have been closed. -/
theorem timer_passes_skip_second :
    (((sampleTwo sampleUnanswered sampleWaiting).foreach (timeoutPass fun _ => sampleExpired) 2).2 = [1] ∧
        (((sampleTwo sampleUnanswered sampleWaiting).foreach (timeoutPass fun _ => sampleExpired) 2).1.item 2).state =
          .timeWait ∧
        ((((sampleTwo sampleUnanswered sampleWaiting).solo 2).foreach (timeoutPass fun _ => sampleExpired) 2).1.item
          2).state = .closed ∧
        ¬ItemQueue.Independent (ItemQueue.foreach (timeoutPass fun _ => sampleExpired) 2) 2
          (sampleTwo sampleUnanswered sampleWaiting) [1, 2]) ∧
      (deadlines 2 { useScheduler := false } 20 20 (sampleTwo (sampleDeadlineAt 5) (sampleDeadlineAt 10))).2 = [1] ∧
        ((deadlines 2 { useScheduler := false } 20 20
          (sampleTwo (sampleDeadlineAt 5) (sampleDeadlineAt 10))).1.item 2).ctx.state = .established ∧
        ((deadlines 2 { useScheduler := false } 20 20
          ((sampleTwo (sampleDeadlineAt 5) (sampleDeadlineAt 10)).solo 2)).1.item 2).ctx.state = .closed ∧
        ¬ItemQueue.Independent (deadlines 2 { useScheduler := false } 20 20) 2
          (sampleTwo (sampleDeadlineAt 5) (sampleDeadlineAt 10)) [1, 2] := by
  have htimeout : ((sampleTwo sampleUnanswered sampleWaiting).foreach
      (timeoutPass fun _ => sampleExpired) 2).2 = [1] := by decide +kernel
  have hdeadline : (deadlines 2 { useScheduler := false } 20 20
      (sampleTwo (sampleDeadlineAt 5) (sampleDeadlineAt 10))).2 = [1] := by decide +kernel
  refine ⟨⟨htimeout, by decide +kernel, by decide +kernel, ?_⟩, hdeadline, by decide +kernel, by decide +kernel, ?_⟩
  · intro hind
    have hvisited := hind.visited
    rw [htimeout] at hvisited
    simp at hvisited
  · intro hind
    have hvisited := hind.visited
    rw [hdeadline] at hvisited
    simp at hvisited

end Cedos.Dtp
