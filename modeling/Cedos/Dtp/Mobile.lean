import Mathlib.Data.List.Infix
import Mathlib.Data.Rat.Defs
import Mathlib.Algebra.Order.Field.Rat
import Mathlib.Tactic.Ring
import Mathlib.Tactic.NormNum
import Cedos.Lib.LatestStart
import Cedos.Dtp.Context

/-!
# Deadlines and the scheduler

The fields of a context that `scheduler.c` and the deadline timer of `dtp_mobile.c`
read, and `Schedule`. Times are seconds and speeds are Mbps; the doubles of the source are rationals.

`Schedule` walks over the retransmission queue from its end. It takes every flow to
be sent over the cellular network after those before it, and finds the time at which the first
has to be started for all to meet their deadlines, give or take a second.
A value of 0 stands for "not set yet".
-/

namespace Cedos.Dtp

/-- `struct timeval`. -/
structure Timeval where
  sec : ℤ
  usec : ℤ
  deriving DecidableEq, Repr, Inhabited

def Timeval.seconds (t : Timeval) : ℚ := t.sec + t.usec / 1000000

/-- A context with the fields of `dtp_mobile.c` and `scheduler.c`. -/
structure MobileContext where
  ctx : DtpContext
  deadlineTime : Timeval
  scheduleSend : Bool := false
  useMobile : Bool := false
  isWifiOnly : Bool := false
  isMobileBWMeasuring : Bool := false
  mobileSpeed : ℚ := 0
  mobileCounter : ℤ := 0
  lastBlockRemain : UInt32 := 0

/-- The global variables of `dtp_mobile.h`. -/
structure Networks where
  mobileConnected : Bool := false
  wifiConnected : Bool := false
  wifiActivated : Bool := true
  mobileSpeed : ℚ := 1
  wifiSpeed : ℚ := 1
  useScheduler : Bool := true

/-! ## `Schedule` -/

namespace MobileContext

/-- `tc_deadlineTime` and one second. -/
def due (m : MobileContext) : ℚ := m.deadlineTime.seconds + 1

/-- How long the rest of the block takes. -/
def transferTime (cSpeed : ℚ) (m : MobileContext) : ℚ :=
  m.ctx.blockRemain.toNat * 8 / (cSpeed * 1000 * 1000)

/-- One round of the loop. -/
def edfStep (cSpeed : ℚ) (m : MobileContext) (t : ℚ) : ℚ :=
  if t = 0 then m.due - m.transferTime cSpeed
  else (if t < m.due then t else m.due) - m.transferTime cSpeed

/-- `T_EDF`, from the end of the queue. -/
def edf (cSpeed : ℚ) (q : List MobileContext) : ℚ := q.foldr (edfStep cSpeed) 0

end MobileContext

def schedule (net : Networks) (now wSpeed cSpeed : ℚ) (q : List MobileContext) :
    List MobileContext × Networks :=
  let t := MobileContext.edf cSpeed q
  match q.map fun m => { m with scheduleSend := false } with
  | [] => ([], net)
  | m :: ms =>
    if net.mobileConnected then ({ m with scheduleSend := decide (t - now ≤ 0) } :: ms, net)
    else
      -- with WiFi the first flow may always send, but perhaps not over WiFi
      ({ m with scheduleSend := true } :: ms,
        { net with wifiActivated := !(decide (wSpeed < cSpeed) && decide (t - now ≤ 0)) })

namespace MobileContext
variable {cSpeed : ℚ} {m : MobileContext} {q : List MobileContext}

/-- The rest of a block as a job. -/
def job (cSpeed : ℚ) (m : MobileContext) : Job ℚ := ⟨m.transferTime cSpeed, m.due⟩

/-- The walk has never held a 0 by accident: none of what follows the first flow ends in it. -/
def NeverZero (cSpeed : ℚ) (q : List MobileContext) : Prop :=
  ∀ r, r ≠ [] → r <:+ q → r ≠ q → edf cSpeed r ≠ 0

theorem NeverZero.tail (h : NeverZero cSpeed (m :: q)) : NeverZero cSpeed q := by
  intro r hr hsuf hne
  refine h r hr (hsuf.trans (List.suffix_cons m q)) ?_
  rintro rfl
  have hlen := hsuf.length_le
  simp at hlen

theorem NeverZero.head (h : NeverZero cSpeed (m :: q)) (hq : q ≠ []) : edf cSpeed q ≠ 0 := by
  refine h q hq (List.suffix_cons m q) ?_
  intro heq
  simpa using congrArg List.length heq

/-- The walk computes the latest start. -/
theorem edf_eq_latest (h : NeverZero cSpeed (m :: q)) :
    edf cSpeed (m :: q) = Job.latest (m.job cSpeed) (q.map (job cSpeed)) := by
  induction q generalizing m with
  | nil => simp [edf, edfStep, Job.latest, job]
  | cons m' q ih =>
    have hset : edf cSpeed (m' :: q) ≠ 0 := h.head (List.cons_ne_nil m' q)
    have htail := ih h.tail
    have hmin : ∀ a b : ℚ, (if a < b then a else b) = min a b := by
      intro a b
      rw [min_def_lt]
    calc edf cSpeed (m :: m' :: q)
        = edfStep cSpeed m (edf cSpeed (m' :: q)) := rfl
      _ = min (edf cSpeed (m' :: q)) m.due - m.transferTime cSpeed := by
          rw [edfStep, if_neg hset, hmin]
      _ = min (Job.latest (m'.job cSpeed) (q.map (job cSpeed))) m.due - m.transferTime cSpeed := by
          rw [htail]

/-- How late the first flow can be started for the flow at place `i`. -/
def latestFor (cSpeed : ℚ) (q : List MobileContext) (i : Fin q.length) : ℚ :=
  (q.get i).due - ((q.take (i + 1)).map (transferTime cSpeed)).sum

theorem range_slack (cSpeed : ℚ) (q : List MobileContext) :
    Set.range (Job.slack (q.map (job cSpeed))) = Set.range (latestFor cSpeed q) := by
  have hsum : ∀ n, (((q.map (job cSpeed)).take n).map Job.length) = (q.take n).map (transferTime cSpeed) := by
    intro n
    rw [← List.map_take, List.map_map]
    rfl
  ext v
  constructor
  · rintro ⟨i, rfl⟩
    refine ⟨⟨i, by simpa using i.isLt⟩, ?_⟩
    simp only [Job.slack, latestFor, hsum]
    simp [job]
  · rintro ⟨i, rfl⟩
    refine ⟨⟨i, by simp⟩, ?_⟩
    simp only [Job.slack, latestFor, hsum]
    simp [job]

end MobileContext

section Schedule
variable (net : Networks) (now wSpeed cSpeed : ℚ) (q : List MobileContext)

/-- Nobody but the first flow is allowed to send. -/
theorem scheduleSend_tail : ∀ m ∈ (schedule net now wSpeed cSpeed q).1.tail, m.scheduleSend = false := by
  intro m hm
  cases q with
  | nil => simp [schedule] at hm
  | cons m₀ q =>
    simp only [schedule, List.map_cons] at hm
    split_ifs at hm
    all_goals
      simp only [List.tail_cons, List.mem_map] at hm
      obtain ⟨m', -, rfl⟩ := hm
      rfl

/-- On the cellular network the first flow waits for its latest start. -/
theorem scheduleSend_head (hm : net.mobileConnected = true) {m : MobileContext}
    (h : (schedule net now wSpeed cSpeed q).1.head? = some m) :
    m.scheduleSend = true ↔ MobileContext.edf cSpeed q ≤ now := by
  cases q with
  | nil => simp [schedule] at h
  | cons m₀ q =>
    simp only [schedule, List.map_cons, hm, if_true, List.head?_cons, Option.some.injEq] at h
    simp [← h]

/-- `Schedule` finds the latest time at which the blocks can be sent one after the other such that each is
done a second after its deadline at most. Afterwards at most the first flow is allowed to send; on the
cellular network it is, once that time has come. Nothing depends on the sign of the speed. -/
theorem schedule_latestStart (hq : q ≠ []) (hz : MobileContext.NeverZero cSpeed q) :
    IsLeast (Set.range (MobileContext.latestFor cSpeed q)) (MobileContext.edf cSpeed q) ∧
    IsGreatest {t | Job.OnTime t (q.map (MobileContext.job cSpeed))} (MobileContext.edf cSpeed q) ∧
    (∀ m ∈ (schedule net now wSpeed cSpeed q).1.tail, m.scheduleSend = false) ∧
    (net.mobileConnected = true → ∃ m, (schedule net now wSpeed cSpeed q).1.head? = some m ∧
      (m.scheduleSend = true ↔ MobileContext.edf cSpeed q ≤ now)) := by
  refine ⟨?_, ?_, scheduleSend_tail net now wSpeed cSpeed q, ?_⟩
  · rw [← MobileContext.range_slack]
    cases q with
    | nil => exact absurd rfl hq
    | cons m q =>
      rw [MobileContext.edf_eq_latest hz]
      exact Job.isLeast_latest _ _
  · cases q with
    | nil => exact absurd rfl hq
    | cons m q =>
      rw [MobileContext.edf_eq_latest hz]
      exact Job.isGreatest_latest _ _
  · intro hm
    cases hhead : (schedule net now wSpeed cSpeed q).1.head? with
    | none => exact absurd hhead (by cases q <;> simp [schedule, hm] at hq ⊢)
    | some m => exact ⟨m, rfl, scheduleSend_head net now wSpeed cSpeed q hm hhead⟩

def twoFlows : List MobileContext :=
  [{ ctx := { blockRemain := 1000000 }, deadlineTime := ⟨100, 500000⟩ },
    { ctx := { blockRemain := 1000000 }, deadlineTime := ⟨104, 0⟩ }]

theorem neverZero_twoFlows : MobileContext.NeverZero 1 twoFlows := by
  intro r hr hsuf hne
  -- the only suffix to look at is the second flow
  rw [twoFlows, List.suffix_cons_iff, List.suffix_cons_iff, List.suffix_nil] at hsuf
  rcases hsuf with rfl | rfl | rfl
  · exact absurd rfl hne
  · decide +kernel
  · exact absurd rfl hr

/-- At 1 Mbps each takes 8 seconds; the second has to be done at 105. -/
theorem schedule_latestStart_twoFlows :
    MobileContext.edf 1 twoFlows = 89 ∧
    IsGreatest {t | Job.OnTime t (twoFlows.map (MobileContext.job 1))} 89 ∧
    ∃ m, (schedule { mobileConnected := true } 90 1 1 twoFlows).1.head? = some m ∧ m.scheduleSend = true := by
  have hedf : MobileContext.edf 1 twoFlows = 89 := by decide +kernel
  obtain ⟨-, hgreatest, -, hhead⟩ := schedule_latestStart { mobileConnected := true } 90 1 1 twoFlows
    (List.cons_ne_nil _ _) neverZero_twoFlows
  rw [hedf] at hgreatest hhead
  obtain ⟨m, hm, hsend⟩ := hhead rfl
  exact ⟨hedf, hgreatest, m, hm, hsend.mpr (by norm_num)⟩

end Schedule

end Cedos.Dtp
