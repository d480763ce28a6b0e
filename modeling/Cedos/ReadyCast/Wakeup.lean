import Cedos.Lib.Run

/-!
# Waking up for downloads

`DTPWakeupStateMachine` keeps the processor awake while the library has something to send soon, and lets
it sleep until an alarm otherwise. An alarm leads from `NormalState` through `ScanningState`, which may look
for access points first, to `ProcessingState`. There the library is asked when it needs the processor
next: an alarm is set for that time unless one is still to come, and the wake lock is released when there
is nothing to do before it.

Whether an alarm is still to come is not recorded. The code compares the time the last alarm was set for
with the clock, and takes an alarm whose time is this very millisecond for one that is still to come.

Messages are handled one at a time. The receivers only send messages, the clock never goes back,
and the alarm that is set is delivered once, at its time or later. Setting an alarm replaces the one
before it. `run` broadcasts the first alarm; it has been received where the runs here start.
-/

namespace Cedos.ReadyCast

/-- The states below `DefaultState`. -/
inductive WakeupState
  | normal
  | scanning
  | processing
  deriving DecidableEq, Repr

/-- The messages of the state machine. -/
inductive WakeupMessage
  | alarm
  | scanResultsAvailable
  | timeout
  deriving DecidableEq, Repr

/-- A `DTPWakeupStateMachine` and what the platform keeps for it. Times are in milliseconds. -/
structure WakeupMachine where
  state : WakeupState := .normal
  commingAlarm : ℤ := -1
  lastScan : ℤ := -1
  /-- `wl.isHeld ()` -/
  held : Bool := false
  /-- messages that are due -/
  queue : List WakeupMessage := []
  /-- when the delayed `MSG_TIMEOUT`s are due -/
  delayed : List ℤ := []
  /-- the alarm that is set and has not been delivered -/
  alarm : Option ℤ := none
  /-- `System.currentTimeMillis ()` -/
  clock : ℤ
  deriving DecidableEq, Repr

/-- What the platform and the library answer while a message is handled. -/
structure WakeupAnswers where
  /-- `getBSSID ()` is not null -/
  connected : Bool
  /-- the result of `startScan` -/
  scanStarted : Bool
  /-- how much later than the start of the handling `ProcessingState` reads the clock -/
  delay : ℕ
  /-- `dtpgetlocktime ()`, in seconds -/
  lockTime : ℤ
  deriving DecidableEq, Repr

def scanTimeoutMs : ℤ := 1000

def minScanIntervalMs : ℤ := 3 * 60 * 1000

namespace WakeupMachine

variable (m : WakeupMachine) (a : WakeupAnswers)

/-! ## Lock, alarm and messages -/

def acquireLock : WakeupMachine := if m.held = false then { m with held := true } else m

def releaseLock : WakeupMachine := if m.held = true then { m with held := false } else m

def sendMessage (msg : WakeupMessage) : WakeupMachine := { m with queue := m.queue ++ [msg] }

def setAlarm (time : ℤ) : WakeupMachine := { m with alarm := some time, commingAlarm := time }

/-- The intent that is cancelled names `DTPNetAlarm`, and no alarm is ever set for it. -/
def cancelAlarm : WakeupMachine := m

def alarmReceived : WakeupMachine := m.acquireLock.sendMessage .alarm

def scanReceived : WakeupMachine := { m with lastScan := m.clock }.sendMessage .scanResultsAvailable

/-- `connectivityReceiver`, when Wi-Fi has been lost -/
def wifiLost : WakeupMachine := { m with lastScan := -1 }.sendMessage .alarm

/-! ## The states -/

/-- `ProcessingState.enter`, which goes on to `NormalState`. -/
def enterProcessing : WakeupMachine :=
  let now := m.clock + a.delay
  let time := now + (if a.lockTime > 0 then a.lockTime else -1 * a.lockTime) * 1000
  let m := { m with state := .processing, clock := now }
  let m := if m.commingAlarm < now ∨ time < m.commingAlarm then m.cancelAlarm.setAlarm time else m
  let m := if a.lockTime < 0 then m.releaseLock else m
  { m with state := .normal }

def enterScanning : WakeupMachine :=
  let m := { m.acquireLock with state := .scanning }
  if a.connected = false ∧ m.clock > m.lastScan + minScanIntervalMs then
    if a.scanStarted = false then m.enterProcessing a
    else { m with delayed := m.delayed ++ [m.clock + scanTimeoutMs] }
  else m.enterProcessing a

/-- Where `processMessage` of a state goes; `DefaultState` drops the messages that a state does not handle. -/
def processMessage : WakeupState → WakeupMessage → Option WakeupState
  | .normal, .alarm => some .scanning
  | .scanning, .scanResultsAvailable => some .processing
  | .scanning, .timeout => some .processing
  | _, _ => none

def performTransitions : Option WakeupState → WakeupMachine
  | none => m
  | some .normal => { m with state := .normal }
  | some .scanning => m.enterScanning a
  | some .processing => m.enterProcessing a

def handleMessage : WakeupMachine :=
  match m.queue with
  | [] => m
  | msg :: rest => { m with queue := rest }.performTransitions a (processMessage m.state msg)

end WakeupMachine

/-! ## Runs -/

/-- What happens to the state machine. -/
inductive WakeupEvent
  /-- time passes -/
  | tick (ms : ℕ)
  /-- somebody broadcasts `ACTION_DTP_ALARM`, as `DTPNetThread` does -/
  | broadcast
  /-- the alarm that is set is delivered -/
  | fire
  /-- the results of a scan are there -/
  | scanResults
  /-- a delayed message becomes due -/
  | timeout
  /-- Wi-Fi has been lost -/
  | disconnected
  /-- a message is handled -/
  | handle (a : WakeupAnswers)
  deriving DecidableEq, Repr

open WakeupMachine

/-- All runs after `run`. -/
def wakeup : Machine WakeupMachine WakeupEvent where
  init m := ∃ t : ℤ, 0 ≤ t ∧ m = ({ clock := t } : WakeupMachine).alarmReceived
  allowed m
    | .fire => ∃ t ∈ m.alarm, t ≤ m.clock
    | .timeout => ∃ t ∈ m.delayed.head?, t ≤ m.clock
    | .handle a => m.queue ≠ [] ∧ -180 ≤ a.lockTime ∧ a.lockTime ≤ 180
    | _ => True
  apply m
    | .tick ms => { m with clock := m.clock + ms }
    | .broadcast => m.alarmReceived
    | .fire => { m with alarm := none }.alarmReceived
    | .scanResults => m.scanReceived
    | .timeout => { m with delayed := m.delayed.tail }.sendMessage .timeout
    | .disconnected => m.wifiLost
    | .handle a => m.handleMessage a

/-- `ScanningState` waits for the results of a scan. -/
def WakeupMachine.Scans (m : WakeupMachine) (a : WakeupAnswers) : Prop :=
  (a.connected = false ∧ m.clock > m.lastScan + minScanIntervalMs) ∧ a.scanStarted = true

/-- The message that is handled leads to `ProcessingState`. -/
def WakeupMachine.Processes (m : WakeupMachine) (a : WakeupAnswers) : Prop :=
  ∃ msg ∈ m.queue.head?, match processMessage m.state msg with
    | some .processing => True
    | some .scanning => ¬m.Scans a
    | _ => False

/-- An alarm that has been delivered is not handled within the millisecond it was set for. -/
def PastAlarm (m : WakeupMachine) : WakeupEvent → Prop
  | .handle a => m.Processes a → m.alarm = none → m.clock + a.delay ≠ m.commingAlarm
  | _ => True

namespace WakeupMachine

variable {m : WakeupMachine} {a : WakeupAnswers}

/-- Without the wake lock an alarm is set. The time the code has noted is that of the alarm that is set, and has come
when there is none. -/
structure Guarded (m : WakeupMachine) : Prop where
  guarded : m.held = false → m.alarm.isSome
  noted : ∀ t ∈ m.alarm, t = m.commingAlarm
  past : m.alarm = none → m.commingAlarm ≤ m.clock

/-- Only the lock, the alarm and the two times matter, and the lock may be taken. -/
theorem Guarded.of_eq {m' : WakeupMachine} (h : m.Guarded) (hheld : m'.held = false → m.held = false)
    (halarm : m'.alarm = m.alarm) (hnoted : m'.commingAlarm = m.commingAlarm) (hclock : m.clock ≤ m'.clock) :
    m'.Guarded := by
  constructor
  · intro hfree
    rw [halarm]
    exact h.guarded (hheld hfree)
  · rw [halarm, hnoted]
    exact h.noted
  · intro hnone
    rw [hnoted]
    exact (h.past (halarm ▸ hnone)).trans hclock

theorem held_acquireLock (m : WakeupMachine) : m.acquireLock = { m with held := true } := by
  unfold acquireLock
  split_ifs with hfree
  · rfl
  · rw [← Bool.eq_true_of_not_eq_false hfree]

theorem Guarded.acquireLock (h : m.Guarded) : m.acquireLock.Guarded := by
  rw [held_acquireLock]
  exact h.of_eq nofun rfl rfl le_rfl

/-- With an alarm set the lock may be released. -/
theorem Guarded.releaseLock (h : m.Guarded) (hset : m.alarm.isSome) : m.releaseLock.Guarded := by
  unfold WakeupMachine.releaseLock
  split_ifs
  · exact ⟨fun _ => hset, h.noted, h.past⟩
  · exact h

theorem guarded_setAlarm (m : WakeupMachine) (time : ℤ) : (m.setAlarm time).Guarded :=
  ⟨fun _ => rfl, fun _ ht => (Option.some.inj ht).symm, nofun⟩

/-- Processing leaves an alarm set. -/
theorem Guarded.enterProcessing (h : m.Guarded) (ha : m.alarm = none → m.clock + a.delay ≠ m.commingAlarm) :
    (m.enterProcessing a).Guarded := by
  unfold WakeupMachine.enterProcessing
  extract_lets now time m₁ m₂ m₃
  have h₁ : m₁.Guarded := h.of_eq id rfl rfl (Int.le_add_of_nonneg_right (Int.natCast_nonneg _))
  have h₂ : m₂.Guarded ∧ m₂.alarm.isSome := by
    unfold m₂
    split_ifs with hset
    · exact ⟨guarded_setAlarm _ _, rfl⟩
    · refine ⟨h₁, ?_⟩
      -- an alarm that is gone was noted for a time before `now`, and then a new one is set
      by_contra hnone
      have hnone : m.alarm = none := by simpa using hnone
      have hpast := h₁.past hnone
      have hne := ha hnone
      have hnow : m.commingAlarm < now := lt_of_le_of_ne hpast hne.symm
      exact hset (Or.inl hnow)
  have h₃ : m₃.Guarded := by
    unfold m₃
    split_ifs
    · exact h₂.1.releaseLock h₂.2
    · exact h₂.1
  exact h₃.of_eq id rfl rfl le_rfl

theorem Guarded.enterScanning (h : m.Guarded)
    (ha : ¬m.Scans a → m.alarm = none → m.clock + a.delay ≠ m.commingAlarm) :
    (m.enterScanning a).Guarded := by
  unfold WakeupMachine.enterScanning
  extract_lets m₁
  have h₁ : m₁.Guarded := h.acquireLock.of_eq id rfl rfl le_rfl
  have ha₁ : ¬m₁.Scans a → m₁.alarm = none → m₁.clock + a.delay ≠ m₁.commingAlarm := by
    unfold m₁
    rw [held_acquireLock]
    exact ha
  split_ifs with hscan hstart
  · exact h₁.enterProcessing (ha₁ fun hs => absurd hs.2 (by simp [hstart]))
  · exact h₁.of_eq id rfl rfl le_rfl
  · exact h₁.enterProcessing (ha₁ fun hs => hscan hs.1)

theorem Guarded.handleMessage (h : m.Guarded) (ha : PastAlarm m (.handle a)) :
    (m.handleMessage a).Guarded := by
  unfold WakeupMachine.handleMessage
  split
  · exact h
  · rename_i msg rest hqueue
    have hrest : Guarded { m with queue := rest } := h.of_eq id rfl rfl le_rfl
    simp only [PastAlarm, Processes, hqueue, List.head?_cons, Option.mem_def, Option.some.injEq,
      exists_eq_left'] at ha
    generalize processMessage m.state msg = next at ha ⊢
    rcases next with _ | _ | _ | _
    · exact hrest
    · exact hrest.of_eq id rfl rfl le_rfl
    · exact hrest.enterScanning ha
    · exact hrest.enterProcessing (ha trivial)

theorem Guarded.apply (h : m.Guarded) {e : WakeupEvent} (hallowed : wakeup.allowed m e) (he : PastAlarm m e) :
    (wakeup.apply m e).Guarded := by
  cases e with
  | tick ms => exact h.of_eq id rfl rfl (Int.le_add_of_nonneg_right (Int.natCast_nonneg _))
  | broadcast => exact h.acquireLock.of_eq id rfl rfl le_rfl
  | fire =>
    -- the lock is taken before the alarm counts as gone
    obtain ⟨t, ht, hdue⟩ := hallowed
    have hnoted := h.noted t ht
    change (alarmReceived { m with alarm := none }).Guarded
    rw [alarmReceived, held_acquireLock]
    exact ⟨nofun, nofun, fun _ => hnoted ▸ hdue⟩
  | scanResults => exact h.of_eq id rfl rfl le_rfl
  | timeout => exact h.of_eq id rfl rfl le_rfl
  | disconnected => exact h.of_eq id rfl rfl le_rfl
  | handle a => exact h.handleMessage he

theorem guarded_of_init (hm : wakeup.init m) : m.Guarded := by
  obtain ⟨t, ht, rfl⟩ := hm
  rw [alarmReceived, held_acquireLock]
  exact ⟨nofun, nofun, fun _ => by change (-1 : ℤ) ≤ t; omega⟩

end WakeupMachine

/-- **Never asleep without an alarm**, as long as no alarm is handled within the millisecond it was set for: when
nothing is left to handle and the wake lock is free, an alarm is still to come. -/
theorem alarm_set_while_asleep {m : WakeupMachine} (hm : (wakeup.restrict PastAlarm).Reachable m)
    (_hstate : m.state = .normal) (_hqueue : m.queue = []) (hheld : m.held = false) : m.alarm.isSome := by
  have hguarded : m.Guarded := by
    refine Machine.Reachable.invariant (M := wakeup.restrict PastAlarm) (P := Guarded) ?_ ?_ hm
    · exact fun _ => guarded_of_init
    · intro m e h he
      exact h.apply he.1 he.2
  exact hguarded.guarded hheld

/-- There is Wi-Fi, and the library needs the processor again in three minutes. -/
def threeMinutes : WakeupAnswers := ⟨true, false, 0, -180⟩

/-- The alarm is handled one millisecond after its time. -/
theorem alarm_set_while_asleep_late :
    ∃ m, (wakeup.restrict PastAlarm).Reachable m ∧ m.clock = 180001 ∧ m.held = false ∧ m.alarm.isSome := by
  have hadm : (wakeup.restrict PastAlarm).Admits (alarmReceived { clock := 0 })
      [.handle threeMinutes, .tick 180000, .fire, .tick 1, .handle threeMinutes] := by
    refine ⟨⟨⟨by decide, by decide, by decide⟩, fun _ _ => by decide⟩, ⟨trivial, trivial⟩,
      ⟨⟨180000, by decide, by decide⟩, trivial⟩, ⟨trivial, trivial⟩,
      ⟨⟨by decide, by decide, by decide⟩, fun _ _ => by decide⟩, trivial⟩
  have hstart : (wakeup.restrict PastAlarm).Reachable (alarmReceived { clock := 0 }) := .init ⟨0, le_rfl, rfl⟩
  have hrun := hstart.run hadm
  exact ⟨_, hrun, by decide, by decide, alarm_set_while_asleep hrun (by decide) (by decide) (by decide)⟩

/-- An alarm that is delivered and handled in the millisecond it was set for is taken for one that is still to come: none
is set, and the wake lock is released. -/
theorem asleep_without_alarm :
    ∃ m, wakeup.Reachable m ∧ m.clock = 180000 ∧ m.commingAlarm = 180000 ∧ m.state = .normal ∧ m.queue = [] ∧
      m.delayed = [] ∧ m.held = false ∧ m.alarm = none := by
  have hadm : wakeup.Admits (alarmReceived { clock := 0 })
      [.handle threeMinutes, .tick 180000, .fire, .handle threeMinutes] :=
    ⟨⟨by decide, by decide, by decide⟩, trivial, ⟨180000, by decide, by decide⟩, ⟨by decide, by decide, by decide⟩,
      trivial⟩
  have hstart : wakeup.Reachable (alarmReceived { clock := 0 }) := .init ⟨0, le_rfl, rfl⟩
  exact ⟨_, hstart.run hadm, by decide⟩

end Cedos.ReadyCast
