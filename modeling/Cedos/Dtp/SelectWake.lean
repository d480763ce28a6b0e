import Cedos.Dtp.Select
import Cedos.Lib.Run

/-!
# Waking `dtp_select`

`dtp_select` first compares its sets with the pending bits, and when nothing is pending registers
them with `DTPSelectInit` and waits for a plain descriptor or a message in the inner socket.
`DTPSelectEventSet`, on the library's thread, sets a pending bit, and sends the message if a call
is registered for it. The comparison and the registration are two critical sections: an event
between them sets its bit too late for the one and sends no message since it is too early for the
other.

A call without a read set does not get to its wait while there are DTP sockets, so there is a
read set here.
-/

namespace Cedos.Dtp

/-- `DTP_FD_READ` or `DTP_FD_WRITE`. -/
inductive Direction
  | read
  | write
  deriving DecidableEq, Repr

/-- The DTP sockets a call watches below its `nfds`, and the write set it registers, which is
uninitialised memory if the caller passes none. -/
structure Watch where
  nfds : ℕ
  read : FdSet
  write : FdSet
  writeReg : FdSet
  reg : write ⊆ writeReg

def Watch.Watches (w : Watch) (sock : ℕ) : Direction → Prop
  | .read => sock < w.nfds ∧ sock ∈ w.read
  | .write => sock < w.nfds ∧ sock ∈ w.write

/-- Where a call of `dtp_select` stands. -/
inductive SelectPhase
  | checks
  | registers
  | waits
  /-- a message has been read -/
  | woken
  | returned
  deriving DecidableEq, Repr

/-- The call, the variables of `dtp_select.c`, and the number of messages in the inner socket. -/
structure Waiting where
  phase : SelectPhase
  pending : PendingBits
  isselectWaiting : Bool
  nfds : ℕ
  selectRfds : FdSet
  selectWfds : FdSet
  inner : ℕ

/-- The steps; all but the last are those of the call. -/
inductive WakeEvent
  | check
  | init
  | plainReady
  | message
  | recheck
  | set (sock : ℕ) (rw : Direction)

namespace Waiting

/-- A watched socket is pending. -/
def Found (w : Watch) (s : Waiting) : Prop :=
  (∃ sock, w.Watches sock .read ∧ sock ∈ s.pending.read) ∨ ∃ sock, w.Watches sock .write ∧ sock ∈ s.pending.write

/-- `DTPSelectCheckAnyPendingEvent` on the sets of the call. -/
def count (w : Watch) (n : ℕ) (s : Waiting) : ℕ :=
  (dtpSelectCheckAnyPendingEvent n w.read w.write s.pending).1

/-- What the set bit makes `DTPSelectEventSet` do. -/
def notify (s : Waiting) (sock : ℕ) (registered : FdSet) : Waiting :=
  if sock < s.nfds ∧ s.isselectWaiting = true ∧ sock ∈ registered then
    { s with isselectWaiting := false, inner := s.inner + 1 }
  else s

/-- `DTPSelectEventSet`. -/
def dtpSelectEventSet (s : Waiting) (sock : ℕ) : Direction → Waiting
  | .read => ({ s with pending := { s.pending with read := insert sock s.pending.read } } : Waiting).notify
      sock s.selectRfds
  | .write => ({ s with pending := { s.pending with write := insert sock s.pending.write } } :
      Waiting).notify sock s.selectWfds

/-- One step; `isock` is the inner socket, whose number may raise `nfds`. -/
def apply (w : Watch) (isock : ℕ) (s : Waiting) : WakeEvent → Waiting
  | .check => if 0 < s.count w w.nfds then { s with phase := .returned } else { s with phase := .registers }
  | .init =>
    { s with
      phase := .waits
      isselectWaiting := true
      nfds := max w.nfds (isock + 1)
      selectRfds := w.read
      selectWfds := w.writeReg }
  | .plainReady => { s with phase := .returned, isselectWaiting := false }
  | .message => { s with phase := .woken, inner := s.inner - 1 }
  | .recheck =>
    if 0 < s.count w (max w.nfds (isock + 1)) then { s with phase := .returned, isselectWaiting := false }
    else
      -- the registered sets are the ones that have been checked
      { s with
        phase := .registers
        selectRfds := (checkPending (max w.nfds (isock + 1)) s.selectRfds s.pending.read).2
        selectWfds := (checkPending (max w.nfds (isock + 1)) s.selectWfds s.pending.write).2 }
  | .set sock rw => s.dtpSelectEventSet sock rw

/-- When a step can be taken. -/
def allowed (s : Waiting) : WakeEvent → Prop
  | .check => s.phase = .checks
  | .init => s.phase = .registers
  | .plainReady => s.phase = .waits
  | .message => s.phase = .waits ∧ 0 < s.inner
  | .recheck => s.phase = .woken
  | .set _ _ => True

/-- The call waits, a watched socket is pending, and no message will tell it. -/
def Lost (w : Watch) (s : Waiting) : Prop := s.phase = .waits ∧ s.Found w ∧ s.inner = 0

end Waiting

/-- The runs from the beginning of a call. -/
def waiting (w : Watch) (isock : ℕ) : Machine Waiting WakeEvent where
  init s := s.phase = .checks ∧ s.isselectWaiting = false
  allowed := Waiting.allowed
  apply := Waiting.apply w isock

/-- No watched event happens between the check and the registration. -/
def NoneBetween (w : Watch) (s : Waiting) : WakeEvent → Prop
  | .set sock rw => s.phase = .registers → ¬w.Watches sock rw
  | _ => True

/-! ## What one step keeps -/

namespace Waiting
variable {w : Watch} {isock : ℕ} {s : Waiting}

/-- Nothing is found only if nothing is pending. -/
theorem not_found_of_count {n : ℕ} (hn : w.nfds ≤ n) (h : ¬0 < s.count w n) : ¬s.Found w := by
  intro hfound
  apply h
  rcases hfound with ⟨sock, ⟨hlt, hmem⟩, hp⟩ | ⟨sock, ⟨hlt, hmem⟩, hp⟩
  · refine Nat.add_pos_left (Finset.card_pos.mpr ⟨sock, ?_⟩) _
    simp [hmem, hp, hlt.trans_le hn]
  · refine Nat.add_pos_right _ (Finset.card_pos.mpr ⟨sock, ?_⟩)
    simp [hmem, hp, hlt.trans_le hn]

/-- The call is registered and nothing is pending. -/
structure Armed (w : Watch) (s : Waiting) : Prop where
  isselectWaiting : s.isselectWaiting = true
  nfds : w.nfds ≤ s.nfds
  read : s.selectRfds = w.read
  write : s.selectWfds = w.writeReg
  quiet : ¬s.Found w

/-- What holds at each step of a call. -/
structure Told (w : Watch) (s : Waiting) : Prop where
  registers : s.phase = .registers → ¬s.Found w
  waits : s.phase = .waits → 0 < s.inner ∨ s.Armed w

theorem Told.not_lost (h : s.Told w) : ¬s.Lost w := by
  rintro ⟨hphase, hfound, hinner⟩
  rcases h.waits hphase with hpos | harmed
  · omega
  · exact harmed.quiet hfound

theorem phase_dtpSelectEventSet (s : Waiting) (sock : ℕ) (rw : Direction) :
    (s.dtpSelectEventSet sock rw).phase = s.phase := by
  cases rw <;> simp only [dtpSelectEventSet, notify] <;> split_ifs <;> rfl

theorem inner_dtpSelectEventSet (s : Waiting) (sock : ℕ) (rw : Direction) :
    s.inner ≤ (s.dtpSelectEventSet sock rw).inner := by
  cases rw <;> simp only [dtpSelectEventSet, notify] <;> split_ifs <;> simp

theorem pending_dtpSelectEventSet (s : Waiting) (sock : ℕ) (rw : Direction) :
    (s.dtpSelectEventSet sock rw).pending = match rw with
      | .read => { s.pending with read := insert sock s.pending.read }
      | .write => { s.pending with write := insert sock s.pending.write } := by
  cases rw <;> simp only [dtpSelectEventSet, notify] <;> split_ifs <;> rfl

theorem not_found_set (h : ¬s.Found w) {sock : ℕ} {rw : Direction} (hrw : ¬w.Watches sock rw) :
    ¬(s.dtpSelectEventSet sock rw).Found w := by
  rw [Found, pending_dtpSelectEventSet]
  cases rw with
  | read =>
    rintro (⟨x, hx, hp⟩ | hx)
    · rcases Finset.mem_insert.mp hp with rfl | hp
      · exact hrw hx
      · exact h (.inl ⟨x, hx, hp⟩)
    · exact h (.inr hx)
  | write =>
    rintro (hx | ⟨x, hx, hp⟩)
    · exact h (.inl hx)
    · rcases Finset.mem_insert.mp hp with rfl | hp
      · exact hrw hx
      · exact h (.inr ⟨x, hx, hp⟩)

/-- An event while the call waits sends a message, or is none that it watches. -/
theorem Armed.set (h : s.Armed w) (sock : ℕ) (rw : Direction) :
    0 < (s.dtpSelectEventSet sock rw).inner ∨ (s.dtpSelectEventSet sock rw).Armed w := by
  by_cases hw : w.Watches sock rw
  · left
    cases rw with
    | read =>
      have hnotify : sock < s.nfds ∧ s.isselectWaiting = true ∧ sock ∈ s.selectRfds :=
        ⟨hw.1.trans_le h.nfds, h.isselectWaiting, h.read ▸ hw.2⟩
      simp [dtpSelectEventSet, notify, hnotify]
    | write =>
      have hnotify : sock < s.nfds ∧ s.isselectWaiting = true ∧ sock ∈ s.selectWfds :=
        ⟨hw.1.trans_le h.nfds, h.isselectWaiting, h.write ▸ w.reg hw.2⟩
      simp [dtpSelectEventSet, notify, hnotify]
  · have hquiet := not_found_set h.quiet hw
    cases rw
    all_goals
      simp only [dtpSelectEventSet, notify] at hquiet ⊢
      split_ifs at hquiet ⊢
      · exact .inl (Nat.succ_pos _)
      · exact .inr ⟨h.isselectWaiting, h.nfds, h.read, h.write, hquiet⟩

theorem Told.apply (h : s.Told w) {e : WakeEvent} (he : s.allowed e) (hu : NoneBetween w s e) :
    (s.apply w isock e).Told w := by
  cases e with
  | check =>
    simp only [Waiting.apply]
    split_ifs with hc
    · constructor <;> intro hphase <;> cases hphase
    · refine ⟨fun _ => not_found_of_count le_rfl hc, fun hphase => ?_⟩
      cases hphase
  | init =>
    refine ⟨fun hphase => ?_, fun _ => .inr ⟨rfl, le_max_left _ _, rfl, rfl, h.registers he⟩⟩
    cases hphase
  | plainReady => constructor <;> intro hphase <;> cases hphase
  | message => constructor <;> intro hphase <;> cases hphase
  | recheck =>
    simp only [Waiting.apply]
    split_ifs with hc
    · constructor <;> intro hphase <;> cases hphase
    · refine ⟨fun _ => not_found_of_count (le_max_left _ _) hc, fun hphase => ?_⟩
      cases hphase
  | set sock rw =>
    have hphase := phase_dtpSelectEventSet s sock rw
    constructor
    · intro hreg
      have hreg' : s.phase = .registers := hphase.symm.trans hreg
      exact not_found_set (h.registers hreg') (hu hreg')
    · intro hwaits
      rcases h.waits (hphase.symm.trans hwaits) with hpos | harmed
      · exact .inl (hpos.trans_le (inner_dtpSelectEventSet s sock rw))
      · exact harmed.set sock rw

end Waiting

/-! ## Runs -/

/-- In every run in which no watched event happens between a check and the registration that follows,
`dtp_select` never waits for an event that has already happened. -/
theorem no_lost_wakeup {w : Watch} {isock : ℕ} {s : Waiting}
    (hs : ((waiting w isock).restrict (NoneBetween w)).Reachable s) : ¬s.Lost w := by
  have htold : s.Told w := by
    refine Machine.Reachable.invariant (P := Waiting.Told w) ?_ ?_ hs
    · intro s hinit
      constructor <;> intro hphase <;> rw [hinit.1] at hphase <;> cases hphase
    · intro s e h he
      exact h.apply he.1 he.2
  exact htold.not_lost

/-- A call that watches one socket. -/
def sampleWatch : Watch := ⟨4, {3}, ∅, ∅, le_rfl⟩

/-- The call begins, and nothing is pending. -/
def sampleCall : Waiting := ⟨.checks, ⟨∅, ∅⟩, false, 0, ∅, ∅, 0⟩

theorem no_lost_wakeup_while_waiting :
    ∃ s, ((waiting sampleWatch 9).restrict (NoneBetween sampleWatch)).Reachable s ∧
      s.phase = .waits ∧ 3 ∈ s.pending.read ∧ s.inner = 1 ∧ ¬s.Lost sampleWatch := by
  have hadm : ((waiting sampleWatch 9).restrict (NoneBetween sampleWatch)).Admits sampleCall
      [.check, .init, .set 3 .read] := by
    refine ⟨⟨rfl, trivial⟩, ⟨?_, trivial⟩, ⟨trivial, fun hphase => ?_⟩, trivial⟩
    · change Waiting.phase _ = .registers
      decide +kernel
    · cases hphase
  have hinit : ((waiting sampleWatch 9).restrict (NoneBetween sampleWatch)).init sampleCall := ⟨rfl, rfl⟩
  have hs := Machine.Reachable.run (.init hinit) hadm
  exact ⟨_, hs, by decide +kernel, by decide +kernel, by decide +kernel, no_lost_wakeup hs⟩

/-- The event comes after the check and before the registration. -/
theorem event_before_registration_lost :
    ∃ s, (waiting sampleWatch 9).Reachable s ∧ s.Lost sampleWatch := by
  have hadm : (waiting sampleWatch 9).Admits sampleCall [.check, .set 3 .read, .init] := by
    refine ⟨rfl, trivial, ?_, trivial⟩
    change Waiting.phase _ = .registers
    decide +kernel
  have hinit : (waiting sampleWatch 9).init sampleCall := ⟨rfl, rfl⟩
  refine ⟨_, Machine.Reachable.run (.init hinit) hadm, by decide +kernel, ?_, by decide +kernel⟩
  exact .inl ⟨3, ⟨by decide, by decide⟩, by decide +kernel⟩

end Cedos.Dtp
