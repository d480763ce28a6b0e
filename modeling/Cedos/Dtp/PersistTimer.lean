import Cedos.Dtp.Lifetime

/-!
# The persist timer

While the peer's window is zero, `HandleTimeout` sends a probe each time `tc_persistIntvl` seconds have passed, and
doubles the interval up to `DTP_PERSIST_MAX`. `HandleACKPacket` starts the timer with `DTP_PERSIST_MIN` when an ACK
announces a zero window. `HandleNormalPacket` only sets the flag: if no ACK has announced a zero window before, the
interval is 0, twice 0 is 0, and every pass sends a probe.

Clocks are exact here, and read in seconds; the source reads them into `double`s.
-/

namespace Cedos.Dtp

open DtpContext

/-! ## The interval -/

/-- The interval is in range, once the timer has been started, and it has been where the window is zero. -/
structure PersistRange (v : ControlState) : Prop where
  range : v.persistIntvl = 0 ∨ persistMin ≤ v.persistIntvl ∧ v.persistIntvl ≤ persistMax
  started : v.isHerWindowZero = true → v.persistIntvl ≠ 0

namespace PersistRange

theorem fresh (s : SockState) : PersistRange (.fresh s) where
  range := Or.inl rfl
  started h := by cases h

/-- A step, where a data packet announces a zero window only after the timer has been started. -/
theorem step {A : Cause → ControlState → Prop} (hA : ∀ v, A .zeroData v → v.persistIntvl ≠ 0)
    {v v' : ControlState} (hstep : ControlStep A v v') (h : PersistRange v) : PersistRange v' := by
  have hbounds : persistMin = 5 ∧ persistMax = 60 := ⟨rfl, rfl⟩
  cases hstep with
  | zeroACK =>
    constructor
    · dsimp only
      omega
    · intro _
      dsimp only
      omega
  | reopened => exact ⟨h.range, fun hz => by cases hz⟩
  | zeroData ha => exact ⟨h.range, fun _ => hA v ha⟩
  | probe =>
    have hr := h.range
    constructor
    · dsimp only
      omega
    · intro hz
      have hs := h.started hz
      dsimp only
      omega
  | _ => exact ⟨h.range, h.started⟩

theorem steps {A : Cause → ControlState → Prop} (hA : ∀ v, A .zeroData v → v.persistIntvl ≠ 0)
    {c c' : DtpContext} (h : PersistRange c.control) (hsteps : ControlSteps A c c') : PersistRange c'.control :=
  hsteps.invariant (fun _ _ hstep hv => step hA hstep hv) h

end PersistRange

/-- A data packet announces a zero window only when the timer has been started before, or the ACK of its batch
starts it. -/
def LifeEvent.StartsTimer (c : DtpContext) : LifeEvent → Prop
  | .conn (.own (.batch p)) => (∃ d ∈ p.pkts, d.shutsWindow c.sendWindowScale = true) →
      c.persistIntvl ≠ 0 ∨ c.startsPersist p.ack = true
  | _ => True

theorem PersistRange.apply (k : Crypto) {c : DtpContext} {e : LifeEvent} (h : PersistRange c.control)
    (he : e.StartsTimer c) : PersistRange (e.apply k c).control := by
  cases hopens : e.opens with
  | false =>
    refine h.steps ?_ (ControlSteps.apply k hopens)
    rintro v ⟨p, rfl, hd, hv⟩
    rw [hv]
    split_ifs with hack
    · decide
    · exact (he hd).resolve_right (by simp [hack])
  | true =>
    cases e with
    | connect addr fid n e =>
      have hstarted : PersistRange (c.startConnect addr fid n e).control := ⟨h.range, h.started⟩
      exact hstarted.steps (A := fun _ _ => False) (fun _ hz => hz.elim) (ControlSteps.of_acts (.dtpWriteAvail _))
    | listen bound alloc backlog =>
      simp only [LifeEvent.apply, dtpListen]
      split_ifs
      all_goals exact ⟨h.range, h.started⟩
    | _ => cases hopens

/-! ## The probes -/

/-- A context with `tc_persistTimer`, the clock, and the times of its persist probes, the latest first. -/
structure Probing where
  ctx : DtpContext
  timer : ℚ
  clock : ℚ
  probes : List ℚ

/-- An event that begins at the time `now` and reads the clock again at `done`; if it sends a probe, then at
`sent`. -/
structure TimedEvent where
  event : LifeEvent
  now : ℚ
  sent : ℚ
  done : ℚ

def LifeEvent.startsPersist (c : DtpContext) : LifeEvent → Bool
  | .conn (.own (.batch p)) => c.startsPersist p.ack
  | _ => false

def LifeEvent.probesWindow (c : DtpContext) : LifeEvent → Bool
  | .conn (.own (.timeout env)) => c.probesWindow env
  | _ => false

/-- The runs of a context, with a clock that does not go back. -/
def probing (k : Crypto) : Machine Probing TimedEvent where
  init s := Born k s.ctx ∧ s.timer = 0 ∧ 0 ≤ s.clock ∧ s.probes = []
  allowed s e := e.event.offered s.ctx ∧ (s.clock ≤ e.now ∧ e.now ≤ e.sent ∧ e.sent ≤ e.done) ∧
    ∀ env, e.event = .conn (.own (.timeout env)) →
      env.persistExpired = decide ((s.ctx.persistIntvl : ℚ) < e.now - s.timer)
  apply s e :=
    { ctx := e.event.apply k s.ctx
      timer := if e.event.startsPersist s.ctx || e.event.probesWindow s.ctx then e.done else s.timer
      clock := e.done
      probes := if e.event.probesWindow s.ctx then e.sent :: s.probes else s.probes }

/-- While the peer's window is zero the interval is between `DTP_PERSIST_MIN` and `DTP_PERSIST_MAX`, and doubles with
each probe; the probes are `DTP_PERSIST_MIN` apart. -/
structure PersistSane (s : Probing) : Prop where
  interval : s.ctx.isHerWindowZero = true → persistMin ≤ s.ctx.persistIntvl ∧ s.ctx.persistIntvl ≤ persistMax
  apart : s.probes.Pairwise fun later earlier => earlier + (persistMin : ℚ) ≤ later
  doubles : ∀ env, s.ctx.probesWindow env = true →
    (s.ctx.handleTimeout env).persistIntvl = min (2 * s.ctx.persistIntvl) persistMax

/-- The timer has not been read before the last probe. -/
structure Paced (s : Probing) : Prop where
  interval : PersistRange s.ctx.control
  timer : s.timer ≤ s.clock
  last : ∀ t ∈ s.probes, t ≤ s.timer
  apart : s.probes.Pairwise fun later earlier => earlier + (persistMin : ℚ) ≤ later

/-- A probe is sent when the interval has passed. -/
theorem probesWindow_elapsed {k : Crypto} {s : Probing} {e : TimedEvent} (he : (probing k).allowed s e)
    (hp : e.event.probesWindow s.ctx = true) :
    s.ctx.isHerWindowZero = true ∧ (s.ctx.persistIntvl : ℚ) < e.now - s.timer := by
  obtain ⟨event, now, sent, done⟩ := e
  simp only at hp
  unfold LifeEvent.probesWindow at hp
  split at hp
  · rename_i env
    have hexp := he.2.2 env rfl
    simp only [DtpContext.probesWindow, Bool.and_eq_true] at hp
    rw [hp.2] at hexp
    exact ⟨hp.1.2, of_decide_eq_true hexp.symm⟩
  · cases hp

theorem Paced.step {k : Crypto} {s : Probing} {e : TimedEvent} (h : Paced s) (he : (probing k).allowed s e)
    (hstart : e.event.StartsTimer s.ctx) : Paced ((probing k).apply s e) := by
  obtain ⟨hnow, hsent, hdone⟩ := he.2.1
  have htimer := h.timer
  refine ⟨h.interval.apply k hstart, ?_, ?_, ?_⟩
  · simp only [probing]
    split_ifs
    · exact le_refl _
    · linarith
  · intro t ht
    simp only [probing] at ht ⊢
    have hold : t ∈ s.probes → t ≤ e.done := by
      intro hmem
      have := h.last t hmem
      linarith
    cases hp : e.event.probesWindow s.ctx with
    | true =>
      simp only [hp, if_true, List.mem_cons] at ht
      simp only [Bool.or_true, if_true]
      rcases ht with rfl | hmem
      · exact hdone
      · exact hold hmem
    | false =>
      simp only [hp, Bool.false_eq_true, if_false] at ht
      simp only [Bool.or_false]
      split_ifs
      · exact hold ht
      · exact h.last t ht
  · simp only [probing]
    split_ifs with hp
    · obtain ⟨hzero, helapsed⟩ := probesWindow_elapsed he hp
      have hmin : persistMin ≤ s.ctx.persistIntvl :=
        (h.interval.range.resolve_left (h.interval.started hzero)).1
      have hmin : (persistMin : ℚ) ≤ s.ctx.persistIntvl := by exact_mod_cast hmin
      refine List.pairwise_cons.mpr ⟨?_, h.apart⟩
      intro t ht
      have := h.last t ht
      linarith
    · exact h.apart

/-- In every run in which the timer is started before it is needed. -/
theorem persist_timer_sane (k : Crypto) {s : Probing}
    (hs : ((probing k).restrict fun s e => e.event.StartsTimer s.ctx).Reachable s) : PersistSane s := by
  have hpaced : Paced s := by
    refine Machine.Reachable.invariant (P := Paced) ?_ ?_ hs
    · rintro s ⟨hborn, htimer, hclock, hprobes⟩
      refine ⟨?_, htimer ▸ hclock, ?_, ?_⟩
      · rcases Born.control hborn with heq | heq <;> rw [heq] <;> exact .fresh _
      · rw [hprobes]
        intro t ht
        cases ht
      · rw [hprobes]
        exact List.Pairwise.nil
    · intro s e h he
      exact h.step he.1 he.2
  refine ⟨?_, hpaced.apart, ?_⟩
  · intro hzero
    exact hpaced.interval.range.resolve_left (hpaced.interval.started hzero)
  · intro env hp
    rw [ControlSteps.persistIntvl_handleTimeout, if_pos hp]

/-- A pass in which only the persist timer has expired. -/
def samplePersistPass : TimerEnv where
  waitExpired := false
  keepAliveExpired := false
  persistExpired := true
  ifaceSet := false
  expired _ := false
  lastExpired _ := false

def sampleByte (window : UInt32) : Datagram :=
  mkDatagram (dtpGenerateHeader 300 256 9 {} window) [7]

def sampleBatch (ack : Option (UInt32 × UInt16)) (window : UInt32) (t : ℚ) : TimedEvent :=
  ⟨.conn (.own (.batch ⟨ack, [sampleByte window]⟩)), t, t, t⟩

def samplePass (t : ℚ) : TimedEvent := ⟨.conn (.own (.timeout samplePersistPass)), t, t, t⟩

/-- The server's context at the time 0. -/
def sampleProbing : Probing := ⟨sampleAccepted, 0, 0, []⟩

theorem sampleProbing_init : (probing toyCrypto).init sampleProbing :=
  ⟨sampleAccepted_born, rfl, le_refl _, rfl⟩

theorem allowed_batch {k : Crypto} {s : Probing} {p : AdjPktInfo} {t : ℚ}
    (hs : s.ctx.state ≠ .synSent ∧ s.ctx.state ≠ .listen) (ht : s.clock ≤ t) :
    (probing k).allowed s ⟨.conn (.own (.batch p)), t, t, t⟩ :=
  ⟨hs, ⟨ht, le_refl _, le_refl _⟩, fun env henv => by cases henv⟩

theorem allowed_pass {k : Crypto} {s : Probing} {env : TimerEnv} {t : ℚ} (ht : s.clock ≤ t)
    (hexp : env.persistExpired = decide ((s.ctx.persistIntvl : ℚ) < t - s.timer)) :
    (probing k).allowed s ⟨.conn (.own (.timeout env)), t, t, t⟩ := by
  refine ⟨trivial, ⟨ht, le_refl _, le_refl _⟩, ?_⟩
  rintro env' henv
  cases henv
  exact hexp

/-- An ACK shuts the window at the time 0, with a data packet behind it; the next probes go out after 6 seconds and
11 seconds later. -/
theorem persist_timer_sane_ack : ∃ s : Probing, s.probes = [17, 6] ∧ PersistSane s := by
  have hadm : ((probing toyCrypto).restrict fun s e => e.event.StartsTimer s.ctx).Admits sampleProbing
      [sampleBatch (some (256, 0)) 0 0, samplePass 6, samplePass 17] :=
    ⟨⟨allowed_batch (by decide +kernel) (by decide +kernel), fun _ => Or.inr (by decide +kernel)⟩,
      ⟨allowed_pass (by decide +kernel) (by decide +kernel), trivial⟩,
      ⟨allowed_pass (by decide +kernel) (by decide +kernel), trivial⟩, trivial⟩
  have hinit : ((probing toyCrypto).restrict fun s e => e.event.StartsTimer s.ctx).init sampleProbing :=
    sampleProbing_init
  have hrun := Machine.Reachable.run (.init hinit) hadm
  exact ⟨_, by decide +kernel, persist_timer_sane toyCrypto hrun⟩

/-- A data packet shuts the window at the time 0; a pass sends a probe at the time 1, and the next at the time 2. -/
theorem data_packet_starts_no_timer : ∃ s : Probing, (probing toyCrypto).Reachable s ∧
    s.ctx.isHerWindowZero = true ∧ s.ctx.persistIntvl = 0 ∧ s.probes = [2, 1] := by
  have hadm : (probing toyCrypto).Admits sampleProbing
      [⟨sampleKeyACK, 0, 0, 0⟩, sampleBatch none 0 0, samplePass 1, samplePass 2] :=
    ⟨allowed_batch (by decide +kernel) (by decide +kernel), allowed_batch (by decide +kernel) (by decide +kernel),
      allowed_pass (by decide +kernel) (by decide +kernel), allowed_pass (by decide +kernel) (by decide +kernel),
      trivial⟩
  exact ⟨_, .run (.init sampleProbing_init) hadm, by decide +kernel, by decide +kernel, by decide +kernel⟩

end Cedos.Dtp
