import Cedos.Dtp.KeyAgreement
import Cedos.Dtp.Mobile
import Cedos.Dtp.RetransQueue

/-!
# Earliest deadline first

`InsertToRetransQueue` puts a context before the first one with a later `tc_deadlineTime.tv_sec`, and `Schedule` lets
the first context of the queue send. A new context is due at once; `DTP_SO_BLOCKSIZE` and `DTP_SO_DEADLINE` set the
time of the deadline, take the context out of the queue and insert it again. `HandleSYNPacket` sets it too, from the
deadline option of the SYN, but after `DTPCreateContext` has inserted the context, and leaves it in its place: the
new flow stays before flows that are due earlier.

The socket calls and handlers are whole steps here; `Cedos.Dtp.RetransQueue` has the steps of `dtp_setsockopt`, and
when a context is in the queue at all.
-/

namespace Cedos.Dtp

open DtpContext

/-- `t` is not later than `u`. -/
def Timeval.Le (t u : Timeval) : Prop := t.sec < u.sec ∨ t.sec = u.sec ∧ t.usec ≤ u.usec

theorem Timeval.Le.sec {t u : Timeval} (h : t.Le u) : t.sec ≤ u.sec := by
  rcases h with h | h
  · exact h.le
  · exact h.1.le

/-- The contexts of a host by their sockets, the retransmission queue, and the time. -/
structure DeadlineHost where
  ctx : ℕ → MobileContext
  queue : List ℕ
  clock : Timeval

/-- The steps of the library and of its callers. -/
inductive DeadlineEvent
  /-- `dtp_socket` -/
  | socket (x : ℕ) (scale : UInt8) (id : List UInt8) (port : UInt16) (now : Timeval)
  /-- `HandleSYNPacket`, with the times at which the context is created and its deadline is set -/
  | syn (x : ℕ) (c : DtpContext) (created done : Timeval)
  | connect (x : ℕ) (addr : SockAddr) (fid : UInt32) (n e : List UInt8)
  | listen (x : ℕ) (bound alloc : Bool) (backlog : ℤ)
  | setsockopt (x : ℕ) (o : SockOpt) (env : SockoptEnv) (now : Timeval)
  | event (x : ℕ) (e : Event)

/-- The place in the queue: `InsertToRetransQueue` with the seconds of the deadlines. -/
def insertToRetransQueue (key : ℕ → ℤ) (x : ℕ) (q : List ℕ) : List ℕ :=
  q.orderedInsert (fun a b => key a < key b) x

/-- `tc_deadlineTime`, `tc_lastBlockRemain` and `tc_useMobile` after a call of `dtp_setsockopt` that has made `r` of
the context. -/
def MobileContext.afterOption (m : MobileContext) (o : SockOpt) (r : DtpContext × CallResult Unit × Bool)
    (now : Timeval) : MobileContext :=
  { m with
    ctx := r.1
    deadlineTime := if r.2.2 && decide (0 < r.1.deadline ∧ 0 < r.1.blockSize)
      then ⟨now.sec + r.1.deadline, now.usec⟩ else m.deadlineTime
    lastBlockRemain := match o with
      | .blockSize _ => if r.2.2 then r.1.blockRemain else m.lastBlockRemain
      | _ => m.lastBlockRemain
    useMobile := m.useMobile || (r.2.2 && decide (o = .deadline 0)) }

namespace DeadlineHost

/-- The seconds of the deadline, by which the queue is ordered. -/
def key (s : DeadlineHost) (x : ℕ) : ℤ := (s.ctx x).deadlineTime.sec

def set (s : DeadlineHost) (x : ℕ) (m : MobileContext) : DeadlineHost :=
  { s with ctx := Function.update s.ctx x m }

/-- Insert a context into the queue. -/
def link (s : DeadlineHost) (x : ℕ) : DeadlineHost :=
  { s with queue := insertToRetransQueue s.key x s.queue }

/-- Take a context out of the queue. -/
def unlink (s : DeadlineHost) (x : ℕ) : DeadlineHost := { s with queue := s.queue.erase x }

def tick (s : DeadlineHost) (now : Timeval) : DeadlineHost := { s with clock := now }

/-- `DTPCreateContext`: the new context is due now. -/
def create (s : DeadlineHost) (x : ℕ) (c : DtpContext) (now : Timeval) : DeadlineHost :=
  ((s.set x { ctx := c, deadlineTime := now }).link x).tick now

/-- One step. -/
def apply (k : Crypto) (s : DeadlineHost) : DeadlineEvent → DeadlineHost
  | .socket x scale id port now => s.create x (hostContext scale id port) now
  | .syn x c created done =>
    let s := s.create x c created
    (if 0 < c.deadline then s.set x { s.ctx x with deadlineTime := ⟨done.sec + c.deadline, 0⟩ } else s).tick done
  | .connect x addr fid n e => s.set x { s.ctx x with ctx := (s.ctx x).ctx.dtpConnect addr fid n e }
  | .listen x bound alloc backlog =>
    s.set x { s.ctx x with ctx := ((s.ctx x).ctx.dtpListen bound alloc backlog).1 }
  | .setsockopt x o env now =>
    let r := (s.ctx x).ctx.dtpSetsockopt o env
    let s := (s.set x ((s.ctx x).afterOption o r now)).tick now
    if r.2.2 then (s.unlink x).link x else s
  | .event x e =>
    let t := s.set x { s.ctx x with ctx := e.apply k (s.ctx x).ctx }
    if e.unlinks (s.ctx x).ctx then t.unlink x else t

/-- When a step can be taken. -/
def allowed (k : Crypto) (s : DeadlineHost) : DeadlineEvent → Prop
  | .socket x _ _ _ now => x ∉ s.queue ∧ s.clock.Le now
  | .syn x c created done => x ∉ s.queue ∧ s.clock.Le created ∧ created.Le done ∧
      ∃ env d addr, handleSYNPacket k.toRsa env none d addr = .ok (.created c)
  | .setsockopt _ _ _ now => s.clock.Le now
  | .event x e => e.offered (s.ctx x).ctx
  | _ => True

def flows (s : DeadlineHost) : List MobileContext := s.queue.map s.ctx

end DeadlineHost

def scheduling (k : Crypto) : Machine DeadlineHost DeadlineEvent where
  init s := s.queue = []
  allowed := DeadlineHost.allowed k
  apply := DeadlineHost.apply k

/-- The queue is sorted by the seconds of the deadlines, and none of its flows is due before one that `Schedule`
allows to send. -/
structure EarliestFirst (s : DeadlineHost) : Prop where
  sorted : s.flows.Pairwise fun m m' => m.deadlineTime.sec ≤ m'.deadlineTime.sec
  head : ∀ (net : Networks) (now wSpeed cSpeed : ℚ), ∀ m ∈ (schedule net now wSpeed cSpeed s.flows).1,
    m.scheduleSend = true → ∀ m' ∈ s.flows, m.deadlineTime.sec ≤ m'.deadlineTime.sec

/-- A flow that comes with a deadline is due no later than the flows it is put before. -/
def DeadlineEvent.KeepsPlace (s : DeadlineHost) : DeadlineEvent → Prop
  | .syn _ c created done => 0 < c.deadline → ∀ y ∈ s.queue, created.sec < s.key y → done.sec + c.deadline ≤ s.key y
  | _ => True

/-! ## What one step keeps -/

/-- No context is in the queue twice, and the queue is sorted. -/
structure DeadlineHost.Ranked (s : DeadlineHost) : Prop where
  nodup : s.queue.Nodup
  sorted : KeySorted s.key s.queue

namespace DeadlineHost
variable {s : DeadlineHost} {x : ℕ} {m : MobileContext}

theorem key_set_of_ne {y : ℕ} (hy : y ≠ x) : (s.set x m).key y = s.key y := by
  simp [key, set, Function.update_of_ne hy]

theorem key_set_self : (s.set x m).key x = m.deadlineTime.sec := by simp [key, set]

/-- A context changes, but not its deadline. -/
theorem key_set_of_same (hm : m.deadlineTime = (s.ctx x).deadlineTime) : (s.set x m).key = s.key := by
  ext y
  by_cases hy : y = x
  · rw [hy, key_set_self, hm]
    rfl
  · exact key_set_of_ne hy

theorem key_set_of_not_mem (hx : x ∉ s.queue) : ∀ y ∈ s.queue, (s.set x m).key y = s.key y := by
  intro y hy
  refine key_set_of_ne ?_
  rintro rfl
  exact hx hy

variable (h : s.Ranked)
include h

theorem Ranked.set (hm : m.deadlineTime = (s.ctx x).deadlineTime) : (s.set x m).Ranked where
  nodup := h.nodup
  sorted := by
    rw [key_set_of_same hm]
    exact h.sorted

theorem Ranked.tick (now : Timeval) : (s.tick now).Ranked := ⟨h.nodup, h.sorted⟩

theorem Ranked.unlink (x : ℕ) : (s.unlink x).Ranked where
  nodup := h.nodup.erase x
  sorted := h.sorted.erase x

theorem Ranked.link (hx : x ∉ s.queue) : (s.link x).Ranked where
  nodup := ((List.perm_orderedInsert _ x s.queue).nodup_iff).mpr (List.nodup_cons.mpr ⟨hx, h.nodup⟩)
  sorted := h.sorted.orderedInsert x

/-- The context is not in the queue, so its deadline may change. -/
theorem Ranked.set_of_not_mem (hx : x ∉ s.queue) (m : MobileContext) : (s.set x m).Ranked where
  nodup := h.nodup
  sorted := h.sorted.congr (key_set_of_not_mem hx)

theorem Ranked.create (hx : x ∉ s.queue) (c : DtpContext) (now : Timeval) : (s.create x c now).Ranked :=
  ((h.set_of_not_mem hx _).link hx).tick now

/-- The deadline of a SYN is set when the context has its place: the order is kept exactly when none of the flows
behind it is due before it. -/
theorem ranked_syn_iff (hx : x ∉ s.queue) {c : DtpContext} {created done : Timeval}
    (ht : created.Le done) (hd : 0 < c.deadline) :
    ((s.create x c created).set x
        { (s.create x c created).ctx x with deadlineTime := ⟨done.sec + c.deadline, 0⟩ }).Ranked ↔
      ∀ y ∈ s.queue, created.sec < s.key y → done.sec + c.deadline ≤ s.key y := by
  generalize hnew : (s.set x { ctx := c, deadlineTime := created } : DeadlineHost) = s₁
  generalize hset : (s.create x c created).set x
    { (s.create x c created).ctx x with deadlineTime := ⟨done.sec + c.deadline, 0⟩ } = s₂
  have hqueue : s₂.queue = s.queue.orderedInsert (fun a b => s₁.key a < s₁.key b) x := by
    rw [← hset, ← hnew]
    rfl
  have hself₁ : s₁.key x = created.sec := by rw [← hnew, key_set_self]
  have hself₂ : s₂.key x = done.sec + c.deadline := by rw [← hset, key_set_self]
  have hothers₁ : ∀ y ∈ s.queue, s₁.key y = s.key y := hnew ▸ key_set_of_not_mem hx
  have hothers₂ : ∀ y ∈ s.queue, s₂.key y = s₁.key y := by
    intro y hy
    have hne : y ≠ x := fun heq => hx (heq ▸ hy)
    rw [← hset, key_set_of_ne hne, ← hnew]
    rfl
  have hle : s₁.key x ≤ s₂.key x := by
    rw [hself₁, hself₂]
    linarith [ht.sec]
  have hiff := keySorted_orderedInsert_iff (h.sorted.congr hothers₁) hothers₂ hle
  rw [← hqueue, hself₁, hself₂] at hiff
  have hnodup : s₂.queue.Nodup := by
    rw [hqueue]
    exact ((List.perm_orderedInsert _ x s.queue).nodup_iff).mpr (List.nodup_cons.mpr ⟨hx, h.nodup⟩)
  constructor
  · intro hranked y hy hlt
    rw [← hothers₁ y hy] at hlt ⊢
    exact hiff.mp hranked.sorted y hy hlt
  · intro hplace
    refine ⟨hnodup, hiff.mpr fun y hy hlt => ?_⟩
    rw [hothers₁ y hy] at hlt ⊢
    exact hplace y hy hlt

theorem Ranked.apply {k : Crypto} {e : DeadlineEvent} (ha : s.allowed k e) (he : e.KeepsPlace s) :
    (s.apply k e).Ranked := by
  cases e with
  | socket x scale id port now => exact h.create ha.1 _ now
  | syn x c created done =>
    simp only [DeadlineHost.apply]
    split_ifs with hd
    · exact ((ranked_syn_iff h ha.1 ha.2.2.1 hd).mpr (he hd)).tick done
    · exact (h.create ha.1 c created).tick done
  | connect x addr fid n e => exact h.set rfl
  | listen x bound alloc backlog => exact h.set rfl
  | setsockopt x o env now =>
    simp only [DeadlineHost.apply]
    split_ifs with hre
    · -- the context is out of the queue when its key counts
      have hout : x ∉ (s.unlink x).queue := h.nodup.not_mem_erase
      exact (((h.unlink x).set_of_not_mem hout _).tick now).link hout
    · exact (h.set (by simp [MobileContext.afterOption, hre])).tick now
  | event x e =>
    have hset : (s.set x { s.ctx x with ctx := e.apply k (s.ctx x).ctx }).Ranked := h.set rfl
    simp only [DeadlineHost.apply]
    split_ifs
    · exact hset.unlink x
    · exact hset

theorem Ranked.flows : s.flows.Pairwise fun m m' => m.deadlineTime.sec ≤ m'.deadlineTime.sec :=
  List.pairwise_map.mpr h.sorted

end DeadlineHost

/-- Only the first flow may send. -/
theorem schedule_head {net : Networks} {now wSpeed cSpeed : ℚ} {q : List MobileContext} {m : MobileContext}
    (hm : m ∈ (schedule net now wSpeed cSpeed q).1) (hsend : m.scheduleSend = true) :
    ∃ m₀ rest, q = m₀ :: rest ∧ m.deadlineTime = m₀.deadlineTime := by
  cases q with
  | nil => simp [schedule] at hm
  | cons m₀ rest =>
    refine ⟨m₀, rest, rfl, ?_⟩
    have hrest : m ∉ rest.map fun m => { m with scheduleSend := false } := by
      intro hmem
      obtain ⟨m', -, rfl⟩ := List.mem_map.mp hmem
      cases hsend
    simp only [schedule, List.map_cons] at hm
    split_ifs at hm
    · rw [(List.mem_cons.mp hm).resolve_right hrest]
    · rw [(List.mem_cons.mp hm).resolve_right hrest]

/-- In every run in which each new flow with a deadline keeps its place. -/
theorem earliest_deadline_first (k : Crypto) {s : DeadlineHost}
    (hs : ((scheduling k).restrict DeadlineEvent.KeepsPlace).Reachable s) : EarliestFirst s := by
  have hranked : s.Ranked := by
    refine Machine.Reachable.invariant (P := DeadlineHost.Ranked) ?_ ?_ hs
    · intro s hempty
      have hnil : s.queue = [] := hempty
      constructor
      · rw [hnil]
        exact List.nodup_nil
      · rw [hnil]
        exact List.Pairwise.nil
    · intro s e h he
      exact h.apply he.1 he.2
  refine ⟨hranked.flows, ?_⟩
  intro net now wSpeed cSpeed m hm hsend m' hm'
  obtain ⟨m₀, rest, hq, htime⟩ := schedule_head hm hsend
  have hsorted := hranked.flows
  rw [hq] at hsorted hm'
  rw [htime]
  cases List.mem_cons.mp hm' with
  | inl heq => rw [heq]
  | inr hmem => exact (List.pairwise_cons.mp hsorted).1 m' hmem

/-- The SYN of a client whose block has to be there in 100 seconds. -/
def sampleDeadlineSYN : Datagram :=
  let c : DtpContext := { hostContext 4 (List.replicate 20 7) 5000 with deadline := 100 }
  ((c.dtpConnect ⟨1, 80⟩ 9 [35] [5]).wire.map Prod.snd).getD 0 sampleCaller.syn

def sampleDue : DtpContext :=
  match handleSYNPacket toyCrypto.toRsa (sampleSynEnv 1) none sampleDeadlineSYN ⟨2, 5000⟩ with
  | .ok (.created c) => c
  | _ => dtpCreateContext

theorem sampleDue_created : ∃ env d addr, handleSYNPacket toyCrypto.toRsa env none d addr = .ok (.created sampleDue) := by
  have hstate : sampleDue.state = .synRcvd := by decide +kernel
  refine ⟨sampleSynEnv 1, sampleDeadlineSYN, ⟨2, 5000⟩, ?_⟩
  rw [sampleDue] at hstate ⊢
  split at hstate
  · rename_i c hsyn
    rw [hsyn]
  · cases hstate

def sampleSocket : DeadlineEvent := .socket 1 4 (List.replicate 20 9) 6000 ⟨0, 0⟩

def sampleDueSYN : DeadlineEvent := .syn 2 sampleDue ⟨0, 0⟩ ⟨0, 0⟩

/-- No sockets yet. -/
def sampleIdle : DeadlineHost := ⟨fun _ => ⟨dtpCreateContext, ⟨0, 0⟩, false, false, false, false, 0, 0, 0⟩, [], ⟨0, 0⟩⟩

/-- A flow that is due in 100 seconds comes to one that is due now. -/
theorem earliest_deadline_first_syn : EarliestFirst
    ((scheduling toyCrypto).run sampleIdle [sampleSocket, sampleDueSYN]) := by
  have hruns : ∀ c, (∃ env d addr, handleSYNPacket toyCrypto.toRsa env none d addr = .ok (.created c)) →
      ((scheduling toyCrypto).restrict DeadlineEvent.KeepsPlace).Admits sampleIdle
        [sampleSocket, .syn 2 c ⟨0, 0⟩ ⟨0, 0⟩] := by
    intro c hc
    refine ⟨⟨⟨by decide, Or.inr ⟨rfl, le_refl _⟩⟩, trivial⟩, ⟨⟨by decide, ?_, ?_, hc⟩, ?_⟩, trivial⟩
    · exact Or.inr ⟨rfl, le_refl _⟩
    · exact Or.inr ⟨rfl, le_refl _⟩
    · intro hd y hy hlt
      have hkeys : ∀ y ∈ (sampleIdle.apply toyCrypto sampleSocket).queue,
          (sampleIdle.apply toyCrypto sampleSocket).key y = 0 := by decide +kernel
      have hkey := hkeys y hy
      exact absurd (hlt.trans_eq hkey) (lt_irrefl 0)
  exact earliest_deadline_first toyCrypto (Machine.Reachable.run (.init rfl) (hruns sampleDue sampleDue_created))

/-- The flow 1 is due in 10 seconds when the SYN comes; the new flow stays before it, and may send. -/
theorem syn_deadline_out_of_order : ∃ s, (scheduling toyCrypto).Reachable s ∧
    s.flows.map (fun m => m.deadlineTime.sec) = [100, 10] ∧
    (schedule {} 0 1 1 s.flows).1.map (fun m => m.scheduleSend) = [true, false] := by
  have hruns : ∀ c, (∃ env d addr, handleSYNPacket toyCrypto.toRsa env none d addr = .ok (.created c)) →
      (scheduling toyCrypto).Admits sampleIdle
        [sampleSocket, .setsockopt 1 (.blockSize 5) ⟨true, true, .done ()⟩ ⟨0, 0⟩,
          .setsockopt 1 (.deadline 10) ⟨true, true, .done ()⟩ ⟨0, 0⟩, .syn 2 c ⟨0, 0⟩ ⟨0, 0⟩] := by
    intro c hc
    refine ⟨⟨by decide, Or.inr ⟨rfl, le_refl _⟩⟩, Or.inr ⟨rfl, le_refl _⟩, Or.inr ⟨rfl, le_refl _⟩,
      ⟨by decide +kernel, Or.inr ⟨rfl, le_refl _⟩, Or.inr ⟨rfl, le_refl _⟩, hc⟩, trivial⟩
  exact ⟨_, Machine.Reachable.run (.init rfl) (hruns sampleDue sampleDue_created), by decide +kernel, by decide +kernel⟩

end Cedos.Dtp
