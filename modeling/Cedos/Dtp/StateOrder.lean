import Cedos.Dtp.Dispatch
import Cedos.Dtp.Onward
import Cedos.Dtp.Sockopt

/-!
# The order of the connection states

Whatever arrives on the sockets of a host, whatever its applications call, and whichever
timers expire, a context never goes back to an earlier state. The exceptions are outside of
this: `dtp_connect` and `dtp_listen` set the state, and a new connection may take over the
socket of one that is gone.
-/

namespace Cedos.Dtp

open DtpContext

/-- What happens on a host. -/
inductive NodeEvent
  /-- datagrams have arrived on a socket -/
  | read (isListen : Bool) (sock : ℕ) (as : List Arrival)
  /-- a call of the application on a context, or the timer's pass over it -/
  | own (s : ℕ) (e : Event)
  /-- `DTPCloseConnection` -/
  | closeConnection (s : ℕ)
  | setsockopt (s : ℕ) (o : SockOpt) (env : SockoptEnv)

namespace NodeEvent

/-- The context `s` may be created anew. -/
def Creates (s : ℕ) : NodeEvent → Prop
  | .read _ _ as => ∃ a ∈ as, a.env.fresh.map Prod.fst = some s
  | _ => False

/-- What it does. When a parser does not return there is no next state. -/
def apply (k : Crypto) (n : Node) : NodeEvent → Node
  | .read isListen sock as =>
    match n.onReadEvent k isListen sock as with
    | .ok n' => n'
    | .error _ => n
  | .own s e => n.modify s (e.apply k)
  | .closeConnection s => n.modify s dtpCloseConnection
  | .setsockopt s o env => n.modify s fun c => (c.dtpSetsockopt o env).1

end NodeEvent

def hosting (k : Crypto) : Machine Node NodeEvent where
  init _ := True
  allowed _ _ := True
  apply n e := e.apply k n

/-! ## One step -/

theorem Event.rank_le (k : Crypto) (c : DtpContext) (e : Event) : c.state.rank ≤ (e.apply k c).state.rank := by
  by_cases hs : c.state ≠ .synSent ∨ e.answersSYN = false
  · exact SockState.rank_le_of_leads (Onward.apply k hs).state
  · -- `SYN_SENT` is among the first
    simp only [not_or, not_not] at hs
    simp [hs.1, SockState.rank]

theorem CtxStep.rank_le {k : Crypto} {c c' : DtpContext} (h : CtxStep k c c') : c.state.rank ≤ c'.state.rank := by
  cases h with
  | event e => exact e.rank_le k c
  | repeatSYN d addr hid key pad => rw [state_repeatSYN]
  | refuse fid addr => exact le_rfl
  | enqueue s => exact le_rfl
  | check b => exact le_rfl

theorem Node.Steps.rank_le {k : Crypto} {s : ℕ} {n n' : Node} (h : n.Steps k s n') :
    (n.ctx s).state.rank ≤ (n'.ctx s).state.rank := by
  rw [Node.Steps] at h
  generalize n.ctx s = c, n'.ctx s = c' at h
  induction h with
  | refl => exact le_rfl
  | tail _ hstep ih => exact ih.trans hstep.rank_le

theorem rank_le_modify (n : Node) (t : ℕ) {f : DtpContext → DtpContext}
    (hf : ∀ c, c.state.rank ≤ (f c).state.rank) (s : ℕ) :
    (n.ctx s).state.rank ≤ ((n.modify t f).ctx s).state.rank := by
  by_cases hs : s = t
  · subst hs
    simpa [Node.modify, Node.set] using hf (n.ctx s)
  · simp [Node.modify, Node.set, Function.update_of_ne hs]

theorem NodeEvent.rank_le (k : Crypto) (n : Node) {e : NodeEvent} {s : ℕ} (hs : ¬e.Creates s) :
    (n.ctx s).state.rank ≤ ((e.apply k n).ctx s).state.rank := by
  cases e with
  | read isListen sock as =>
    simp only [NodeEvent.apply]
    split
    · rename_i n' hn'
      refine Node.Steps.rank_le (Node.Steps.onReadEvent ?_ hn')
      intro a ha hfresh
      exact hs ⟨a, ha, hfresh⟩
    · exact le_rfl
  | own t e => exact rank_le_modify n t (fun c => e.rank_le k c) s
  | closeConnection t =>
    refine rank_le_modify n t (fun c => ?_) s
    exact SockState.rank_le_of_leads (Onward.of_moves (.of_act (.timedOut c) (by decide) (by decide))).state
  | setsockopt t o env =>
    have hopt : ∀ c : DtpContext, c.state.rank ≤ (c.dtpSetsockopt o env).1.state.rank := by
      intro c
      rw [(dtpSetsockopt_frame c o env).2.2]
    exact rank_le_modify n t hopt s

/-! ## Runs -/

theorem eq_closed_of_rank_le : ∀ {s : SockState}, SockState.closed.rank ≤ s.rank → s = .closed := by
  decide

theorem eq_timeWait_or_closed_of_rank_le :
    ∀ {s : SockState}, SockState.timeWait.rank ≤ s.rank → s = .timeWait ∨ s = .closed := by
  decide

/-- The state of a context only moves forward, and a context in `TIME_WAIT` or `CLOSED` is
never revived, in every run in which the context is not created anew. -/
theorem state_moves_forward (k : Crypto) (n : Node) (es : List NodeEvent) (s : ℕ)
    (hs : ∀ e ∈ es, ¬e.Creates s) :
    (n.ctx s).state.rank ≤ (((hosting k).run n es).ctx s).state.rank ∧
      ((n.ctx s).state = .closed → (((hosting k).run n es).ctx s).state = .closed) ∧
      ((n.ctx s).state = .timeWait → (((hosting k).run n es).ctx s).state = .timeWait ∨
        (((hosting k).run n es).ctx s).state = .closed) := by
  have hrank : (n.ctx s).state.rank ≤ (((hosting k).run n es).ctx s).state.rank := by
    induction es generalizing n with
    | nil => exact le_rfl
    | cons e es ih =>
      have hstep := NodeEvent.rank_le k n (hs e (by simp))
      exact hstep.trans (ih (e.apply k n) fun e' he' => hs e' (by simp [he']))
  refine ⟨hrank, ?_, ?_⟩
  · intro hclosed
    rw [hclosed] at hrank
    exact eq_closed_of_rank_le hrank
  · intro hwait
    rw [hwait] at hrank
    exact eq_timeWait_or_closed_of_rank_le hrank

/-- An established connection on socket `3` of a host. -/
def sampleNode : Node where
  ctx := fun _ => { dtpCreateContext with state := .established, flowID := 9 }
  flowMap := [3]

/-- The application closes, and the connection is given up. -/
theorem state_moves_forward_close :
    ((((hosting sampleCrypto).run sampleNode [.own 3 .close]).ctx 3).state = .finWait1) ∧
      2 ≤ (((hosting sampleCrypto).run ((hosting sampleCrypto).run sampleNode [.own 3 .close])
        [.read false 3 [], .closeConnection 3]).ctx 3).state.rank := by
  have hstate : (((hosting sampleCrypto).run sampleNode [.own 3 .close]).ctx 3).state = .finWait1 := by
    decide +kernel
  refine ⟨hstate, ?_⟩
  have hforward := (state_moves_forward sampleCrypto
    ((hosting sampleCrypto).run sampleNode [.own 3 .close]) [.read false 3 [], .closeConnection 3] 3
    (by simp [NodeEvent.Creates])).1
  rwa [hstate] at hforward

end Cedos.Dtp
