import Cedos.Dtp.Lifetime

/-!
# The FIN flag and the state

`DTPSendFINPacket` moves `ESTABLISHED` and `SYN_SENT` to `FIN_WAIT_1` and `CLOSE_WAIT` to `LAST_ACK`; an assertion
after it, that the state is now one of the two, is commented out. `DTPWriteAvail` calls it in every state once
`dtp_close` has been called. In `LISTEN` and `SYN_RCVD` the FIN is sent and the state stays, and from `SYN_RCVD`
the connection is even established with its FIN sent.

Where `dtp_close` is not called in these two states, and no context is opened again whose FIN has been sent, the
flag implies a state of the teardown.
-/

namespace Cedos.Dtp

open DtpContext

namespace SockState

/-- The states of the teardown, and `CLOSED`. -/
def admitsFIN : SockState → Bool
  | .finWait1 | .finWait2 | .timeWait | .lastAck | .closed => true
  | _ => false

def isPassive : SockState → Bool
  | .synRcvd | .listen => true
  | _ => false

theorem admitsFIN_finState : ∀ {s : SockState}, s.isPassive = false →
    (finState s).admitsFIN = true ∧ (finState s).isPassive = false := by decide

theorem admitsFIN_tearsDown : ∀ {s s' : SockState}, s.tearsDown s' = true →
    (s.admitsFIN = true → s'.admitsFIN = true) ∧ s'.isPassive = false := by decide

end SockState

/-- A FIN has been sent in a closing state only, and a context that is still being opened has not been closed. -/
structure FinSound (v : ControlState) : Prop where
  fin : v.isFINSent = true → v.state.admitsFIN = true
  opening : v.state.isPassive = true → v.closeCalled = false

namespace FinSound

/-- A step from a sound state, where `dtp_close` may be called outside `SYN_RCVD` and `LISTEN` only. -/
theorem step {A : Cause → ControlState → Prop} (hA : ∀ v, A .close v → v.state.isPassive = false)
    {v v' : ControlState} (hstep : ControlStep A v v') (h : FinSound v) : FinSound v' := by
  cases hstep with
  | fin hc =>
    have hopen : v.state.isPassive = false := by
      by_contra hs
      rw [Bool.not_eq_false] at hs
      simp [h.opening hs] at hc
    obtain ⟨hadmits, hnot⟩ := SockState.admitsFIN_finState hopen
    exact ⟨fun _ => hadmits, fun hs => absurd (hnot.symm.trans hs) (by decide)⟩
  | established hs =>
    constructor
    · intro hsent
      have hadmits := h.fin hsent
      rcases hs with hs | hs <;> rw [hs] at hadmits <;> cases hadmits
    · intro hs
      cases hs
  | onward hs =>
    obtain ⟨hadmits, hnot⟩ := SockState.admitsFIN_tearsDown hs
    exact ⟨fun hsent => hadmits (h.fin hsent), fun hs => absurd (hnot.symm.trans hs) (by decide)⟩
  | closed => exact ⟨fun _ => rfl, fun hs => by cases hs⟩
  | unsent => exact ⟨fun hsent => (by cases hsent), h.opening⟩
  | released => exact ⟨h.fin, fun _ => rfl⟩
  | called ha => exact ⟨h.fin, fun hs => absurd ((hA v ha).symm.trans hs) (by decide)⟩
  | zeroACK => exact ⟨h.fin, h.opening⟩
  | reopened => exact ⟨h.fin, h.opening⟩
  | zeroData => exact ⟨h.fin, h.opening⟩
  | probe => exact ⟨h.fin, h.opening⟩

theorem steps {A : Cause → ControlState → Prop} (hA : ∀ v, A .close v → v.state.isPassive = false)
    {c c' : DtpContext} (h : FinSound c.control) (hsteps : ControlSteps A c c') : FinSound c'.control :=
  hsteps.invariant (fun _ _ hstep hv => step hA hstep hv) h

end FinSound

/-- `dtp_close` is not called during the handshake of a server or on a listening socket, and what is opened has
not sent a FIN before. -/
def LifeEvent.ClosesInTurn (c : DtpContext) : LifeEvent → Prop
  | .conn (.own .close) => c.state.isPassive = false
  | .connect _ _ _ _ => c.isFINSent = false
  | .listen bound _ _ => bound = true → c.state = .closed → c.isFINSent = false ∧ c.closeCalled = false
  | _ => True

theorem FinSound.fresh (s : SockState) : FinSound (.fresh s) where
  fin hsent := by cases hsent
  opening _ := rfl

theorem FinSound.apply (k : Crypto) {c : DtpContext} {e : LifeEvent} (h : FinSound c.control)
    (he : e.ClosesInTurn c) : FinSound (e.apply k c).control := by
  cases hopens : e.opens with
  | false =>
    refine h.steps ?_ (ControlSteps.apply k hopens)
    rintro v ⟨rfl, rfl⟩
    exact he
  | true =>
    cases e with
    | connect addr fid n e =>
      have hstarted : FinSound (c.startConnect addr fid n e).control := by
        constructor
        · intro hsent
          exact absurd (he.symm.trans hsent) (by decide)
        · intro hs
          cases hs
      exact hstarted.steps (A := fun _ _ => False) (fun _ hk => hk.elim) (ControlSteps.of_acts (.dtpWriteAvail _))
    | listen bound alloc backlog =>
      simp only [LifeEvent.apply, dtpListen]
      split_ifs with hb hs hq hok hok
      all_goals try exact h
      all_goals
        have hb : bound = true := by simpa using hb
        obtain ⟨hsent, hcalled⟩ := he hb (not_not.mp hs)
        refine ⟨fun hsent' => absurd (hsent.symm.trans hsent') (by decide), fun _ => hcalled⟩
    | _ => cases hopens

/-- In every run in which `dtp_close` and the opening calls come in turn. -/
theorem fin_flag_closing (k : Crypto) {c : DtpContext} (hc : ((lifetime k).restrict LifeEvent.ClosesInTurn).Reachable c)
    (hsent : c.isFINSent = true) : c.state.admitsFIN = true := by
  have hsound : FinSound c.control := by
    refine Machine.Reachable.invariant (P := fun c => FinSound c.control) ?_ ?_ hc
    · intro c hborn
      rcases Born.control hborn with heq | heq <;> rw [heq] <;> exact .fresh _
    · intro c e h he
      exact h.apply k he.2
  exact hsound.fin hsent

theorem fin_flag_closing_finWait1 :
    (sampleKeyACK.apply toyCrypto sampleAccepted).dtpClose.1.state.admitsFIN = true := by
  have hruns : ∀ c, Born toyCrypto c → c.state ≠ .synSent ∧ c.state ≠ .listen →
      (sampleKeyACK.apply toyCrypto c).state.isPassive = false →
      ((lifetime toyCrypto).restrict LifeEvent.ClosesInTurn).Reachable
        (sampleKeyACK.apply toyCrypto c).dtpClose.1 := by
    intro c hborn hoffered hclose
    have hadm : ((lifetime toyCrypto).restrict LifeEvent.ClosesInTurn).Admits c
        [sampleKeyACK, .conn (.own .close)] :=
      ⟨⟨hoffered, trivial⟩, ⟨trivial, hclose⟩, trivial⟩
    exact Machine.Reachable.run (.init hborn) hadm
  exact fin_flag_closing toyCrypto
    (hruns sampleAccepted sampleAccepted_born (by decide +kernel) (by decide +kernel)) (by decide +kernel)

/-- `dtp_close` on a listening socket sends a FIN, and so does `dtp_close` during the handshake, after which the
connection is established. -/
theorem fin_before_established :
    (∃ c, (lifetime toyCrypto).Reachable c ∧ c.isFINSent = true ∧ c.state = .listen) ∧
    ∃ c, (lifetime toyCrypto).Reachable c ∧ c.isFINSent = true ∧ c.state = .established := by
  constructor
  · have hadm : (lifetime toyCrypto).Admits (hostContext 4 (List.replicate 20 9) 6000)
        [.listen true true 2, .conn (.own .close)] := ⟨trivial, trivial, trivial⟩
    have hborn : Born toyCrypto (hostContext 4 (List.replicate 20 9) 6000) := .socket _ _ _
    exact ⟨_, Machine.Reachable.run (.init hborn) hadm, by decide +kernel, by decide +kernel⟩
  · have hruns : ∀ c, Born toyCrypto c → c.dtpClose.1.state ≠ .synSent ∧ c.dtpClose.1.state ≠ .listen →
        (lifetime toyCrypto).Reachable (c.dtpClose.1.processAggregatePackets ⟨some (257, 100), []⟩) := by
      intro c hborn hoffered
      have hadm : (lifetime toyCrypto).Admits c
          [.conn (.own .close), .conn (.own (.batch ⟨some (257, 100), []⟩))] := ⟨trivial, hoffered, trivial⟩
      exact Machine.Reachable.run (.init hborn) hadm
    exact ⟨_, hruns sampleAccepted sampleAccepted_born (by decide +kernel), by decide +kernel, by decide +kernel⟩

end Cedos.Dtp
