import Cedos.Dtp.Accept
import Cedos.Dtp.InFlight
import Cedos.Dtp.KeyAgreement

/-!
# A context from its creation on

A context is created by `dtp_socket` or for a SYN, and from then on socket calls, packets and the timer act on it
in any order. `dtp_connect` looks neither at the state nor at the flags it finds, and `dtp_listen` only at the
state, so a context can be opened again after it has been closed.

Two groups of its fields are written by many handlers: the state with the two flags of the teardown, and the flag
and the interval of the persist timer. `ControlStep` lists every way they change, and each event is a sequence of
such changes; whatever all of them keep holds in every run.
-/

namespace Cedos.Dtp

open DtpContext

/-! ## Runs -/

/-- What can happen to a context from its creation on. -/
inductive LifeEvent
  | conn (e : ConnEvent)
  | connect (addr : SockAddr) (fid : UInt32) (n e : List UInt8)
  | listen (bound alloc : Bool) (backlog : ℤ)
  /-- `O_NONBLOCK` is set or cleared -/
  | fcntl (nonblock : Bool)
  /-- a new connection waits on its socket -/
  | enqueue (s : ℕ)
  | accept (a : AcceptArgs)
  /-- an RST is sent from its socket -/
  | refuse (fid : UInt32) (addr : SockAddr)

namespace LifeEvent

/-- The callers' checks. -/
def offered (c : DtpContext) : LifeEvent → Prop
  | .conn e => e.offered c
  | _ => True

/-- What it does. -/
def apply (k : Crypto) (c : DtpContext) : LifeEvent → DtpContext
  | .conn e => e.apply k c
  | .connect addr fid n e => c.dtpConnect addr fid n e
  | .listen bound alloc backlog => (c.dtpListen bound alloc backlog).1
  | .fcntl nonblock => { c with nonblock := nonblock }
  | .enqueue s => { c with listenQ := c.listenQ ++ [s], pendingRead := true }
  | .accept a => (c.acceptBody a).1
  | .refuse fid addr => c.sendRSTPacket fid addr

end LifeEvent

/-- The two ways a context comes about. -/
inductive Born (k : Crypto) : DtpContext → Prop
  | socket (scale : UInt8) (id : List UInt8) (port : UInt16) : Born k (hostContext scale id port)
  | syn {scale : UInt8} {id : List UInt8} {port : UInt16} {env : SynEnv} {d : Datagram} {addr : SockAddr}
      {c : DtpContext} (hfresh : env.fresh = hostContext scale id port)
      (hsyn : handleSYNPacket k.toRsa env none d addr = .ok (.created c)) : Born k c

def lifetime (k : Crypto) : Machine DtpContext LifeEvent where
  init := Born k
  allowed c e := e.offered c
  apply c e := e.apply k c

/-! ## Teardown and persist timer -/

/-- The state with the flags of the teardown, and the persist timer. -/
structure ControlState where
  state : SockState
  closeCalled : Bool
  isFINSent : Bool
  isHerWindowZero : Bool
  persistIntvl : ℤ

/-- These fields of a context. -/
def DtpContext.control (c : DtpContext) : ControlState where
  state := c.state
  closeCalled := c.closeCalled
  isFINSent := c.isFINSent
  isHerWindowZero := c.isHerWindowZero
  persistIntvl := c.persistIntvl

/-- These fields after `DTPCreateContext`, but for the state. -/
def ControlState.fresh (s : SockState) : ControlState := ⟨s, false, false, false, 0⟩

theorem control_dtpHandleKey (rsa : Rsa) (c : DtpContext) (d : Datagram) (key : List UInt8) (pad : ℕ)
    (isResend : Bool) : (c.dtpHandleKey rsa d key pad isResend).control = c.control := by
  simp only [dtpHandleKey]
  cases rsa.encrypt (modulus d) (exponent d) key pad <;> cases isResend <;> rfl

theorem Born.control {k : Crypto} {c : DtpContext} (h : Born k c) :
    c.control = .fresh .closed ∨ c.control = .fresh .synRcvd := by
  cases h with
  | socket scale id port => exact Or.inl rfl
  | syn hfresh hsyn =>
    rcases handleSYNPacket_cases hsyn with ⟨c, hid, dl, hflow, -⟩ | ⟨-, hid, dl, scale, port, -, -, heq⟩ |
      ⟨-, heq⟩
    · cases hflow
    · right
      rw [SynOutcome.created.injEq] at heq
      rw [heq, control_dtpHandleKey, hfresh]
      rfl
    · cases heq

/-- One state of the teardown leads to the next. -/
def SockState.tearsDown : SockState → SockState → Bool
  | .established, .closeWait => true
  | .finWait1, .finWait2 => true
  | .finWait1, .timeWait => true
  | .finWait2, .timeWait => true
  | _, _ => false

/-- The changes that only some events make. -/
inductive Cause
  /-- `dtp_close` is called -/
  | close
  /-- an ACK announces a zero window -/
  | zeroACK
  /-- an ACK announces another -/
  | reopened
  /-- a data packet announces a zero window -/
  | zeroData
  /-- a persist probe is sent -/
  | probe

/-- A single change; `A` says which causes there are, and where. -/
inductive ControlStep (A : Cause → ControlState → Prop) : ControlState → ControlState → Prop
  /-- `DTPSendFINPacket`, at the end of `DTPWriteAvail` -/
  | fin {v : ControlState} (hc : v.closeCalled = true) :
      ControlStep A v { v with state := finState v.state, isFINSent := true }
  | established {v : ControlState} (hs : v.state = .synRcvd ∨ v.state = .synSent) :
      ControlStep A v { v with state := .established }
  | onward {v : ControlState} {s : SockState} (hs : v.state.tearsDown s = true) :
      ControlStep A v { v with state := s }
  | closed (v : ControlState) : ControlStep A v { v with state := .closed }
  /-- a timeout takes the FIN back -/
  | unsent (v : ControlState) : ControlStep A v { v with isFINSent := false }
  /-- `DTPCloseContext` -/
  | released (v : ControlState) : ControlStep A v { v with closeCalled := false }
  | called {v : ControlState} (ha : A .close v) : ControlStep A v { v with closeCalled := true }
  | zeroACK {v : ControlState} (ha : A .zeroACK v) :
      ControlStep A v { v with isHerWindowZero := true, persistIntvl := persistMin }
  | reopened {v : ControlState} (ha : A .reopened v) : ControlStep A v { v with isHerWindowZero := false }
  | zeroData {v : ControlState} (ha : A .zeroData v) : ControlStep A v { v with isHerWindowZero := true }
  | probe {v : ControlState} (ha : A .probe v) :
      ControlStep A v { v with persistIntvl := min (2 * v.persistIntvl) persistMax }

/-- A sequence of changes. -/
def ControlSteps (A : Cause → ControlState → Prop) (c c' : DtpContext) : Prop :=
  Relation.ReflTransGen (ControlStep A) c.control c'.control

namespace ControlSteps
variable {A : Cause → ControlState → Prop} {c c' c'' : DtpContext}

theorem of_same (h : c'.control = c.control) : ControlSteps A c c' := by
  rw [ControlSteps, h]

theorem refl (c : DtpContext) : ControlSteps A c c := of_same rfl

theorem trans (h : ControlSteps A c c') (h' : ControlSteps A c' c'') : ControlSteps A c c'' :=
  Relation.ReflTransGen.trans h h'

theorem single (h : ControlStep A c.control c'.control) : ControlSteps A c c' :=
  Relation.ReflTransGen.single h

/-- What every single change keeps. -/
theorem invariant {P : ControlState → Prop} (hP : ∀ v v', ControlStep A v v' → P v → P v')
    (h : ControlSteps A c c') (hc : P c.control) : P c'.control := by
  have hkeeps : ∀ v, Relation.ReflTransGen (ControlStep A) c.control v → P v := by
    intro v hv
    induction hv with
    | refl => exact hc
    | tail _ hstep ih => exact hP _ _ hstep ih
  exact hkeeps _ h

theorem of_quiet (h : ControlSteps (fun _ _ => False) c c') : ControlSteps A c c' := by
  refine Relation.ReflTransGen.mono ?_ _ _ h
  intro v v' hstep
  cases hstep with
  | fin hc => exact .fin hc
  | established hs => exact .established hs
  | onward hs => exact .onward hs
  | closed => exact .closed v
  | unsent => exact .unsent v
  | released => exact .released v
  | called ha => exact ha.elim
  | zeroACK ha => exact ha.elim
  | reopened ha => exact ha.elim
  | zeroData ha => exact ha.elim
  | probe ha => exact ha.elim

theorem persist (h : ControlSteps (fun _ _ => False) c c') :
    c'.isHerWindowZero = c.isHerWindowZero ∧ c'.persistIntvl = c.persistIntvl := by
  refine invariant (P := fun v => v.isHerWindowZero = c.isHerWindowZero ∧ v.persistIntvl = c.persistIntvl)
    ?_ h ⟨rfl, rfl⟩
  intro v v' hstep hv
  cases hstep with
  | zeroACK ha => exact ha.elim
  | reopened ha => exact ha.elim
  | zeroData ha => exact ha.elim
  | probe ha => exact ha.elim
  | _ => exact hv

theorem closed (h : c'.control = { c.control with state := .closed }) : ControlSteps A c c' := by
  refine single ?_
  rw [h]
  exact .closed _

/-! ### Acts -/

/-- The acts that have a cause. -/
def caused : List ActKind := [.ackWindow, .reopen, .segment, .backOff, .called]

theorem onward {s : SockState} (hs : c.state.tearsDown s = true)
    (h : c'.control = { c.control with state := s }) : ControlSteps A c c' := by
  refine single ?_
  rw [h]
  exact .onward hs

theorem of_act {k : ActKind} (h : Act k c c') (hk : k ∉ caused) : ControlSteps A c c' := by
  have hreconnect (c : DtpContext) : c.dtpReconnect.control = c.control := by
    simp only [DtpContext.dtpReconnect]
    cases c.packetQ <;> rfl
  cases h with
  | fin _ _ hwant =>
    simp only [wantsFIN, Bool.and_eq_true] at hwant
    exact single (.fin hwant.1.1)
  | establish hs => exact single (.established (Or.inl hs))
  | adopted hs => exact single (.established (Or.inr hs))
  | finAcked hs => exact onward (hs ▸ rfl) rfl
  | finHeard =>
    by_cases hs : c.state = .established
    · exact onward (s := .closeWait) (by rw [hs]; rfl) (by simp [noteFIN, DtpContext.control, hs])
    · exact of_same (by simp [noteFIN, DtpContext.control, hs])
  | dropFirst hs => exact onward (hs ▸ rfl) rfl
  | timeWait hs =>
    refine onward ?_ rfl
    simp only [inFinWait, Bool.or_eq_true, beq_iff_eq] at hs
    rcases hs with hs | hs <;> rw [hs] <;> rfl
  | dropLast | closes | reset | timedOut => exact closed rfl
  | fallBack =>
    rw [fallBack, unsendFIN]
    split_ifs
    · exact single (.unsent _)
    · exact of_same rfl
  | reconnect => exact of_same (hreconnect c)
  | switch => exact of_same (hreconnect _)
  | released =>
    simp only [dtpCloseContext]
    split_ifs
    · exact of_same rfl
    · exact refl c
    · exact refl c
    · exact single (.released _)
  | ackWindow | reopen | segment | backOff | called => exact absurd (by decide) hk
  | _ => exact of_same rfl

theorem of_acts {K : List ActKind} (h : Acts K c c') (hK : ∀ k ∈ K, k ∉ caused := by decide) :
    ControlSteps A c c' := by
  refine h.invariant (P := ControlSteps A c) ?_ (refl c)
  intro k hk x y ha hx
  exact hx.trans (of_act ha (hK k hk))

end ControlSteps

/-- `HandleACKPacket` does not return at once. -/
def DtpContext.heedsACK (c : DtpContext) (ack : UInt32) : Bool :=
  c.isNetConnected && !decide (ack < c.lastByteAcked ∧ ¬c.lastByteAcked + 1472 < c.lastByteAcked)

theorem DtpContext.heedsACK_iff {c : DtpContext} {ack : UInt32} : c.heedsACK ack = true ↔
    c.isNetConnected = true ∧ ¬(ack < c.lastByteAcked ∧ ¬c.lastByteAcked + 1472 < c.lastByteAcked) := by
  simp only [heedsACK, Bool.and_eq_true, Bool.not_eq_true', decide_eq_false_iff_not]

/-- The ACK of a batch starts the persist timer. -/
def DtpContext.startsPersist (c : DtpContext) (ack : Option (UInt32 × UInt16)) : Bool :=
  match ack with
  | some (ackNum, window) =>
    decide (c.state ≠ .timeWait) && c.heedsACK ackNum && scaledWindow window c.sendWindowScale == 0
  | none => false

namespace ControlSteps
variable {A : Cause → ControlState → Prop} {c' c'' : DtpContext} (c : DtpContext)

theorem control_noteAckWindow (ack : UInt32) (w : UInt16) :
    ((c.noteWrap ack).noteAckWindow w).control = { c.control with
          isHerWindowZero := c.isHerWindowZero || scaledWindow w c.sendWindowScale == 0
          persistIntvl := if scaledWindow w c.sendWindowScale = 0 then persistMin else c.persistIntvl } ∧
      ((c.noteWrap ack).noteAckWindow w).rcvWindow = scaledWindow w c.sendWindowScale := by
  rw [DtpContext.noteWrap]
  by_cases hwrap : ack < c.lastByteAcked
  · rw [if_pos hwrap]
    exact ⟨rfl, rfl⟩
  · rw [if_neg hwrap]
    exact ⟨rfl, rfl⟩

/-- The rest of `HandleACKPacket` has no cause but an ACK that reopens the window. -/
theorem handleACKPacket_cases (ack : UInt32) (w : UInt16) :
    (c.heedsACK ack = false ∧ c.handleACKPacket ack w = c) ∨
    (c.heedsACK ack = true ∧ ∃ y : DtpContext, ControlSteps (fun _ _ => False) y (c.handleACKPacket ack w) ∧
      ((scaledWindow w c.sendWindowScale = 0 ∧
        y.control = { c.control with isHerWindowZero := true, persistIntvl := persistMin }) ∨
      (scaledWindow w c.sendWindowScale ≠ 0 ∧ y.control = { c.control with isHerWindowZero := false }))) := by
  obtain ⟨hctl, hwin⟩ := control_noteAckWindow c ack w
  have hzero : ((c.noteWrap ack).noteAckWindow w).isHerWindowZero =
      (c.isHerWindowZero || scaledWindow w c.sendWindowScale == 0) :=
    congrArg ControlState.isHerWindowZero hctl
  simp only [DtpContext.handleACKPacket]
  by_cases hnet : c.isNetConnected = true
  · by_cases hold : ack < c.lastByteAcked ∧ ¬c.lastByteAcked + 1472 < c.lastByteAcked
    · left
      simp only [hnet, hold, heedsACK]
      simp
    · right
      have hheeds : c.heedsACK ack = true := heedsACK_iff.mpr ⟨hnet, hold⟩
      have hconn : ¬(!c.isNetConnected) = true := by simp [hnet]
      refine ⟨hheeds, ?_⟩
      rw [if_neg hconn, if_neg hold, hwin, hzero]
      generalize (c.noteWrap ack).noteAckWindow w = y at hctl
      by_cases hw : scaledWindow w c.sendWindowScale = 0
      · have hshut : ¬((c.isHerWindowZero || scaledWindow w c.sendWindowScale == 0) = true ∧
            0 < scaledWindow w c.sendWindowScale) := by
          rw [hw]
          exact fun h => absurd h.2 (by decide)
        rw [if_neg hshut]
        refine ⟨y, of_acts (.afterWindow y ack), Or.inl ⟨hw, ?_⟩⟩
        rw [hctl, hw]
        simp
      · have hpos : 0 < scaledWindow w c.sendWindowScale := UInt32.pos_iff_ne_zero.mpr hw
        cases hflag : c.isHerWindowZero with
        | true =>
          simp only [Bool.true_or, hpos, and_self, if_true]
          refine ⟨y.clearHerWindowZero, (of_acts (.dtpWriteAvail _)).trans (of_same rfl), Or.inr ⟨hw, ?_⟩⟩
          have hclear : y.clearHerWindowZero.control = { y.control with isHerWindowZero := false } := rfl
          rw [hclear, hctl]
          simp [hw, DtpContext.control]
        | false =>
          have hshut : ¬((false || scaledWindow w c.sendWindowScale == 0) = true ∧
              0 < scaledWindow w c.sendWindowScale) := by
            simp [hw]
          rw [if_neg hshut]
          refine ⟨y, of_acts (.afterWindow y ack), Or.inr ⟨hw, ?_⟩⟩
          rw [hctl]
          simp [hw, hflag, DtpContext.control]
  · left
    simp only [hnet, heedsACK]
    simp

section
variable (ack : Option (UInt32 × UInt16))

/-- What the ACK of a batch needs of its causes. -/
theorem processACK (hzero : c.startsPersist ack = true → A .zeroACK c.control) (hopen : ∀ v, A .reopened v) :
    ControlSteps A c (c.processACK ack) := by
  cases ack with
  | none => exact refl c
  | some a =>
    simp only [DtpContext.processACK]
    by_cases hs : c.state = .timeWait
    · rw [if_neg (not_not.mpr hs)]
      exact refl c
    · rw [if_pos hs]
      rcases handleACKPacket_cases c a.1 a.2 with ⟨-, heq⟩ | ⟨hheeds, y, hy, ⟨hw, hctl⟩ | ⟨hw, hctl⟩⟩
      · exact of_same (by rw [heq])
      · have hnoted : ControlSteps A c y := by
          refine single ?_
          rw [hctl]
          exact .zeroACK (hzero (by simp [startsPersist, hs, hheeds, hw]))
        exact hnoted.trans (of_quiet hy)
      · have hnoted : ControlSteps A c y := by
          refine single ?_
          rw [hctl]
          exact .reopened (hopen _)
        exact hnoted.trans (of_quiet hy)

theorem persistIntvl_processACK :
    (c.processACK ack).persistIntvl = if c.startsPersist ack then persistMin else c.persistIntvl := by
  cases ack with
  | none => simp [DtpContext.processACK, startsPersist]
  | some a =>
    simp only [DtpContext.processACK, startsPersist]
    by_cases hs : c.state = .timeWait
    · simp [hs]
    · rw [if_pos hs]
      rcases handleACKPacket_cases c a.1 a.2 with ⟨hheeds, heq⟩ | ⟨hheeds, y, hy, ⟨hw, hctl⟩ | ⟨hw, hctl⟩⟩
      · rw [heq]
        simp [hheeds]
      · have hintvl : y.persistIntvl = persistMin := congrArg ControlState.persistIntvl hctl
        rw [hy.persist.2, hintvl]
        simp [hs, hheeds, hw]
      · have hintvl : y.persistIntvl = c.persistIntvl := congrArg ControlState.persistIntvl hctl
        rw [hy.persist.2, hintvl]
        simp [hw]

theorem sendWindowScale_processACK :
    (c.processACK ack).sendWindowScale = c.sendWindowScale := by
  cases ack with
  | none => rfl
  | some a =>
    simp only [DtpContext.processACK]
    split_ifs
    · exact congrArg Settled.sendWindowScale (Onward.of_moves (.of_acts (.handleACKPacket c a.1 a.2))).settled
    · rfl

end

/-! ### Data packets -/

theorem control_dropInsertedACK : c.dropInsertedACK.control = c.control ∧
    c.dropInsertedACK.sendWindowScale = c.sendWindowScale := by
  rcases dropInsertedACK_cases c with heq | heq | ⟨p, q, -, heq⟩ <;> rw [heq] <;> exact ⟨rfl, rfl⟩

end ControlSteps

/-- A packet with data that announces a zero window. -/
def Datagram.shutsWindow (scale : UInt8) (d : Datagram) : Bool :=
  hasData d && scaledWindow d.hdr.windowSize scale == 0

namespace ControlSteps
variable {A : Cause → ControlState → Prop} {c c' c'' : DtpContext}

/-- A data packet leaves interval and scale, and at most notes that the window is zero. -/
theorem handleNormalPacket (c : DtpContext) (d : Datagram) (bodyLen : UInt32)
    (hzero : scaledWindow d.hdr.windowSize c.sendWindowScale = 0 → A .zeroData c.control) :
    ControlSteps A c (c.handleNormalPacket d bodyLen).1 ∧ (c.handleNormalPacket d bodyLen).1.persistIntvl =
    c.persistIntvl ∧ (c.handleNormalPacket d bodyLen).1.sendWindowScale = c.sendWindowScale := by
  obtain ⟨hctl, hscale⟩ := control_dropInsertedACK c
  have hsteps : ControlSteps A c (c.dropInsertedACK.noteSegment d.hdr) := by
    refine (of_same hctl).trans ?_
    by_cases hw : scaledWindow d.hdr.windowSize c.sendWindowScale = 0
    · have hnoted : (c.dropInsertedACK.noteSegment d.hdr).control =
          { c.dropInsertedACK.control with isHerWindowZero := true } := by
        simp [noteSegment, DtpContext.control, hscale, hw]
      refine single ?_
      rw [hnoted]
      exact .zeroData (hctl ▸ hzero hw)
    · refine of_same ?_
      simp [noteSegment, DtpContext.control, hscale, hw]
  have hintvl : (c.dropInsertedACK.noteSegment d.hdr).persistIntvl = c.persistIntvl :=
    congrArg ControlState.persistIntvl hctl
  simp only [DtpContext.handleNormalPacket]
  split_ifs
  · exact ⟨refl c, rfl, rfl⟩
  · exact ⟨hsteps.trans (of_same rfl), hintvl, hscale⟩
  · exact ⟨hsteps.trans (of_same rfl), hintvl, hscale⟩

theorem foldl (ds : List Datagram) (c : DtpContext)
    (hzero : ∀ v : ControlState, v.persistIntvl = c.persistIntvl →
      (∃ d ∈ ds, d.shutsWindow c.sendWindowScale = true) → A .zeroData v) :
    ControlSteps A c (ds.foldl DtpContext.processPacket c) := by
  induction ds generalizing c with
  | nil => exact refl c
  | cons d ds ih =>
    have hone : ControlSteps A c (c.processPacket d) ∧ (c.processPacket d).persistIntvl = c.persistIntvl ∧
        (c.processPacket d).sendWindowScale = c.sendWindowScale := by
      simp only [processPacket]
      split_ifs with hdata hprobe
      · refine handleNormalPacket c d _ fun hw => hzero _ rfl ⟨d, List.mem_cons_self, ?_⟩
        simp [Datagram.shutsWindow, hasData, hdata, hw]
      · exact ⟨of_same rfl, rfl, rfl⟩
      · exact ⟨refl c, rfl, rfl⟩
    refine hone.1.trans (ih _ ?_)
    rw [hone.2.1, hone.2.2]
    rintro v hv ⟨d', hd', hshut⟩
    exact hzero v hv ⟨d', List.mem_cons_of_mem _ hd', hshut⟩

theorem processData (c : DtpContext) (pkts : List Datagram)
    (hzero : ∀ v : ControlState, v.persistIntvl = c.persistIntvl →
      (∃ d ∈ pkts, d.shutsWindow c.sendWindowScale = true) → A .zeroData v) :
    ControlSteps A c (c.processData pkts) := by
  have hack (c : DtpContext) : ControlSteps A c c.ackBatch.noteReadable := of_acts (.answerBatch c)
  have hclear : ∀ c : DtpContext, ControlSteps A c c.clearProbes := fun c => of_same rfl
  have hsome : ControlSteps A c ((pkts.takeWhile fun d => !hasData d).foldl processPacket c) := by
    refine foldl _ c fun v hv h => hzero v hv ?_
    obtain ⟨d, hd, hshut⟩ := h
    exact ⟨d, (List.takeWhile_sublist _).subset hd, hshut⟩
  simp only [DtpContext.processData]
  split_ifs
  · exact ((foldl pkts c hzero).trans (hclear _)).trans (hack _)
  · exact (foldl pkts c hzero).trans (hclear _)
  · exact hsome
  · exact hsome.trans (hclear _)

/-! ### Timeouts -/

/-- The pass up to the persist timer. -/
theorem beforePersist (c : DtpContext) (env : TimerEnv) :
    ((if c.keepAliveDue env then c.dtpSendProbePacket.countProbe else c).switchInterface env).control = c.control := by
  have hprobe : (if c.keepAliveDue env then c.dtpSendProbePacket.countProbe else c).control = c.control := by
    split_ifs <;> rfl
  generalize (if c.keepAliveDue env then c.dtpSendProbePacket.countProbe else c) = y at hprobe
  rw [← hprobe]
  refine (Acts.switchInterface y env).invariant (P := fun x => x.control = y.control) ?_ rfl
  intro k hk x x' ha hx
  cases ha with
  | switch =>
    rw [← hx]
    simp only [dtpReconnect]
    split <;> rfl
  | _ => exact absurd hk (by decide)

end ControlSteps

/-- The pass reaches the persist timer of the context and finds it expired. -/
def DtpContext.probesWindow (c : DtpContext) (env : TimerEnv) : Bool :=
  decide (c.state ≠ .timeWait) && !(c.keepAliveDue env && !decide (c.sentProbes < c.keepAliveProbes)) &&
    c.isHerWindowZero && env.persistExpired

namespace ControlSteps
variable {A : Cause → ControlState → Prop} {c c' c'' : DtpContext}

/-- A pass is changes without a cause, and perhaps a persist probe before them. -/
theorem handleTimeout_cases (c : DtpContext) (env : TimerEnv) :
    ∃ y : DtpContext, ControlSteps (fun _ _ => False) y (c.handleTimeout env) ∧ y.control = if c.probesWindow env then
        { c.control with persistIntvl := min (2 * c.persistIntvl) persistMax } else c.control := by
  rw [DtpContext.handleTimeout]
  by_cases hs : c.state = .timeWait
  · refine ⟨c, ?_, by simp [probesWindow, hs]⟩
    rw [if_pos hs]
    split_ifs
    · exact of_acts (.expire c)
    · exact refl c
  · rw [if_neg hs]
    by_cases hk : c.keepAliveDue env ∧ ¬c.sentProbes < c.keepAliveProbes
    · refine ⟨c, ?_, by simp [probesWindow, hk]⟩
      rw [if_pos hk]
      exact closed rfl
    · rw [if_neg hk]
      have hctl := beforePersist c env
      refine ⟨_, of_acts (.timeoutQueue _ env), ?_⟩
      generalize (if c.keepAliveDue env then c.dtpSendProbePacket.countProbe else c).switchInterface env = y
        at hctl
      have hflag : y.isHerWindowZero = c.isHerWindowZero := congrArg ControlState.isHerWindowZero hctl
      have hprobes : c.probesWindow env = (y.isHerWindowZero && env.persistExpired) := by
        simp only [not_and_or, not_not, Bool.not_eq_true] at hk
        rw [hflag]
        rcases hk with hk | hk <;> simp [probesWindow, hs, hk]
      rw [hprobes, persistProbe]
      by_cases hp : (y.isHerWindowZero && env.persistExpired) = true
      · rw [if_pos hp, if_pos hp]
        have hback : y.dtpSendProbePacket.backOffPersist.control =
            { y.control with persistIntvl := min (2 * y.control.persistIntvl) persistMax } := rfl
        rw [hback, hctl]
        rfl
      · rw [if_neg hp, if_neg hp]
        exact hctl

theorem handleTimeout (c : DtpContext) (env : TimerEnv)
    (hprobe : c.probesWindow env = true → A .probe c.control) : ControlSteps A c (c.handleTimeout env) := by
  obtain ⟨y, hy, hctl⟩ := handleTimeout_cases c env
  refine trans ?_ (of_quiet hy)
  split_ifs at hctl with hp
  · refine single ?_
    rw [hctl]
    exact .probe (hprobe hp)
  · exact of_same hctl

/-- The interval doubles with each probe, up to `DTP_PERSIST_MAX`. -/
theorem persistIntvl_handleTimeout (c : DtpContext) (env : TimerEnv) :
    (c.handleTimeout env).persistIntvl =
      if c.probesWindow env then min (2 * c.persistIntvl) persistMax else c.persistIntvl := by
  obtain ⟨y, hy, hctl⟩ := handleTimeout_cases c env
  rw [hy.persist.2]
  have hintvl := congrArg ControlState.persistIntvl hctl
  split_ifs at hintvl ⊢ with hp
  · exact hintvl
  · exact hintvl

theorem dtpClose (c : DtpContext) (hclose : A .close c.control) : ControlSteps A c c.dtpClose.1 := by
  have hcalled : ControlSteps A c { c with closeCalled := true } := single (.called hclose)
  have hwritten : ControlSteps A c ({ c with closeCalled := true } : DtpContext).dtpWriteAvail :=
    hcalled.trans (of_acts (.dtpWriteAvail _))
  simp only [DtpContext.dtpClose]
  split_ifs
  · exact refl c
  · exact hwritten.trans (of_same rfl)
  · exact hwritten
  · exact hcalled.trans (of_act (.released _) (by decide))
  · exact hcalled

end ControlSteps

/-! ### Events -/

def LifeEvent.causes (c : DtpContext) (e : LifeEvent) : Cause → ControlState → Prop
  | .close, v => e = .conn (.own .close) ∧ v = c.control
  | .zeroACK, v => ∃ p, e = .conn (.own (.batch p)) ∧ c.startsPersist p.ack = true ∧ v = c.control
  | .reopened, _ => ∃ p, e = .conn (.own (.batch p))
  | .zeroData, v => ∃ p, e = .conn (.own (.batch p)) ∧ (∃ d ∈ p.pkts, d.shutsWindow c.sendWindowScale = true) ∧
      v.persistIntvl = if c.startsPersist p.ack then persistMin else c.persistIntvl
  | .probe, v => ∃ env, e = .conn (.own (.timeout env)) ∧ c.probesWindow env = true ∧ v = c.control

def LifeEvent.opens : LifeEvent → Bool
  | .connect _ _ _ _ | .listen _ _ _ => true
  | _ => false

namespace ControlSteps
variable {c : DtpContext}

theorem own (k : Crypto) (e : Event) : ControlSteps (LifeEvent.causes c (.conn (.own e))) c (e.apply k c) := by
  cases e with
  | close => exact dtpClose c ⟨rfl, rfl⟩
  | batch p =>
    have hack : ControlSteps (LifeEvent.causes c (.conn (.own (.batch p)))) c (c.processACK p.ack) :=
      processACK c p.ack (fun h => ⟨p, rfl, h, rfl⟩) fun _ => ⟨p, rfl⟩
    refine hack.trans (processData _ p.pkts ?_)
    intro v hv hd
    rw [sendWindowScale_processACK] at hd
    rw [persistIntvl_processACK] at hv
    exact ⟨p, rfl, hd, hv⟩
  | timeout env => exact handleTimeout c env fun h => ⟨env, rfl, h, rfl⟩
  | _ => exact of_acts (.apply k c _) (by simp only [Event.kinds]; decide)

/-- Every event but the opening by the application. -/
theorem apply (k : Crypto) {e : LifeEvent} (he : e.opens = false) : ControlSteps (e.causes c) c (e.apply k c) := by
  cases e with
  | conn e =>
    cases e with
    | own e => exact own k e
    | syn d addr hid key pad => exact of_acts (.repeatSYN c k.toRsa d addr hid key pad)
    | option o env => exact of_acts (.dtpSetsockopt c o env)
  | connect => cases he
  | listen => cases he
  | fcntl nonblock => exact of_same rfl
  | enqueue s => exact of_same rfl
  | accept a =>
    refine of_same ?_
    simp only [LifeEvent.apply, acceptBody]
    split
    · split_ifs <;> rfl
    · rfl
  | refuse fid addr => exact of_same rfl

end ControlSteps
/-! ## A server's context -/

/-- The context a server has set up for a SYN. -/
def sampleAccepted : DtpContext :=
  match handleSYNPacket toyCrypto.toRsa (sampleSynEnv 1) none sampleCaller.syn ⟨2, 5000⟩ with
  | .ok (.created c) => c
  | _ => dtpCreateContext

theorem sampleAccepted_created :
    handleSYNPacket toyCrypto.toRsa (sampleSynEnv 1) none sampleCaller.syn ⟨2, 5000⟩ = .ok (.created sampleAccepted) := by
  have hstate : sampleAccepted.state = .synRcvd := by decide +kernel
  rw [sampleAccepted] at hstate ⊢
  split at hstate
  · rename_i c hsyn
    rw [hsyn]
  · cases hstate

theorem sampleAccepted_born : Born toyCrypto sampleAccepted := .syn rfl sampleAccepted_created

/-- The client has the key. -/
def sampleKeyACK : LifeEvent := .conn (.own (.batch ⟨some (256, 100), []⟩))

end Cedos.Dtp
