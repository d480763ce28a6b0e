import Cedos.Dtp.CloseComplete
import Cedos.Dtp.Lifetime
import Cedos.Dtp.PacketOps

/-!
# Packets of a released context

`DTPCloseContext` frees the read buffer of the context it releases, but it does not look at the packet queue. Here
the events that release a context are gone through, and for each of them it is said when the queue is empty by then.

An ACK releases a context in two ways. In `LAST_ACK` it is the ACK of the FIN, which has to acknowledge everything
before the FIN as well. In `CLOSE_WAIT` the call that handles the ACK can send the FIN that was held back and then
find itself in `LAST_ACK`; the FIN is in the queue then.
-/

namespace Cedos.Dtp

open DtpContext

/-! ## When a context is released -/

section Release
variable {c c' : DtpContext}

/-- Only `DTPCloseContext` releases a context, and only `dtp_close` waits. -/
theorem standing_of_act {k : ActKind} (ha : Act k c c') (hk : k ∉ [.waits, .woken, .released]) :
    c'.isActive = c.isActive ∧ c'.waitACK = c.waitACK := by
  cases ha with
  | fallBack _ _ =>
    rw [fallBack, unsendFIN]
    split_ifs <;> exact ⟨rfl, rfl⟩
  | reconnect _ | switch _ _ _ =>
    simp only [dtpReconnect]
    split <;> exact ⟨rfl, rfl⟩
  | waits _ | woken _ | released _ => exact absurd hk (by decide)
  | _ => exact ⟨rfl, rfl⟩

theorem standing_of_acts {K : List ActKind} (h : Acts K c c')
    (hK : ∀ k ∈ K, k ∉ [.waits, .woken, .released] := by decide) :
    c'.isActive = c.isActive ∧ c'.waitACK = c.waitACK :=
  h.invariant (P := fun x => x.isActive = c.isActive ∧ x.waitACK = c.waitACK)
    (fun k hk _ _ ha ih =>
      have hsame := standing_of_act ha (hK k hk)
      ⟨hsame.1.trans ih.1, hsame.2.trans ih.2⟩)
    ⟨rfl, rfl⟩

/-- `DTPCloseContext` releases a context only if nobody waits for that and `TIME_WAIT` is over. -/
theorem released_dtpCloseContext (hact : c.isActive = true) (h : c.dtpCloseContext.isActive = false) :
    c.waitACK = false ∧ c.state ≠ .timeWait := by
  simp only [dtpCloseContext, hact, Bool.not_true, Bool.false_eq_true, if_false] at h
  split_ifs at h with hwait hstate
  · exact absurd (hact.symm.trans h) (by decide)
  · exact absurd (hact.symm.trans h) (by decide)
  · exact ⟨by simpa using hwait, hstate⟩

/-- If the event releases the context, then with nothing in its queue. -/
def Event.ReleasesEmpty (c : DtpContext) : Event → Prop
  | .close => c.useLinger = true → (c.state = .closed ∨ c.connReset = true) → c.waitACK = false →
      c.state ≠ .timeWait → c.packetQ = []
  | .closeWake => c.state ≠ .timeWait → c.packetQ = []
  | .batch p => c.waitACK = false → ∀ a w, p.ack = some (a, w) →
      -- no FIN is sent by the call that handles the ACK
      (c.state = .closeWait → c.closeCalled = true → c.isFINSent = true) ∧
      -- it is the ACK of the FIN, and of all that has been sent before
      (c.state = .lastAck → c.isFINSent = true ∧ c.lastByteSent = c.lastByteWritten ∧ a = c.lastByteWritten ∧
        ∀ q ∈ c.packetQ, q.stop < a)
  | .timeout env => c.waitACK = false → (c.state = .timeWait → env.waitExpired = true → c.packetQ = []) ∧
      (c.state = .lastAck → (∃ i, env.lastExpired i = true) → c.packetQ.length ≤ 1)
  | _ => True

/-- An event that does not release the context at all. -/
theorem releases_of_standing (hact : c.isActive = true) (h : c'.isActive = c.isActive ∧ c'.waitACK = c.waitACK) :
    c'.isActive = false → c'.packetQ = [] := by
  intro hoff
  rw [h.1, hact] at hoff
  exact absurd hoff (by decide)

/-! ### An ACK -/

theorem packetQ_dtpWriteAvail_idle (hsent : c.lastByteSent = c.lastByteWritten) (hfin : c.isFINSent = true) :
    c.dtpWriteAvail.packetQ = c.packetQ := by
  have hlen : c.sendLen.toNat = 0 := by
    have hle : c.sendLen ≤ 0 := by
      have hzero : i32 (min (u32 (i32 (c.lastByteWritten - c.lastByteSent)))
          (c.rcvWindow - (c.lastByteSent - c.lastByteAcked))) = 0 := by
        rw [hsent, UInt32.sub_self]
        rfl
      simp only [sendLen, hzero]
      exact min_le_left _ _
    omega
  obtain heq | ⟨-, hwants, -⟩ := dtpWriteAvail_cases c
  · rw [heq]
    simp only [writeFlush, hlen, writeLoop]
    split_ifs <;> rfl
  · have hframe := FlushFrame.writeFlush (fun _ => true) c
    have hstill : (c.writeFlush fun _ => true).1.isFINSent = true :=
      (congrArg Lifecycle.isFINSent hframe.lifecycle).trans hfin
    simp [wantsFIN, hstill] at hwants

/-- The call is in `LAST_ACK` after `DTPWriteAvail` if it was before, or if the FIN has just been sent. -/
theorem lastAck_of_dtpWriteAvail (h : c.dtpWriteAvail.state = .lastAck) :
    c.state = .lastAck ∨ (c.state = .closeWait ∧ c.closeCalled = true ∧ c.isFINSent = false) := by
  rw [state_dtpWriteAvail] at h
  split_ifs at h with hfin
  · obtain ⟨-, hclose, hsent, -⟩ := sendsFIN_cases hfin
    cases hs : c.state with
    | lastAck => exact .inl rfl
    | closeWait => exact .inr ⟨rfl, hclose, hsent⟩
    | _ => simp [hs, finState] at h
  · exact .inl h

section Ack
variable (hact : c.isActive = true) (a : UInt32) (w : UInt16)
  (h : c.waitACK = false → (c.state = .closeWait → c.closeCalled = true → c.isFINSent = true) ∧
    (c.state = .lastAck → c.isFINSent = true ∧ c.lastByteSent = c.lastByteWritten ∧ a = c.lastByteWritten ∧
      ∀ q ∈ c.packetQ, q.stop < a))
include hact h

theorem releases_recorded
    (hoff : ((c.recorded a w).dtpWriteAvail.dtpWriteBufWakeup.finishACK a).isActive = false) :
    ((c.recorded a w).dtpWriteAvail.dtpWriteBufWakeup.finishACK a).packetQ = [] := by
  have hcount : Acts [.ackWindow, .congest] c ((c.noteAckWindow w).countDuplicate a) :=
    ((Acts.refl c).act (.ackWindow c w)).followed (.countDuplicate _ a)
  have hstand := standing_of_acts
    (K := [.ackWindow, .congest, .acked, .establish, .note, .begins, .data, .fin])
    ((hcount.mono.followed (.recordACK _ a)).followed (.dtpWriteAvail _))
  have hframe := recordedFrame c a w
  have hactive : (c.recorded a w).dtpWriteAvail.isActive = true := hstand.1.trans hact
  rw [QueueSpan.packetQ_finishACK]
  change (c.recorded a w).dtpWriteAvail.packetQ = []
  simp only [finishACK] at hoff
  split_ifs at hoff with hfw hla
  · exact absurd (hactive.symm.trans hoff) (by decide)
  · -- the context leaves `LAST_ACK`
    have hwait := (released_dtpCloseContext (c := ({ (c.recorded a w).dtpWriteAvail.dtpWriteBufWakeup with
      state := .closed } : DtpContext).dtpReadBufWakeup) hactive hoff).1
    obtain ⟨hcw, hlast⟩ := h (hstand.2.symm.trans hwait)
    have hsame : (c.recorded a w).state = .lastAck ∨ (c.recorded a w).state = .closeWait →
        (c.recorded a w).state = c.state := by
      intro hs
      rcases hframe.state with heq | ⟨-, hest⟩
      · exact heq
      · rw [hest] at hs
        simp at hs
    rcases lastAck_of_dtpWriteAvail hla with hs | ⟨hs, hclose, hfin⟩
    · obtain ⟨hfin, hsent, ha, hstop⟩ := hlast ((hsame (.inl hs)).symm.trans hs)
      have hsent' : (c.recorded a w).lastByteSent = (c.recorded a w).lastByteWritten := by
        rw [sent_recorded, hframe.written, hsent, ha, ite_self]
      rw [packetQ_dtpWriteAvail_idle hsent' (hframe.finSent.trans hfin)]
      have hcut : (c.recorded a w).packetQ = (cutQueue a c.packetQ).rest := by
        rw [recorded, recordACK, QueueSpan.packetQ_creditACK, packetQ_removePacket]
        change (cutQueue a ((c.noteAckWindow w).countDuplicate a).packetQ).rest = _
        rw [QueueSpan.packetQ_countDuplicate]
        rfl
      rw [hcut, cutQueue_nil hstop]
    · have hnot := hcw ((hsame (.inr hs)).symm.trans hs) (hframe.closeCalled.symm.trans hclose)
      rw [hframe.finSent, hnot] at hfin
      exact absurd hfin (by decide)
  · exact absurd (hactive.symm.trans hoff) (by decide)

theorem releases_handleACKPacket :
    (c.handleACKPacket a w).isActive = false → (c.handleACKPacket a w).packetQ = [] := by
  have hwrap : c.noteWrap a = c ∨ c.noteWrap a = { c with nextByteExpected := c.nextByteExpected + 1 } := by
    rw [noteWrap]
    split_ifs
    · exact .inr rfl
    · exact .inl rfl
  have hnoted : (((c.noteWrap a).noteAckWindow w).isActive = true) := by
    rcases hwrap with heq | heq <;> rw [heq] <;> exact hact
  intro hoff
  simp only [handleACKPacket] at hoff ⊢
  split_ifs at hoff ⊢ with hnet hold hopen hdup
  · exact releases_of_standing hact ⟨rfl, rfl⟩ hoff
  · exact releases_of_standing hact ⟨rfl, rfl⟩ hoff
  · exact releases_of_standing (c := ((c.noteWrap a).noteAckWindow w).clearHerWindowZero) hnoted
      (standing_of_acts (K := .note :: Acts.flush) ((Acts.dtpWriteAvail _).mono.act (.note ..))) hoff
  · exact releases_of_standing (c := ((c.noteWrap a).noteAckWindow w)) hnoted
      (standing_of_acts (K := .congest :: Acts.resend)
        ((Acts.countDuplicate _ a).mono.followed (.handleDuplicateACK _ a))) hoff
  · rcases hwrap with heq | heq <;> rw [heq] at hoff ⊢
    · exact releases_recorded hact a w h hoff
    · exact releases_recorded (c := { c with nextByteExpected := c.nextByteExpected + 1 }) hact a w h hoff

end Ack

theorem packetQ_processPacket (h : c.packetQ = []) (d : Datagram) : (c.processPacket d).packetQ = [] := by
  have hdrop : c.dropInsertedACK.packetQ = [] := by
    obtain heq | heq | ⟨p, q, hq, -⟩ := dropInsertedACK_cases c
    · rw [heq, h]
    · rw [heq]
      exact h
    · simp [h] at hq
  simp only [processPacket, handleNormalPacket]
  split_ifs
  · exact h
  · exact hdrop
  · exact hdrop
  · exact h
  · exact h

theorem packetQ_processData (h : c.packetQ = []) (ds : List Datagram) : (c.processData ds).packetQ = [] := by
  have hloop (ds : List Datagram) : (ds.foldl processPacket c).packetQ = [] := by
    induction ds generalizing c with
    | nil => exact h
    | cons d ds ih => exact ih (packetQ_processPacket h d)
  have hack (c : DtpContext) : c.ackBatch.noteReadable.packetQ = c.packetQ := by
    simp only [noteReadable, ackBatch]
    split_ifs <;> rfl
  simp only [processData]
  split_ifs
  · rw [hack]
    exact hloop ds
  · exact hloop ds
  · exact hloop _
  · exact hloop _

theorem releases_batch (hact : c.isActive = true) (p : AdjPktInfo) (h : (Event.batch p).ReleasesEmpty c) :
    (c.processAggregatePackets p).isActive = false → (c.processAggregatePackets p).packetQ = [] := by
  have hack : (c.processACK p.ack).isActive = false → (c.processACK p.ack).packetQ = [] := by
    cases hp : p.ack with
    | none => exact releases_of_standing hact ⟨rfl, rfl⟩
    | some aw =>
      simp only [processACK]
      split_ifs
      · exact releases_handleACKPacket hact aw.1 aw.2 fun hwait => h hwait aw.1 aw.2 hp
      · exact releases_of_standing hact ⟨rfl, rfl⟩
  intro hoff
  have hdata : Acts (.opened :: Acts.receiving) (c.processACK p.ack) (c.processAggregatePackets p) :=
    .processData _ p.pkts
  exact packetQ_processData (hack ((standing_of_acts hdata).1.symm.trans hoff)) p.pkts

/-! ### The timer -/

theorem state_timeoutPacket (c : DtpContext) (p : DtpPkt) : (c.timeoutPacket p).1.state = c.state := by
  have hback : (if c.isNetConnected then c.fallBack p else c).state = c.state := by
    rw [fallBack, unsendFIN]
    split_ifs <;> rfl
  simp only [timeoutPacket]
  split_ifs at hback ⊢ <;> simp only [state_dtpRetransmit] <;> exact hback

/-- The 30 seconds of `LAST_ACK` are over: the packet that shows it is freed, and those freed before it. -/
theorem timeoutLoop_over {env : TimerEnv} {i : ℕ} {kept rest : List DtpPkt}
    (h : (timeoutLoop env i kept rest c).2 = true) :
    c.state = .lastAck ∧ (∃ j, env.lastExpired j = true) ∧
      (timeoutLoop env i kept rest c).1.packetQ.length + 1 ≤ kept.length + rest.length := by
  induction rest generalizing i kept c with
  | nil => simp [timeoutLoop] at h
  | cons p q ih =>
    simp only [timeoutLoop] at h ⊢
    split_ifs at h ⊢ with hcong hlast hexp
    · obtain ⟨hs, hj, hle⟩ := ih h
      refine ⟨hs, hj, hle.trans ?_⟩
      simp
    · refine ⟨hlast.1, ⟨i, hlast.2⟩, ?_⟩
      change (kept ++ q).length + 1 ≤ _
      simp only [List.length_append, List.length_cons]
      omega
    · obtain ⟨hs, hj, hle⟩ := ih h
      refine ⟨(state_timeoutPacket c p).symm.trans hs, hj, hle.trans ?_⟩
      simp only [List.length_append, List.length_cons, List.length_nil]
      omega

theorem state_dtpReconnect (c : DtpContext) : c.dtpReconnect.state = c.state := by
  simp only [dtpReconnect]
  split <;> rfl

theorem state_switchInterface (c : DtpContext) (env : TimerEnv) : (c.switchInterface env).state = c.state := by
  simp only [switchInterface]
  split_ifs
  · exact state_dtpReconnect _
  · rfl
  · exact state_dtpReconnect _
  · rfl
  · rfl

theorem state_persistProbe (c : DtpContext) (env : TimerEnv) : (c.persistProbe env).state = c.state := by
  simp only [persistProbe]
  split_ifs <;> rfl

theorem releases_timeoutQueue {x : DtpContext} (hx : x.isActive = c.isActive ∧ x.waitACK = c.waitACK) (hact : c.isActive = true)
    (hs : x.state = c.state) (hq : x.packetQ = c.packetQ) {env : TimerEnv} (h : (Event.timeout env).ReleasesEmpty c) :
    (x.timeoutQueue env).isActive = false → (x.timeoutQueue env).packetQ = [] := by
  have hloop := standing_of_acts (Acts.timeoutLoop env 0 (show x.packetQ = [] ++ x.packetQ from rfl))
  intro hoff
  rw [timeoutQueue] at hoff ⊢
  split_ifs at hoff ⊢ with hover
  · obtain ⟨hlast, hj, hle⟩ := timeoutLoop_over hover
    have hactive := (hloop.1.trans hx.1).trans hact
    have hwait := (released_dtpCloseContext (c := { (timeoutLoop env 0 [] x.packetQ x).1 with state := .closed })
      hactive hoff).1
    have hone := (h ((hloop.2.trans hx.2).symm.trans hwait)).2 (hs.symm.trans hlast) hj
    rw [expire, QueueSpan.packetQ_dtpCloseContext]
    rw [List.length_nil, hq] at hle
    have hempty : (timeoutLoop env 0 [] c.packetQ x).1.packetQ.length = 0 := by omega
    rw [hq]
    exact List.length_eq_zero_iff.mp hempty
  · exact releases_of_standing hact ⟨hloop.1.trans hx.1, hloop.2.trans hx.2⟩ hoff

theorem releases_handleTimeout (hact : c.isActive = true) {env : TimerEnv} (h : (Event.timeout env).ReleasesEmpty c) :
    (c.handleTimeout env).isActive = false → (c.handleTimeout env).packetQ = [] := by
  intro hoff
  simp only [handleTimeout] at hoff ⊢
  by_cases hwait : c.state = .timeWait
  · rw [if_pos hwait] at hoff ⊢
    split_ifs at hoff ⊢ with hexp
    · have hw := (released_dtpCloseContext (c := { c with state := .closed }) hact hoff).1
      rw [expire, QueueSpan.packetQ_dtpCloseContext]
      exact (h hw).1 hwait hexp
    · exact releases_of_standing hact ⟨rfl, rfl⟩ hoff
  rw [if_neg hwait] at hoff ⊢
  by_cases hover : c.keepAliveDue env = true ∧ ¬c.sentProbes < c.keepAliveProbes
  · rw [if_pos hover] at hoff
    exact absurd (hact.symm.trans hoff) (by decide)
  rw [if_neg hover] at hoff ⊢
  have hbefore : Acts [.probe, .note, .switch, .backOff] c ((((if c.keepAliveDue env then
      c.dtpSendProbePacket.countProbe else c).switchInterface env).persistProbe env)) :=
    ((Acts.keepAlive c env).mono.followed (.switchInterface _ env)).followed (.persistProbe _ env)
  refine releases_timeoutQueue (standing_of_acts hbefore) hact ?_ ?_ h hoff
  · rw [state_persistProbe, state_switchInterface]
    split_ifs <;> rfl
  · rw [QueueSpan.packetQ_persistProbe, QueueSpan.packetQ_switchInterface]
    split_ifs <;> rfl

/-! ### `dtp_close` -/

theorem releases_dtpClose (hact : c.isActive = true) (h : Event.close.ReleasesEmpty c) :
    c.dtpClose.1.isActive = false → c.dtpClose.1.packetQ = [] := by
  intro hoff
  have hflush : ({ c with closeCalled := true } : DtpContext).dtpWriteAvail.isActive = true :=
    (standing_of_acts (.dtpWriteAvail { c with closeCalled := true })).1.trans hact
  have hnot : ¬(!c.isActive) = true := by simp [hact]
  simp only [dtpClose] at hoff ⊢
  rw [if_neg hnot] at hoff ⊢
  split_ifs at hoff ⊢ with hopen hlinger hlinger
  · exact absurd (hflush.symm.trans hoff) (by decide)
  · exact absurd (hflush.symm.trans hoff) (by decide)
  · have hgone : c.state = .closed ∨ c.connReset = true := by
      rw [not_and_or, not_not] at hopen
      exact hopen.imp_right Bool.eq_true_of_not_eq_false
    have hw := released_dtpCloseContext (c := { c with closeCalled := true }) hact hoff
    rw [QueueSpan.packetQ_dtpCloseContext]
    exact h hlinger hgone hw.1 hw.2
  · exact absurd (hact.symm.trans hoff) (by decide)

theorem releases_dtpCloseWake (hact : c.isActive = true) (h : Event.closeWake.ReleasesEmpty c) :
    c.dtpCloseWake.1.isActive = false → c.dtpCloseWake.1.packetQ = [] := by
  intro hoff
  simp only [dtpCloseWake] at hoff ⊢
  split_ifs at hoff ⊢
  · have hstate := (released_dtpCloseContext (c := { c with waitACK := false }) hact hoff).2
    rw [QueueSpan.packetQ_dtpCloseContext]
    exact h hstate
  · exact absurd (hact.symm.trans hoff) (by decide)

/-! ### Any event -/

/-- An event that meets the condition does not release a context that has packets. -/
theorem releases_apply {k : Crypto} {e : Event} (hact : c.isActive = true) (h : e.ReleasesEmpty c) :
    (e.apply k c).isActive = false → (e.apply k c).packetQ = [] := by
  cases e with
  | close => exact releases_dtpClose hact h
  | closeWake => exact releases_dtpCloseWake hact h
  | batch p => exact releases_batch hact p h
  | timeout env => exact releases_handleTimeout hact h
  | _ => exact releases_of_standing hact (standing_of_acts (.apply k c _) (by simp only [Event.kinds]; decide))

end Release

/-! ## A context from its creation on -/

def LifeEvent.packetOps (k : Crypto) (c : DtpContext) : LifeEvent → List PacketOp
  | .conn (.own e) => e.packetOps k c
  | .conn (.syn d _ hid key pad) => if c.hostID = hid then handleKeyOps k.toRsa d key pad else []
  | .conn (.option _ _) => []
  | .connect addr fid n e => (c.startConnect addr fid n e).writeAvailOps
  | .listen _ _ _ => []
  | .fcntl _ => []
  | .enqueue _ => []
  | .accept _ => []
  | .refuse _ _ => []

/-- The context may have been released: a call then ends with `EBADF`, and a call that has waited goes on. -/
def LifeEvent.onReleased : LifeEvent → Bool
  | .conn (.own (.send _)) => true
  | .conn (.own (.sendWake _)) => true
  | .conn (.own (.recv _ _)) => true
  | .conn (.own (.recvWake _ _)) => true
  | .conn (.own .close) => true
  | .conn (.own .closeWake) => true
  | .conn (.option _ _) => true
  | _ => false

/-- The packets of the context `c` are still in a queue or free afterwards. -/
def LifeEvent.SparesPackets (k : Crypto) (c : DtpContext) : LifeEvent → Prop
  | .conn (.own (.sendWake _)) => c.isActive = true
  | .conn (.own e) => c.isActive = true → e.ReleasesEmpty c
  -- no SYN+ACK is sent
  | .conn (.syn d _ hid key pad) => c.hostID = hid → k.encrypt (modulus d) (exponent d) key pad = none
  | _ => True

section Life
variable {k : Crypto} {c : DtpContext} {e : LifeEvent}

theorem QueueSpan.handleKey (rsa : Rsa) {c c' : DtpContext} (h : c'.packetQ = c.packetQ) (d : Datagram) (key : List UInt8) (pad : ℕ) :
    QueueSpan (handleKeyOps rsa d key pad) c c' := by
  simp only [handleKeyOps]
  split
  · exact .same (congrArg List.length h)
  · exact (congrArg List.length h).symm

/-- The socket options and a repeated SYN leave the queue alone. -/
theorem packetQ_of_acts {K : List ActKind} {c' : DtpContext} (h : Acts K c c')
    (hK : ∀ k ∈ K, k ∈ [.address, .note, .key, .rst, .resize, .tune, .marks] := by decide) :
    c'.packetQ = c.packetQ :=
  h.invariant (P := fun x => x.packetQ = c.packetQ)
    (fun k hk _ _ ha ih => by
      refine Eq.trans ?_ ih
      have hkind := hK k hk
      cases ha with
      | adopt _ _ | rebind _ _ | note | setKey _ _ | sendKey _ _ | rst _ _ _ | readLen _ _ | writeLen _ _ | tune
        | marks _ _ _ => rfl
      | _ => exact absurd hkind (by decide))
    rfl

theorem listen_fixes (c : DtpContext) (bound alloc : Bool) (backlog : ℤ) : (c.dtpListen bound alloc backlog).1.packetQ =
    c.packetQ ∧ (c.dtpListen bound alloc backlog).1.isActive = c.isActive := by
  simp only [dtpListen]
  split_ifs <;> exact ⟨rfl, rfl⟩

theorem accept_fixes (c : DtpContext) (a : AcceptArgs) :
    (c.acceptBody a).1.packetQ = c.packetQ ∧ (c.acceptBody a).1.isActive = c.isActive := by
  simp only [acceptBody]
  split
  · split_ifs <;> exact ⟨rfl, rfl⟩
  · exact ⟨rfl, rfl⟩

theorem LifeEvent.packetOps_span (k : Crypto) (c : DtpContext) (e : LifeEvent) :
    QueueSpan (e.packetOps k c) c (e.apply k c) := by
  cases e with
  | conn e =>
    cases e with
    | own e => exact Cedos.Dtp.packetOps_span k c e
    | syn d addr hid key pad =>
      have hq := packetQ_of_acts (.repeatSYN c k.toRsa d addr hid key pad)
      simp only [LifeEvent.packetOps]
      split_ifs
      · exact .handleKey k.toRsa hq d key pad
      · exact .same (congrArg List.length hq)
    | option o env => exact .same (congrArg List.length (packetQ_of_acts (.dtpSetsockopt c o env)))
  | connect addr fid n e => exact (QueueSpan.writeAvail (c.startConnect addr fid n e)).of_same rfl
  | listen bound alloc backlog => exact .same (congrArg List.length (listen_fixes c bound alloc backlog).1)
  | fcntl nonblock => exact .refl c
  | enqueue s => exact .refl c
  | accept a => exact .same (congrArg List.length (accept_fixes c a).1)
  | refuse fid addr => exact .refl c

theorem LifeEvent.releases (hact : c.isActive = true) (h : e.SparesPackets k c) :
    (e.apply k c).isActive = false → (e.apply k c).packetQ = [] := by
  have hkept {c' : DtpContext} (hc : c'.isActive = c.isActive) : c'.isActive = false → c'.packetQ = [] := fun hoff =>
    absurd (hact.symm.trans (hc.symm.trans hoff)) (by decide)
  cases e with
  | conn e =>
    cases e with
    | own e =>
      refine releases_apply hact ?_
      cases e with
      | sendWake data => trivial
      | _ => exact h hact
    | syn d addr hid key pad => exact hkept (standing_of_acts (.repeatSYN c k.toRsa d addr hid key pad)).1
    | option o env => exact hkept (standing_of_acts (.dtpSetsockopt c o env)).1
  | connect addr fid n e => exact hkept ((standing_of_acts (.dtpWriteAvail (c.startConnect addr fid n e))).1.trans rfl)
  | listen bound alloc backlog => exact hkept (listen_fixes c bound alloc backlog).2
  | fcntl nonblock => exact hkept rfl
  | enqueue s => exact hkept rfl
  | accept a => exact hkept (accept_fixes c a).2
  | refuse fid addr => exact hkept rfl

/-- A context that has been released gets no packets. -/
theorem LifeEvent.packetOps_released (hoff : c.isActive = false) (he : e.onReleased = true) (h : e.SparesPackets k c) :
    e.packetOps k c = [] := by
  cases e with
  | conn e =>
    cases e with
    | own e =>
      cases e with
      | send data =>
        simp only [LifeEvent.packetOps, Event.packetOps, Event.flush, hoff, Bool.false_eq_true, false_and, if_false]
        rfl
      | recv length msgPeek => rfl
      | recvWake length msgPeek => rfl
      | close =>
        simp only [LifeEvent.packetOps, Event.packetOps, Event.flush, hoff, Bool.false_eq_true, false_and, if_false]
        rfl
      | closeWake => rfl
      | sendWake data => exact absurd (hoff.symm.trans h) (by decide)
      | _ => cases he
    | syn d addr hid key pad => cases he
    | option o env => rfl
  | _ => cases he

end Life

end Cedos.Dtp
