import Cedos.Dtp.AckFrames
import Cedos.Dtp.FinAfterData

/-!
# When the close is complete

`HandleACKPacket` ends with two tests. `FIN_WAIT_1` becomes `FIN_WAIT_2` when the ACK number is
`tc_lastByteWritten`; `LAST_ACK` becomes `CLOSED` with any ACK that gets that far, be it for a
part of the data or a duplicate. Between the ACK and the test stands `DTPWriteAvail`, which may
send the FIN: a context in `CLOSE_WAIT` whose FIN was held back by congestion passes through
`LAST_ACK` to `CLOSED` in one call. And it may not send it: a FIN that a timeout has taken back
leaves `tc_lastByteWritten` at the end of the data, and an ACK for the data completes the close.
-/

namespace Cedos.Dtp

open DtpContext

/-- The close completes on this side, also when the call has itself entered the state that it
leaves. -/
def Completes (c c' : DtpContext) : Prop :=
  (c'.state = .closed ∧ c.state ≠ .closed) ∨ (c'.state = .finWait2 ∧ c.state ≠ .finWait2)

instance (c c' : DtpContext) : Decidable (Completes c c') := inferInstanceAs (Decidable (_ ∨ _))

/-- The `DTPWriteAvail` of the ACK returns at once: a SYN is outstanding, or the ACK frees no
packet and so does not end the congestion. -/
def DtpContext.HoldsFIN (c : DtpContext) (ackNum : UInt32) : Prop :=
  c.sendSYN = true ∨ (c.isCongested = true ∧ ∀ p ∈ c.packetQ.head?, ackNum < p.stop)

/-- The ACK finds the context so that it completes the close only as the ACK for the FIN. -/
structure AnswersFIN (c : DtpContext) (ackNum : UInt32) : Prop where
  lastAck : c.state = .lastAck → c.isFINSent = true ∧ ackNum = c.lastByteWritten
  closeWait : c.state = .closeWait → c.closeCalled = true → c.isFINSent = false → c.HoldsFIN ackNum
  finWait1 : c.state = .finWait1 → c.isFINSent = false → ackNum = c.lastByteWritten →
    c.closeCalled = true ∧ ¬c.HoldsFIN ackNum

/-! ## The states after the peer's FIN -/

/-- In these states the peer's FIN is noted. -/
def HeardFIN (c : DtpContext) : Prop := c.state.heardFIN = true → c.isFINRcvd = true

namespace HeardFIN
variable {k : Crypto} {n : ℕ} {c c' : DtpContext} {e : Event}

theorem of_act {a : ActKind} (h : HeardFIN c) (ha : Act a c c') : HeardFIN c' := by
  cases ha with
  | fin =>
    intro hs
    refine h ?_
    change (DtpContext.finState c.state).heardFIN = true at hs
    cases hst : c.state <;> simp_all [DtpContext.finState, SockState.heardFIN]
  | fallBack =>
    rw [DtpContext.fallBack, unsendFIN]
    split_ifs <;> exact h
  | reconnect | switch =>
    rw [dtpReconnect]
    split <;> exact h
  | finHeard => exact fun _ => rfl
  | timeWait _ hfin => exact fun _ => hfin
  | dropFirst _ hfin _ => exact fun _ => hfin
  | released =>
    simp only [dtpCloseContext]
    split_ifs <;> exact h
  | dropLast | establish | finAcked | closes | reset | timedOut | adopted => exact fun hs => by cases hs
  | _ => exact h

theorem apply (h : HeardFIN c) : HeardFIN (e.apply k c) :=
  (Acts.apply k c e).invariant (fun _ _ _ _ ha h => h.of_act ha) h

end HeardFIN

/-! ## One call -/

/-- The context on which `HandleACKPacket` calls `DTPWriteAvail` before its last tests. -/
def DtpContext.recorded (c : DtpContext) (ackNum : UInt32) (window : UInt16) : DtpContext :=
  ((c.noteAckWindow window).countDuplicate ackNum).recordACK ackNum

section Call
variable {n : ℕ} {c x : DtpContext} {a : UInt32} {w : UInt16}

theorem handleACKPacket_of_records (h : SendOrder n c) (hr : c.Records a w) :
    c.handleACKPacket a w = (c.recorded a w).dtpWriteAvail.dtpWriteBufWakeup.finishACK a := by
  obtain ⟨hno, -⟩ | ⟨-, -, heq⟩ := handleACKPacket_cases (a := a) (w := w) h
  · exact absurd hr hno
  · exact heq

section
variable (x : DtpContext)

theorem state_dtpWriteAvail :
    x.dtpWriteAvail.state = if x.sendsFIN then finState x.state else x.state := by
  have hstate := congrArg Lifecycle.state (FlushFrame.writeFlush (fun _ => true) x).lifecycle
  rw [dtpWriteAvail_eq]
  split_ifs
  · exact congrArg finState hstate
  · exact hstate

theorem written_dtpWriteAvail :
    x.dtpWriteAvail.lastByteWritten = if x.sendsFIN then x.lastByteWritten + 1 else x.lastByteWritten := by
  have hwritten := (FlushFrame.writeFlush (fun _ => true) x).written
  rw [dtpWriteAvail_eq]
  split_ifs
  · exact congrArg (· + 1) hwritten
  · exact hwritten

theorem state_finishACK :
    (x.finishACK a).state = if x.state = .finWait1 ∧ x.lastByteWritten = a then .finWait2
      else if x.state = .lastAck then .closed else x.state := by
  simp only [finishACK]
  split_ifs
  · rfl
  · simp only [enterClosed, dtpCloseContext]
    split_ifs <;> rfl
  · rfl

theorem state_dtpRetransmit (p : DtpPkt) : (x.dtpRetransmit p).1.state = x.state := by
  simp only [dtpRetransmit, dtpReconnect]
  split_ifs
  · split <;> rfl
  · rfl

theorem state_handleDuplicateACK (a : UInt32) : (x.handleDuplicateACK a).state = x.state := by
  simp only [handleDuplicateACK]
  split
  · rfl
  · exact state_dtpRetransmit _ _

end

/-- Leaving a state by sending the FIN does not complete the close. -/
theorem not_completes {c' : DtpContext} (hs : c'.state = c.state ∨ c'.state = finState c.state) : ¬Completes c c' := by
  rintro (⟨hto, hne⟩ | ⟨hto, hne⟩) <;> cases hst : c.state <;> simp_all [finState]

/-- An ACK that does not get to the end completes nothing. -/
theorem records_of_completes (h : SendOrder n c) (hc : Completes c (c.handleACKPacket a w)) : c.Records a w := by
  obtain ⟨-, heq | ⟨-, -, heq⟩ | heq⟩ | ⟨hr, -⟩ := handleACKPacket_cases (a := a) (w := w) h
  · exact absurd hc (not_completes (.inl (by rw [heq])))
  · have hstate := state_dtpWriteAvail (c.noteAckWindow w).clearHerWindowZero
    rw [heq] at hc
    split_ifs at hstate
    · exact absurd hc (not_completes (.inr hstate))
    · exact absurd hc (not_completes (.inl hstate))
  · have hkept : ((c.noteAckWindow w).countDuplicate a).state = c.state := state_countDuplicate
    rw [heq] at hc
    exact absurd hc (not_completes (.inl ((state_handleDuplicateACK _ a).trans hkept)))
  · exact hr

/-- What the ACK leaves as it was before it gets to `DTPWriteAvail`. -/
structure RecordedFrame (c x : DtpContext) : Prop where
  written : x.lastByteWritten = c.lastByteWritten
  finSent : x.isFINSent = c.isFINSent
  finRcvd : x.isFINRcvd = c.isFINRcvd
  closeCalled : x.closeCalled = c.closeCalled
  sendSYN : x.sendSYN = c.sendSYN
  isSYNSent : x.isSYNSent = c.isSYNSent
  connected : x.isNetConnected = c.isNetConnected
  localID : x.localID = c.localID
  state : x.state = c.state ∨ (c.state = .synRcvd ∧ x.state = .established)

theorem recordedFrame (c : DtpContext) (a : UInt32) (w : UInt16) : RecordedFrame c (c.recorded a w) := by
  simp only [recorded, recordACK, creditACK, establish, countDuplicate]
  split_ifs with hdup hnew hrcvd hnew hrcvd
  · exact ⟨rfl, rfl, rfl, rfl, rfl, rfl, rfl, rfl, .inr ⟨hrcvd, rfl⟩⟩
  · exact ⟨rfl, rfl, rfl, rfl, rfl, rfl, rfl, rfl, .inl rfl⟩
  · exact ⟨rfl, rfl, rfl, rfl, rfl, rfl, rfl, rfl, .inl rfl⟩
  · exact ⟨rfl, rfl, rfl, rfl, rfl, rfl, rfl, rfl, .inr ⟨hrcvd, rfl⟩⟩
  · exact ⟨rfl, rfl, rfl, rfl, rfl, rfl, rfl, rfl, .inl rfl⟩
  · exact ⟨rfl, rfl, rfl, rfl, rfl, rfl, rfl, rfl, .inl rfl⟩

theorem isCongested_recorded (c : DtpContext) (a : UInt32) (w : UInt16) :
    (c.recorded a w).isCongested = (c.isCongested && !(cutQueue a c.packetQ).freed) := by
  have hcredit (x : DtpContext) (acked : ℤ) : (x.creditACK acked).isCongested = x.isCongested := by
    simp only [creditACK, establish]
    split_ifs <;> rfl
  rw [recorded, recordACK, hcredit, isCongested_removePacket, countDuplicate]
  split_ifs <;> rfl

theorem sent_recorded (c : DtpContext) (a : UInt32) (w : UInt16) :
    (c.recorded a w).lastByteSent = if c.lastByteSent < a then a else c.lastByteSent := by
  have hcredit (x : DtpContext) (acked : ℤ) : (x.creditACK acked).lastByteSent = x.lastByteSent := by
    simp only [creditACK, establish]
    split_ifs <;> rfl
  rw [recorded, recordACK, hcredit, countDuplicate]
  by_cases hdup : a = (c.noteAckWindow w).lastByteAcked <;> simp only [hdup, if_true, if_false] <;> rfl

/-- Without a FIN at its head the queue loses a packet just when the ACK covers the first. -/
theorem freed_iff {q : List DtpPkt} (hfin : ∀ p ∈ q, p.header.hdr.fin = false) :
    (cutQueue a q).freed = true ↔ ∃ p ∈ q.head?, p.stop ≤ a := by
  cases q with
  | nil => simp [cutQueue]
  | cons p q =>
    have hp := hfin p (by simp)
    simp only [cutQueue, List.head?_cons, Option.mem_def, Option.some.injEq, exists_eq_left']
    split_ifs with hlt heq hf
    · simp [UInt32.le_of_lt hlt]
    · simp [hp] at hf
    · simp [heq]
    · simp only [false_iff, UInt32.not_le]
      rw [UInt32.lt_iff_toNat_lt] at hlt ⊢
      rw [← UInt32.toNat_inj] at heq
      omega

/-- With the FIN not sent and the connection past `ESTABLISHED`, the ACK gets `DTPWriteAvail`
going unless it holds the FIN. -/
theorem mayWrite_recorded (h : SendOrder n c) (hfin : c.isFINSent = false)
    (hs : c.state = .closeWait ∨ c.state = .finWait1) : (c.recorded a w).mayWrite = true ↔ ¬c.HoldsFIN a := by
  have hframe := recordedFrame c a w
  have hstate : (c.recorded a w).state = c.state := by
    rcases hframe.state with heq | ⟨hrcvd, -⟩
    · exact heq
    · rcases hs with hs | hs <;> rw [hs] at hrcvd <;> cases hrcvd
  have hwants : (c.recorded a w).wantsSYN = c.sendSYN := by
    rcases hs with hs | hs <;> simp [wantsSYN, hstate, hs, hframe.sendSYN]
  have hplain : ∀ p ∈ c.packetQ, p.header.hdr.fin = false := by
    intro p hp
    by_contra hf
    have hsent := h.finSent p hp (by simpa using hf)
    rw [hfin] at hsent
    cases hsent
  have hsyn : (c.sendSYN && c.isSYNSent) = c.sendSYN := by
    cases hb : c.sendSYN with
    | false => rfl
    | true => simp [h.synSent hb]
  have hfreed := freed_iff (a := a) hplain
  simp only [Option.mem_def] at hfreed
  rw [mayWrite, hframe.connected, h.connected, isCongested_recorded, hwants, hframe.isSYNSent, hsyn, HoldsFIN]
  cases c.sendSYN <;> cases c.isCongested <;> simp [hfreed]

/-- Then the FIN is sent when the peer's has come or all data has been sent. -/
theorem sendsFIN_of_mayWrite (hid : x.localID.length = sha1DigestLength) (hs : x.state ≠ .synSent)
    (hclose : x.closeCalled = true) (hfin : x.isFINSent = false) (hmay : x.mayWrite = true)
    (hwhy : x.isFINRcvd = true ∨ x.lastByteSent = x.lastByteWritten) : x.sendsFIN = true := by
  have hframe := FlushFrame.writeFlush (fun _ => true) x
  have hclose' := (congrArg Lifecycle.closeCalled hframe.lifecycle).trans hclose
  have hfin' := (congrArg Lifecycle.isFINSent hframe.lifecycle).trans hfin
  have hdone := (writeFlush_closed hid hs hclose hmay).2
  have hready : (x.writeFlush fun _ => true).1.isFINRcvd = true ∨
      (x.writeFlush fun _ => true).1.lastByteSent = (x.writeFlush fun _ => true).1.lastByteWritten := by
    rcases hwhy with hrcvd | hall
    · exact .inl ((congrArg Lifecycle.isFINRcvd hframe.lifecycle).trans hrcvd)
    · right
      rw [hframe.written, sent_all_iff hid hs hclose hmay]
      left
      simp [hall]
  rcases hready with hr | hr <;> simp [sendsFIN, wantsFIN, hdone, hclose', hfin', hr]

/-- The state an ACK that gets to the end leaves. -/
theorem state_of_records (h : SendOrder n c) (hr : c.Records a w) :
    (c.handleACKPacket a w).state = if (c.recorded a w).dtpWriteAvail.state = .finWait1 ∧
        (c.recorded a w).dtpWriteAvail.lastByteWritten = a then .finWait2
      else if (c.recorded a w).dtpWriteAvail.state = .lastAck then .closed
      else (c.recorded a w).dtpWriteAvail.state := by
  rw [handleACKPacket_of_records h hr]
  exact state_finishACK _

/-- Outside `SYN_RCVD` the ACK leaves the state to `DTPWriteAvail`. -/
theorem state_recorded (hs : c.state ≠ .synRcvd) : (c.recorded a w).state = c.state := by
  rcases (recordedFrame c a w).state with heq | ⟨hrcvd, -⟩
  · exact heq
  · exact absurd hrcvd hs

section Cases
variable (h : SendOrder n c) (ha : a ≤ c.lastByteWritten)
include h ha

/-- The ACK number is not past the data when the FIN has not been sent. -/
theorem le_of_unsent (hfin : c.isFINSent = false) : a.toNat ≤ n := by
  have hwritten := h.written
  rw [UInt32.le_iff_toNat_le] at ha
  rw [hfin, Bool.toNat_false] at hwritten
  omega

theorem ne_written_succ : c.lastByteWritten + 1 ≠ a := by
  have hlt := h.written_lt
  have h1 : (1 : UInt32).toNat = 1 := rfl
  rintro rfl
  rw [UInt32.le_iff_toNat_le, toNat_add_word (by omega)] at ha
  omega

variable (hr : c.Records a w)
include hr

theorem completes_lastAck (hs : c.state = .lastAck) : (Completes c (c.handleACKPacket a w) → a.toNat = n + 1) ↔
    c.isFINSent = true ∧ a = c.lastByteWritten := by
  have hy : (c.recorded a w).dtpWriteAvail.state = .lastAck := by
    rw [state_dtpWriteAvail, state_recorded (by simp [hs]), hs]
    split_ifs <;> rfl
  have hclosed : (c.handleACKPacket a w).state = .closed := by simp [state_of_records h hr, hy]
  have hcomp : Completes c (c.handleACKPacket a w) := .inl ⟨hclosed, by simp [hs]⟩
  have hwritten := h.written
  rw [UInt32.le_iff_toNat_le] at ha
  rw [← UInt32.toNat_inj]
  cases hf : c.isFINSent <;> simp only [hf, Bool.toNat_false, Bool.toNat_true] at hwritten
  · simp only [hcomp, forall_const, Bool.false_eq_true, false_and, iff_false]
    omega
  · simp only [hcomp, forall_const, true_and]
    omega

theorem completes_closeWait (hs : c.state = .closeWait) (hheard : HeardFIN c) :
    (Completes c (c.handleACKPacket a w) → a.toNat = n + 1) ↔
      (c.closeCalled = true → c.isFINSent = false → c.HoldsFIN a) := by
  have hframe := recordedFrame c a w
  have hx : (c.recorded a w).state = .closeWait := (state_recorded (by simp [hs])).trans hs
  have hy := state_dtpWriteAvail (c.recorded a w)
  have hlate := le_of_unsent h ha
  by_cases hsends : (c.recorded a w).sendsFIN = true
  · -- the FIN goes out and the same call closes
    obtain ⟨hmay, hclose, hfin, -⟩ := sendsFIN_cases hsends
    rw [hframe.closeCalled] at hclose
    rw [hframe.finSent] at hfin
    rw [hsends, if_pos rfl, hx] at hy
    have hclosed : (c.handleACKPacket a w).state = .closed := by simp [state_of_records h hr, hy, finState]
    have hcomp : Completes c (c.handleACKPacket a w) := .inl ⟨hclosed, by simp [hs]⟩
    have hfree := (mayWrite_recorded h hfin (.inl hs)).mp hmay
    simp only [hcomp, hclose, hfin, hfree, forall_const, iff_false]
    have hle := hlate hfin
    omega
  · rw [Bool.eq_false_iff.mpr hsends, if_neg Bool.false_ne_true, hx] at hy
    have hstays : (c.handleACKPacket a w).state = .closeWait := by simp [state_of_records h hr, hy]
    have hnot : ¬Completes c (c.handleACKPacket a w) := not_completes (.inl (hstays.trans hs.symm))
    simp only [hnot, false_imp_iff, true_iff]
    intro hclose hfin
    by_contra hfree
    refine hsends (sendsFIN_of_mayWrite ?_ (by simp [hx]) ?_ ?_ ?_ (.inl ?_))
    · rw [hframe.localID]
      exact h.localID
    · rw [hframe.closeCalled, hclose]
    · rw [hframe.finSent, hfin]
    · exact (mayWrite_recorded h hfin (.inl hs)).mpr hfree
    · rw [hframe.finRcvd]
      exact hheard (by rw [hs]; rfl)

/-- `FIN_WAIT_1`: the ACK for the data completes the close when the FIN has been taken back and
does not go out again. -/
theorem completes_finWait1 (hs : c.state = .finWait1) : (Completes c (c.handleACKPacket a w) → a.toNat = n + 1) ↔
    (c.isFINSent = false → a = c.lastByteWritten → c.closeCalled = true ∧ ¬c.HoldsFIN a) := by
  have hframe := recordedFrame c a w
  have hx : (c.recorded a w).state = .finWait1 := (state_recorded (by simp [hs])).trans hs
  have hy : (c.recorded a w).dtpWriteAvail.state = .finWait1 := by
    rw [state_dtpWriteAvail, hx]
    split_ifs <;> rfl
  have hcomp : Completes c (c.handleACKPacket a w) ↔ (c.recorded a w).dtpWriteAvail.lastByteWritten = a := by
    rw [Completes, state_of_records h hr, hy, hs]
    by_cases hw : (c.recorded a w).dtpWriteAvail.lastByteWritten = a <;> simp [hw]
  have hnext := ne_written_succ h ha
  rw [hcomp, written_dtpWriteAvail, hframe.written]
  cases hfin : c.isFINSent with
  | true =>
    have hwritten := h.written
    rw [hfin, Bool.toNat_true] at hwritten
    have hsends : ¬(c.recorded a w).sendsFIN = true := by
      intro hsends
      have hunsent := (sendsFIN_cases hsends).2.2.1
      rw [hframe.finSent, hfin] at hunsent
      cases hunsent
    simp only [hsends, Bool.true_eq_false, false_imp_iff, iff_true]
    rintro rfl
    exact hwritten
  | false =>
    have hle := le_of_unsent h ha hfin
    by_cases hsends : (c.recorded a w).sendsFIN = true
    · obtain ⟨hmay, hclose, -, -⟩ := sendsFIN_cases hsends
      rw [hframe.closeCalled] at hclose
      simp [hsends, hnext, hclose, (mayWrite_recorded h hfin (.inr hs)).mp hmay]
    · have hdue (heq : a = c.lastByteWritten) : ¬(c.closeCalled = true ∧ ¬c.HoldsFIN a) := by
        rintro ⟨hclose, hfree⟩
        refine hsends (sendsFIN_of_mayWrite ?_ (by simp [hx]) ?_ ?_ ?_ (.inr ?_))
        · rw [hframe.localID]
          exact h.localID
        · rw [hframe.closeCalled, hclose]
        · rw [hframe.finSent, hfin]
        · exact (mayWrite_recorded h hfin (.inr hs)).mpr hfree
        · have hsent := h.sent_le
          rw [sent_recorded, hframe.written, heq]
          split_ifs with hlt
          · rfl
          · rw [UInt32.lt_iff_toNat_lt] at hlt
            rw [← UInt32.toNat_inj]
            omega
      simp only [hsends, forall_const]
      constructor
      · intro hall heq
        have hnum := hall heq.symm
        omega
      · intro hall heq
        exact absurd (hall heq.symm) (hdue heq.symm)

/-- In the other states no ACK completes the close. -/
theorem not_completes_elsewhere (hlast : c.state ≠ .lastAck) (hwait : c.state ≠ .closeWait)
    (hfin : c.state ≠ .finWait1) : ¬Completes c (c.handleACKPacket a w) := by
  have hx := (recordedFrame c a w).state
  have hy := state_dtpWriteAvail (c.recorded a w)
  have hnext := ne_written_succ h ha
  rw [Completes, state_of_records h hr, written_dtpWriteAvail, (recordedFrame c a w).written]
  by_cases hsends : (c.recorded a w).sendsFIN = true
  · simp only [hsends, if_true] at hy
    simp only [hsends, if_true, hnext, and_false, if_false, hy]
    rcases hx with hx | ⟨hrcvd, hx⟩ <;> cases hst : c.state <;> simp_all [finState]
  · simp only [hsends] at hy
    simp only [hsends, hy]
    rcases hx with hx | ⟨hrcvd, hx⟩ <;> cases hst : c.state <;> simp_all

end Cases

/-- One call: the close completes with the ACK for the FIN just when the ACK answers it. -/
theorem completes_iff (h : SendOrder n c) (hheard : HeardFIN c) (ha : c.Records a w → a ≤ c.lastByteWritten) :
    (Completes c (c.handleACKPacket a w) → a.toNat = n + 1) ↔ (c.Records a w → AnswersFIN c a) := by
  by_cases hr : c.Records a w
  · have ha := ha hr
    simp only [hr, forall_const]
    by_cases hlast : c.state = .lastAck
    · rw [completes_lastAck h ha hr hlast]
      exact ⟨fun hcov => ⟨fun _ => hcov, by simp [hlast], by simp [hlast]⟩, fun hans => hans.lastAck hlast⟩
    by_cases hwait : c.state = .closeWait
    · rw [completes_closeWait h ha hr hwait hheard]
      exact ⟨fun hcov => ⟨by simp [hwait], fun _ => hcov, by simp [hwait]⟩, fun hans => hans.closeWait hwait⟩
    by_cases hfin : c.state = .finWait1
    · rw [completes_finWait1 h ha hr hfin]
      exact ⟨fun hcov => ⟨by simp [hfin], by simp [hfin], fun _ => hcov⟩, fun hans => hans.finWait1 hfin⟩
    · have hnot := not_completes_elsewhere h ha hr hlast hwait hfin
      simp only [hnot, false_imp_iff, true_iff]
      exact ⟨fun hs => absurd hs hlast, fun hs => absurd hs hwait, fun hs => absurd hs hfin⟩
  · have hnot : ¬Completes c (c.handleACKPacket a w) := fun hc => hr (records_of_completes h hc)
    simp only [hnot, hr, false_imp_iff]

end Call

/-! ## Runs -/

section Runs
variable {k : Crypto} {base : ℕ} {opening : List UInt8} {c₀ : DtpContext}

theorem heardFIN_of_closing (h₀ : FreshSender base opening c₀) {s : Sending}
    (hs : (closingSender k base opening c₀).Reachable s) : HeardFIN s.ctx := by
  induction hs with
  | init ht =>
    obtain rfl : _ = (⟨c₀, opening⟩ : Sending) := ht
    intro hheard
    rcases h₀.state with hst | hst | hst <;> rw [hst] at hheard <;> cases hheard
  | step _ _ ih => exact ih.apply

/-- **The close completes with the ACK for the FIN.**  In runs in which the send offsets stay in
order, a call of `HandleACKPacket` enters `CLOSED` or `FIN_WAIT_2` only with the number that
acknowledges everything `dtp_send` has accepted and the FIN, just when the ACK is not recorded or
answers the FIN. -/
theorem close_completes (h₀ : FreshSender base opening c₀) {s : Sending}
    (hs : (closingSender k base opening c₀).Reachable s) {p : AdjPktInfo} {ackNum : UInt32}
    {window : UInt16} (he : (closingSender k base opening c₀).allowed s (.batch p))
    (hp : p.ack = some (ackNum, window)) (hwait : s.ctx.state ≠ .timeWait) :
    (Completes s.ctx (s.ctx.handleACKPacket ackNum window) → ackNum.toNat = s.stream.length + 1) ↔
      (s.ctx.Records ackNum window → AnswersFIN s.ctx ackNum) :=
  completes_iff (sendOrder_of_closing h₀ hs) (heardFIN_of_closing h₀ hs) (he.2.1 ackNum window hp hwait)

end Runs

/-- Three bytes are sent, the peer closes, and `dtp_close` sends the FIN. -/
def lastAckRun : List Event := [.send [1, 2, 3], .fin peerFIN, .close]

def lastAckSender : Sending := (closingSender sampleCrypto 0 [] sampleSender).run ⟨sampleSender, []⟩ lastAckRun

theorem lastAckSender_reachable : (closingSender sampleCrypto 0 [] sampleSender).Reachable lastAckSender := by
  have hadm : (closingSender sampleCrypto 0 [] sampleSender).Admits ⟨sampleSender, []⟩ lastAckRun := by
    decide +kernel
  exact .run (.init rfl) hadm

/-- The ACK for the FIN completes the close. -/
theorem close_completes_last_ack : ∃ s, (closingSender sampleCrypto 0 [] sampleSender).Reachable s ∧
    Completes s.ctx (s.ctx.handleACKPacket 4 2) ∧ (4 : UInt32).toNat = s.stream.length + 1 := by
  have hcomp : Completes lastAckSender.ctx (lastAckSender.ctx.handleACKPacket 4 2) := by decide +kernel
  have hack : (closingSender sampleCrypto 0 [] sampleSender).allowed lastAckSender (.batch (ackOnly 4 2)) := by
    decide +kernel
  refine ⟨_, lastAckSender_reachable, hcomp, ?_⟩
  refine (close_completes sampleSender_fresh lastAckSender_reachable hack rfl
    (by decide +kernel)).mpr (fun _ => ⟨fun _ => ?_, fun hs => ?_, fun hs => ?_⟩) hcomp
  · exact ⟨by decide +kernel, by decide +kernel⟩
  · exact absurd hs (by decide +kernel)
  · exact absurd hs (by decide +kernel)

/-- So does an ACK for one byte of three: the context is released with two bytes and the FIN
unacknowledged. -/
theorem ack_for_part_closes : ∃ s, (closingSender sampleCrypto 0 [] sampleSender).Reachable s ∧
    (closingSender sampleCrypto 0 [] sampleSender).allowed s (.batch (ackOnly 1 2)) ∧
    s.ctx.state = .lastAck ∧ (s.ctx.handleACKPacket 1 2).state = .closed ∧
    (s.ctx.handleACKPacket 1 2).isActive = false ∧
    ¬(Completes s.ctx (s.ctx.handleACKPacket 1 2) → (1 : UInt32).toNat = s.stream.length + 1) := by
  refine ⟨_, lastAckSender_reachable, ?_, ?_, ?_, ?_, ?_⟩ <;> decide +kernel

end Cedos.Dtp
