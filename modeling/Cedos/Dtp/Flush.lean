import Cedos.Dtp.SendOrder
import Cedos.Dtp.Endpoint

/-!
# Calls of `DTPWriteAvail`

New data and the FIN leave a context only through `DTPWriteAvail`. An event calls it at most
once, on a context that its handler has prepared; this module says on which, and that nothing
else in the event touches the send offsets forward or sends a FIN.
-/

namespace Cedos.Dtp

namespace DtpContext

/-- `DTPWriteAvail` in the body of `dtp_send`. -/
def flushSend (c : DtpContext) (data : List UInt8) : Option DtpContext :=
  let len := minSize data.length c.getAvailWriteBufSize
  if 0 < len then some (c.copyBytes data len).noteFull else none

/-- `DTPWriteAvail` in `HandleACKPacket`. -/
def flushACK (c : DtpContext) (ackNum : UInt32) (window : UInt16) : Option DtpContext :=
  if !c.isNetConnected then none
  else if ackNum < c.lastByteAcked ∧ ¬c.lastByteAcked + 1472 < c.lastByteAcked then none
  else
    let c := (c.noteWrap ackNum).noteAckWindow window
    if c.isHerWindowZero ∧ 0 < c.rcvWindow then some c.clearHerWindowZero
    else
      let c := c.countDuplicate ackNum
      if ackNum = c.lastByteAcked ∧ c.numACKRcvd = 4 then none else some (c.recordACK ackNum)

/-- `DTPWriteAvail` in `HandleAUTHPacket`. -/
def flushAUTH (c : DtpContext) : Option DtpContext :=
  if c.isACKInserted then
    match c.packetQ with
    | [] => some c.dtpSlowStart
    | p :: q =>
      if p.castAckBit then some ({ c with packetQ := q, isACKInserted := false } : DtpContext).dtpSlowStart
      else none
  else some c.dtpSlowStart

/-- `DTPWriteAvail` for a SYN under a new flow ID. -/
def flushRetry (c : DtpContext) (fid : UInt32) : Option DtpContext :=
  match c.packetQ with
  | [] => none
  | p :: q =>
    some { c with
      packetQ := q
      flowID := fid
      lastByteSent := c.lastByteSent - u32 p.payloadLen
      segSent := 0 }

end DtpContext

open DtpContext

/-- The context on which the event calls `DTPWriteAvail`. -/
def Event.flush (k : Crypto) (c : DtpContext) : Event → Option DtpContext
  | .send data =>
    if c.isActive ∧ data.length ≠ 0 ∧ c.state.isClosing = false ∧ c.connReset = false
    then c.flushSend data else none
  | .sendWake data => ({ c with isWriteBlocked := false } : DtpContext).flushSend data
  | .close =>
    if c.isActive ∧ c.state ≠ .closed ∧ c.connReset = false then some { c with closeCalled := true }
    else none
  | .batch p =>
    match p.ack with
    | none => none
    | some (ackNum, window) => if c.state ≠ .timeWait then c.flushACK ackNum window else none
  | .rsp d addr =>
    if c.validRSP k.hmac d then some (c.adoptAddress addr).sendAUTHPacket.dtpSlowStart else none
  | .auth addr _ => if c.peerAddr = addr then c.flushAUTH else none
  | .rst d hid fid =>
    match dtpGetOption d hid none with
    | .ok (hid, _) => if c.hostID = hid ∧ c.state = .synSent then c.flushRetry fid else none
    | .error _ => none
  | _ => none

/-- The send offsets and the FIN are as they were. -/
structure SameOffsets (c c' : DtpContext) : Prop where
  acked : c'.lastByteAcked = c.lastByteAcked
  sent : c'.lastByteSent = c.lastByteSent
  written : c'.lastByteWritten = c.lastByteWritten
  finSent : c'.isFINSent = c.isFINSent

namespace SameOffsets
variable {c c' c'' : DtpContext}

theorem refl (c : DtpContext) : SameOffsets c c := ⟨rfl, rfl, rfl, rfl⟩

theorem trans (h : SameOffsets c c') (h' : SameOffsets c' c'') : SameOffsets c c'' where
  acked := h'.acked.trans h.acked
  sent := h'.sent.trans h.sent
  written := h'.written.trans h.written
  finSent := h'.finSent.trans h.finSent

/-- The acts that leave the offsets alone, among those around a call of `DTPWriteAvail`. -/
theorem of_acts {K : List ActKind} (h : Acts K c c')
    (hK : ∀ k ∈ K, k ∈ Acts.resend ++ .congest :: .finAcked :: .closes :: .released :: .opened :: Acts.receiving := by
      decide) : SameOffsets c c' := by
  refine h.invariant (P := SameOffsets c) ?_ (refl c)
  intro k hk x y ha hx
  have hk' := hK k hk
  refine hx.trans ?_
  cases ha with
  | note | again | mark | congest | finAcked | closes | opened | ack | segment | store | dropACK =>
    exact ⟨rfl, rfl, rfl, rfl⟩
  | reconnect =>
    simp only [dtpReconnect]
    split <;> exact ⟨rfl, rfl, rfl, rfl⟩
  | released =>
    simp only [dtpCloseContext]
    split_ifs <;> exact ⟨rfl, rfl, rfl, rfl⟩
  | _ => exact absurd hk' (by decide)

end SameOffsets

/-- What the handler has left as it was when it calls `DTPWriteAvail`. -/
structure FlushStart (c x : DtpContext) : Prop where
  finSent : x.isFINSent = c.isFINSent
  sendSYN : x.sendSYN = c.sendSYN
  isSYNSent : x.isSYNSent = c.isSYNSent
  localID : x.localID = c.localID
  state : x.state = .synSent → c.state = .synSent

namespace FlushStart
variable {c c' c'' : DtpContext}

theorem trans (h : FlushStart c c') (h' : FlushStart c' c'') : FlushStart c c'' where
  finSent := h'.finSent.trans h.finSent
  sendSYN := h'.sendSYN.trans h.sendSYN
  isSYNSent := h'.isSYNSent.trans h.isSYNSent
  localID := h'.localID.trans h.localID
  state hs := h.state (h'.state hs)

theorem noteACK (c : DtpContext) (ackNum : UInt32) (window : UInt16) :
    FlushStart c ((c.noteWrap ackNum).noteAckWindow window) := by
  simp only [noteWrap]
  split_ifs <;> exact ⟨rfl, rfl, rfl, rfl, id⟩

theorem countDuplicate (c : DtpContext) (ackNum : UInt32) : FlushStart c (c.countDuplicate ackNum) := by
  simp only [DtpContext.countDuplicate]
  split_ifs <;> exact ⟨rfl, rfl, rfl, rfl, id⟩

theorem recordACK (c : DtpContext) (ackNum : UInt32) : FlushStart c (c.recordACK ackNum) := by
  simp only [DtpContext.recordACK, creditACK, establish]
  split_ifs with hnew hrcvd
  · exact ⟨rfl, rfl, rfl, rfl, fun hs => by cases hs⟩
  · exact ⟨rfl, rfl, rfl, rfl, id⟩
  · exact ⟨rfl, rfl, rfl, rfl, id⟩

theorem noteFull (c : DtpContext) : FlushStart c c.noteFull := by
  simp only [DtpContext.noteFull]
  split_ifs <;> exact ⟨rfl, rfl, rfl, rfl, id⟩

end FlushStart

section Apply
variable {k : Crypto} {c x : DtpContext} {e : Event}

/-- `HandleACKPacket` around its `DTPWriteAvail`. -/
theorem handleACKPacket_of_flush {ackNum : UInt32} {window : UInt16} (h : c.flushACK ackNum window = some x) :
    SameOffsets x.dtpWriteAvail (c.handleACKPacket ackNum window) ∧ FlushStart c x := by
  have hnote := FlushStart.noteACK c ackNum window
  simp only [flushACK, handleACKPacket] at h ⊢
  generalize (c.noteWrap ackNum).noteAckWindow window = c₁ at *
  split_ifs at h ⊢ with hnet hold hopen hdup
  · simp only [Option.some.injEq] at h
    subst h
    exact ⟨⟨rfl, rfl, rfl, rfl⟩, hnote.trans ⟨rfl, rfl, rfl, rfl, id⟩⟩
  · simp only [Option.some.injEq] at h
    subst h
    have hwake : SameOffsets ((c₁.countDuplicate ackNum).recordACK ackNum).dtpWriteAvail
        ((c₁.countDuplicate ackNum).recordACK ackNum).dtpWriteAvail.dtpWriteBufWakeup :=
      ⟨rfl, rfl, rfl, rfl⟩
    exact ⟨hwake.trans (.of_acts (Acts.finishACK _ _)),
      hnote.trans ((FlushStart.countDuplicate c₁ ackNum).trans (FlushStart.recordACK _ ackNum))⟩

/-- What the event leaves is what `DTPWriteAvail` leaves. -/
theorem apply_of_flush (h : e.flush k c = some x) : SameOffsets x.dtpWriteAvail (e.apply k c) ∧ FlushStart c x := by
  have hsend (c x : DtpContext) (data : List UInt8) (hx : c.flushSend data = some x) :
      (c.sendBody data).1 = x.dtpWriteAvail ∧ FlushStart c x := by
    simp only [flushSend] at hx
    split_ifs at hx with hlen
    have hne : minSize data.length c.getAvailWriteBufSize ≠ 0 := hlen.ne'
    simp only [Option.some.injEq] at hx
    subst hx
    have hcopy : FlushStart c (c.copyBytes data (minSize data.length c.getAvailWriteBufSize)) :=
      ⟨rfl, rfl, rfl, rfl, id⟩
    exact ⟨by simp only [sendBody, hne, hlen, if_false, if_true, acceptBytes], hcopy.trans (FlushStart.noteFull _)⟩
  cases e with
  | send data =>
    simp only [Event.flush] at h
    split_ifs at h with hok
    obtain ⟨hact, hne, hclosing, hreset⟩ := hok
    obtain ⟨heq, hstart⟩ := hsend c x data h
    have happly : (Event.send data).apply k c = x.dtpWriteAvail := by
      simp only [Event.apply, dtpSend, hact, hne, hclosing, hreset, Bool.not_true, Bool.false_eq_true, if_false, heq]
    exact ⟨happly ▸ SameOffsets.refl _, hstart⟩
  | sendWake data =>
    obtain ⟨heq, hstart⟩ := hsend _ x data h
    exact ⟨heq ▸ SameOffsets.refl _, { hstart with }⟩
  | close =>
    simp only [Event.flush] at h
    split_ifs at h with hok
    obtain ⟨hact, hclosed, hreset⟩ := hok
    simp only [Option.some.injEq] at h
    subst h
    refine ⟨?_, ⟨rfl, rfl, rfl, rfl, id⟩⟩
    simp only [Event.apply, dtpClose, hact, hclosed, hreset, Bool.not_true, Bool.false_eq_true, if_false,
      ne_eq, not_false_eq_true, and_self, if_true]
    split_ifs <;> exact ⟨rfl, rfl, rfl, rfl⟩
  | batch p =>
    cases hack : p.ack with
    | none => simp [Event.flush, hack] at h
    | some aw =>
      simp only [Event.flush, hack] at h
      split_ifs at h with hwait
      obtain ⟨hsame, hstart⟩ := handleACKPacket_of_flush h
      refine ⟨?_, hstart⟩
      simp only [Event.apply, processAggregatePackets, processACK, hack]
      rw [if_pos hwait]
      exact hsame.trans (.of_acts (Acts.processData _ _))
  | rsp d addr =>
    simp only [Event.flush] at h
    split_ifs at h with hv
    simp only [Option.some.injEq] at h
    subst h
    have hwake : SameOffsets (c.adoptAddress addr).sendAUTHPacket.dtpSlowStart.dtpWriteAvail
        (c.adoptAddress addr).sendAUTHPacket.resumeTransfer := ⟨rfl, rfl, rfl, rfl⟩
    refine ⟨?_, ⟨rfl, rfl, rfl, rfl, id⟩⟩
    simp only [Event.apply, handleRSPPacket, hv, Bool.not_true, Bool.false_eq_true, if_false]
    exact hwake.trans (.of_acts (Acts.retransmitHead _))
  | auth addr rnd =>
    simp only [Event.flush, flushAUTH] at h
    simp only [Event.apply, handleAUTHPacket]
    split_ifs at h ⊢ with haddr hins
    · cases hq : c.packetQ with
      | nil =>
        simp only [hq, Option.some.injEq] at h
        subst h
        exact ⟨⟨rfl, rfl, rfl, rfl⟩, ⟨rfl, rfl, rfl, rfl, id⟩⟩
      | cons p q =>
        simp only [hq] at h
        split_ifs at h with hbit
        simp only [Option.some.injEq] at h
        subst h
        simp only [hbit, Bool.not_true, Bool.false_eq_true, if_false]
        exact ⟨⟨rfl, rfl, rfl, rfl⟩, ⟨rfl, rfl, rfl, rfl, id⟩⟩
    · simp only [Option.some.injEq] at h
      subst h
      exact ⟨⟨rfl, rfl, rfl, rfl⟩, ⟨rfl, rfl, rfl, rfl, id⟩⟩
  | rst d hid fid =>
    cases hopt : dtpGetOption d hid none with
    | error err => simp [Event.flush, hopt] at h
    | ok r =>
      simp only [Event.flush, hopt] at h
      split_ifs at h with hok
      have happly : (Event.rst d hid fid).apply k c = c.retryConnect fid := by
        simp [Event.apply, handleRSTPacket, hopt, bind, Except.bind, pure, Except.pure, hok]
      rw [happly]
      simp only [flushRetry, retryConnect] at h ⊢
      cases hq : c.packetQ with
      | nil => simp [hq] at h
      | cons p q =>
        simp only [hq, Option.some.injEq] at h
        subst h
        exact ⟨SameOffsets.refl _, ⟨rfl, rfl, rfl, rfl, id⟩⟩
  | _ => simp [Event.flush] at h

end Apply

end Cedos.Dtp
