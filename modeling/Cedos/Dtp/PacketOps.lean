import Cedos.Dtp.Flush
import Cedos.Dtp.Moves

/-!
# What happens to the packets of a context

A packet is taken from the pool with `DTPGetIdlePacket` and given back with `AddToFreePacketList`. In between it
is in the queue of a context. For each function of the library this file has the list of these operations, in
the order in which the source makes them.

The functions themselves are translated elsewhere, with the queue as a list of values. There an operation is seen
as a longer or shorter list: the operations of a function lead from the length before to the length after.
-/

namespace Cedos.Dtp

/-- An operation on the pool and the queue of a context. -/
inductive PacketOp
  /-- `DTPGetIdlePacket`, then `TAILQ_INSERT_TAIL` -/
  | insert
  /-- `TAILQ_REMOVE` of the packet at a place of the queue, then `AddToFreePacketList` -/
  | free (i : ℕ)
  /-- `DTPGetIdlePacket`, then `AddToFreePacketList` -/
  | borrow
  /-- `DTPGetIdlePacket`, and nothing more -/
  | lose
  deriving DecidableEq, Repr

/-- The length of the queue after the operation. -/
def PacketOp.size : ℕ → PacketOp → ℕ
  | n, .insert => n + 1
  | n, .free i => if i < n then n - 1 else n
  | n, .borrow => n
  | n, .lose => n

namespace DtpContext

/-! ## Sending -/

/-- `DTPWriteAvail`, its `DTPSendFINPacket` included. -/
def writeAvailOps (c : DtpContext) : List PacketOp :=
  List.replicate (c.dtpWriteAvail.packetQ.length - c.packetQ.length) .insert

/-- `DTPWriteAvail`, if it is called. -/
def flushOps : Option DtpContext → List PacketOp
  | none => []
  | some c => c.writeAvailOps

/-- `DTPHandleKey`. -/
def handleKeyOps (rsa : Rsa) (d : Datagram) (key : List UInt8) (pad : ℕ) : List PacketOp :=
  match rsa.encrypt (modulus d) (exponent d) key pad with
  | none => []
  | some _ => [.lose]

/-! ## Receiving -/

/-- `RemovePacket`, which removes from the head. -/
def removePacketOps (c : DtpContext) (ackNum : UInt32) : List PacketOp :=
  List.replicate (c.packetQ.length - (cutQueue ackNum c.packetQ).rest.length) (.free 0)

def handleACKOps (c : DtpContext) (ackNum : UInt32) (window : UInt16) : List PacketOp :=
  if !c.isNetConnected then []
  else if ackNum < c.lastByteAcked ∧ ¬c.lastByteAcked + 1472 < c.lastByteAcked then []
  else
    let c := (c.noteWrap ackNum).noteAckWindow window
    if c.isHerWindowZero ∧ 0 < c.rcvWindow then c.clearHerWindowZero.writeAvailOps
    else
      let c := c.countDuplicate ackNum
      if ackNum = c.lastByteAcked ∧ c.numACKRcvd = 4 then []
      else c.removePacketOps ackNum ++ (c.recordACK ackNum).writeAvailOps

/-- An ACK that was queued is taken out again. -/
def dropInsertedOps (c : DtpContext) : List PacketOp :=
  if c.isACKInserted then
    match c.packetQ with
    | [] => []
    | p :: _ => if p.header.hdr.ack then [.free 0] else []
  else []

def handleNormalOps (c : DtpContext) (d : Datagram) : List PacketOp :=
  if c.state = .synRcvd ∨ c.state = .synSent ∨ d.hdr.syn then [] else c.dropInsertedOps

/-- The packet loop of `ProcessAggregatePackets`. -/
def processOps : DtpContext → List Datagram → List PacketOp
  | _, [] => []
  | c, d :: ds => (if 0 < getPayloadLen d then c.handleNormalOps d else []) ++ processOps (c.processPacket d) ds

/-- `ProcessAggregatePackets`. -/
def batchOps (c : DtpContext) (p : AdjPktInfo) : List PacketOp :=
  let ack := match p.ack with
    | some (ackNum, window) => if c.state ≠ .timeWait then c.handleACKOps ackNum window else []
    | none => []
  let c := c.processACK p.ack
  ack ++ if c.isActive then c.processOps p.pkts else c.processOps (p.pkts.takeWhile fun d => !hasData d)

/-- A FIN that is accepted: in `FIN_WAIT_1` the first packet is taken for the own FIN. -/
def acceptFINOps (c : DtpContext) : List PacketOp := if c.state = .finWait1 then [.free 0] else []

def handleFINOps (c : DtpContext) (h : DtpHdr) : List PacketOp :=
  if c.ignoresFIN then []
  else if c.inFinWait && h.ackSeq != c.lastByteWritten then
    if !c.nearbyAck h.ackSeq then [] else c.acceptFINOps
  else if c.state = .established ∧ h.seq ≠ c.nextByteExpected then []
  else c.acceptFINOps

def handleAUTHOps (c : DtpContext) (addr : SockAddr) : List PacketOp :=
  if c.peerAddr ≠ addr then [.borrow]
  else if c.isACKInserted then
    match c.packetQ with
    | [] => flushOps c.flushAUTH
    | p :: _ => if !p.castAckBit then [] else .free 0 :: flushOps c.flushAUTH
  else flushOps c.flushAUTH

def handleRSTOps (c : DtpContext) (d : Datagram) (hid : List UInt8) (fid : UInt32) : List PacketOp :=
  match dtpGetOption d hid none with
  | .error _ => []
  | .ok (hid, _) =>
    if c.hostID ≠ hid then []
    else if c.state = .synSent then .free 0 :: flushOps (c.flushRetry fid)
    else if c.state = .established then []
    else if c.state = .lastAck then [.free 0]
    else []

/-! ## The timer -/

/-- The packet loop of `HandleTimeout`. -/
def timeoutLoopOps (env : TimerEnv) : ℕ → List DtpPkt → List DtpPkt → DtpContext → List PacketOp
  | _, _, [], _ => []
  | i, kept, p :: q, c =>
    if c.isCongested && !p.isRetrans then
      .free kept.length :: timeoutLoopOps env (i + 1) kept q (c.prunePacket p (kept ++ q))
    else if c.state = .lastAck ∧ env.lastExpired i then [.free kept.length]
    else if !env.expired i then []
    else
      let r := c.timeoutPacket p
      timeoutLoopOps env (i + 1) (kept ++ [r.2]) q (r.1.setQueue (kept ++ r.2 :: q))

def handleTimeoutOps (c : DtpContext) (env : TimerEnv) : List PacketOp :=
  if c.state = .timeWait then []
  else if c.keepAliveDue env ∧ ¬c.sentProbes < c.keepAliveProbes then []
  else
    let c := if c.keepAliveDue env then c.dtpSendProbePacket.countProbe else c
    let c := (c.switchInterface env).persistProbe env
    timeoutLoopOps env 0 [] c.packetQ c

end DtpContext

open DtpContext

def Event.packetOps (k : Crypto) (c : DtpContext) : Event → List PacketOp
  | .send data => flushOps ((Event.send data).flush k c)
  | .sendWake data => flushOps ((Event.sendWake data).flush k c)
  | .recv _ _ => []
  | .recvWake _ _ => []
  | .close => flushOps (Event.close.flush k c)
  | .closeWake => []
  | .batch p => c.batchOps p
  | .fin h => c.handleFINOps h
  | .chg _ _ => [.borrow]
  | .rsp d addr => flushOps ((Event.rsp d addr).flush k c)
  | .auth addr _ => c.handleAUTHOps addr
  | .checkAddr addr _ => if c.state ≠ .synRcvd ∧ c.state ≠ .timeWait ∧ c.peerAddr ≠ addr then [.borrow] else []
  | .synAck _ _ _ => []
  | .rst d hid fid => c.handleRSTOps d hid fid
  | .timeout env => c.handleTimeoutOps env

/-! ## The length of the queue -/

/-- The operations lead from the queue of `c` to one as long as that of `c'`. -/
def QueueSpan (ops : List PacketOp) (c c' : DtpContext) : Prop :=
  ops.foldl PacketOp.size c.packetQ.length = c'.packetQ.length

theorem foldl_size_insert (n m : ℕ) : (List.replicate m PacketOp.insert).foldl PacketOp.size n = n + m := by
  induction m generalizing n with
  | zero => rfl
  | succ m ih =>
    rw [List.replicate_succ, List.foldl_cons, ih, PacketOp.size]
    omega

theorem foldl_size_free {n m : ℕ} (h : m ≤ n) : (List.replicate m (PacketOp.free 0)).foldl PacketOp.size n = n - m := by
  induction m generalizing n with
  | zero => rfl
  | succ m ih =>
    have hpos : 0 < n := by omega
    rw [List.replicate_succ, List.foldl_cons, PacketOp.size, if_pos hpos, ih (by omega)]
    omega

namespace QueueSpan
variable {ops ops' : List PacketOp} {c c' c'' : DtpContext}

theorem append (h : QueueSpan ops c c') (h' : QueueSpan ops' c' c'') : QueueSpan (ops ++ ops') c c'' := by
  rw [QueueSpan, List.foldl_append, h]
  exact h'

theorem same (h : c'.packetQ.length = c.packetQ.length) : QueueSpan [] c c' := h.symm

theorem refl (c : DtpContext) : QueueSpan [] c c := rfl

theorem then_same (h : QueueSpan ops c c') (h' : c''.packetQ.length = c'.packetQ.length) : QueueSpan ops c c'' :=
  Eq.trans h h'.symm

theorem of_same (h : QueueSpan ops c' c'') (h' : c'.packetQ.length = c.packetQ.length) : QueueSpan ops c c'' := by
  rw [QueueSpan, ← h']
  exact h

/-! ### `DTPWriteAvail` -/

theorem length_le_dtpWriteAvail (c : DtpContext) : c.packetQ.length ≤ c.dtpWriteAvail.packetQ.length := by
  have happend (q : List DtpPkt) (p : DtpPkt) (h : c.packetQ.length ≤ q.length) :
      c.packetQ.length ≤ (q ++ [p]).length := by
    rw [List.length_append]
    exact h.trans (Nat.le_add_right _ _)
  exact dtpWriteAvail_induction (P := fun c' => c.packetQ.length ≤ c'.packetQ.length) (fun _ h => h)
    (fun c' flags len h => happend _ _ h) (fun c' h => happend _ _ h) le_rfl

theorem writeAvail (c : DtpContext) : QueueSpan c.writeAvailOps c c.dtpWriteAvail := by
  have hle := length_le_dtpWriteAvail c
  rw [QueueSpan, writeAvailOps, foldl_size_insert]
  omega

/-! ### `ProcessAggregatePackets` -/

section
variable (c : DtpContext)

theorem removePacket (a : UInt32) : QueueSpan (c.removePacketOps a) c (c.removePacket a) := by
  have hle := length_cutQueue a c.packetQ
  rw [QueueSpan, removePacketOps, foldl_size_free (Nat.sub_le _ _), packetQ_removePacket]
  omega

theorem packetQ_noteACK (a : UInt32) (w : UInt16) : ((c.noteWrap a).noteAckWindow w).packetQ = c.packetQ := by
  simp only [noteAckWindow, noteWrap]
  split_ifs <;> rfl

theorem packetQ_countDuplicate (a : UInt32) : (c.countDuplicate a).packetQ = c.packetQ := by
  simp only [countDuplicate]
  split_ifs <;> rfl

theorem packetQ_creditACK (n : ℤ) : (c.creditACK n).packetQ = c.packetQ := by
  simp only [creditACK, establish]
  split_ifs <;> rfl

theorem recordACK (a : UInt32) : QueueSpan (c.removePacketOps a) c (c.recordACK a) := by
  have hcut : QueueSpan (c.removePacketOps a) c ((c.shiftAcked a).removePacket a) := removePacket (c.shiftAcked a) a
  exact hcut.then_same (congrArg List.length (packetQ_creditACK _ _))

theorem packetQ_dtpCloseContext : c.dtpCloseContext.packetQ = c.packetQ := by
  simp only [dtpCloseContext]
  split_ifs <;> rfl

theorem packetQ_finishACK (a : UInt32) : (c.finishACK a).packetQ = c.packetQ := by
  simp only [finishACK]
  split_ifs
  · rfl
  · exact packetQ_dtpCloseContext _
  · rfl

end

theorem length_setHead {c : DtpContext} (h : c.packetQ ≠ []) (p : DtpPkt) :
    (c.setHead p).packetQ.length = c.packetQ.length := by
  have hpos := List.length_pos_of_ne_nil h
  change (p :: c.packetQ.tail).length = _
  rw [List.length_cons, List.length_tail]
  omega

section
variable (c : DtpContext)

theorem length_handleDuplicateACK (a : UInt32) : (c.handleDuplicateACK a).packetQ.length = c.packetQ.length := by
  simp only [handleDuplicateACK]
  cases hq : c.packetQ with
  | nil => rw [hq]
  | cons p q =>
    dsimp only
    generalize hc : (c.assert (decide (p.seqNum ≤ a))).assert (decide (a ≤ p.seqNum + u32 p.payloadLen)) = c₁
    have hq₁ : (c₁.dtpRetransmit p).1.packetQ = p :: q := by
      rw [Acts.packetQ_dtpRetransmit, ← hc]
      exact hq
    have hset := length_setHead (c := (c₁.dtpRetransmit p).1) (by simp [hq₁]) (c₁.dtpRetransmit p).2
    rw [hq₁] at hset
    exact hset

theorem handleACK (a : UInt32) (w : UInt16) : QueueSpan (c.handleACKOps a w) c (c.handleACKPacket a w) := by
  have hnote := packetQ_noteACK c a w
  simp only [handleACKOps, handleACKPacket]
  generalize (c.noteWrap a).noteAckWindow w = c₁ at hnote
  have hdup := (packetQ_countDuplicate c₁ a).trans hnote
  split_ifs
  · exact refl c
  · exact refl c
  · exact ((writeAvail c₁.clearHerWindowZero).of_same (congrArg List.length hnote)).then_same rfl
  · exact same ((length_handleDuplicateACK _ a).trans (congrArg List.length hdup))
  · have hrecord := (recordACK (c₁.countDuplicate a) a).append (writeAvail _)
    exact (hrecord.of_same (congrArg List.length hdup)).then_same (congrArg List.length (packetQ_finishACK _ a))

theorem dropInserted : QueueSpan c.dropInsertedOps c c.dropInsertedACK := by
  simp only [dropInsertedOps, dropInsertedACK]
  split_ifs
  · cases hq : c.packetQ with
    | nil => exact refl c
    | cons p q =>
      dsimp only
      split_ifs
      · rw [QueueSpan, hq]
        rfl
      · exact same rfl
  · exact refl c

theorem handleNormal (d : Datagram) (bodyLen : UInt32) :
    QueueSpan (c.handleNormalOps d) c (c.handleNormalPacket d bodyLen).1 := by
  simp only [handleNormalOps, handleNormalPacket]
  split_ifs
  · exact refl c
  · exact (dropInserted c).then_same rfl
  · exact (dropInserted c).then_same rfl

theorem processList (ds : List Datagram) : QueueSpan (c.processOps ds) c (ds.foldl processPacket c) := by
  induction ds generalizing c with
  | nil => exact refl c
  | cons d ds ih =>
    refine append ?_ (ih (c.processPacket d))
    simp only [processPacket]
    split_ifs
    · exact handleNormal c d _
    · exact same rfl
    · exact refl c

theorem batch (p : AdjPktInfo) : QueueSpan (c.batchOps p) c (c.processAggregatePackets p) := by
  have hack : QueueSpan (match p.ack with
      | some (ackNum, window) => if c.state ≠ .timeWait then c.handleACKOps ackNum window else []
      | none => []) c (c.processACK p.ack) := by
    simp only [processACK]
    cases p.ack with
    | none => exact refl c
    | some aw =>
      dsimp only
      split_ifs
      · exact handleACK c _ _
      · exact refl c
  rw [processAggregatePackets]
  refine hack.append ?_
  generalize c.processACK p.ack = c₁
  simp only [processData]
  split_ifs
  · refine (processList c₁ p.pkts).then_same ?_
    simp only [noteReadable, ackBatch]
    split_ifs <;> rfl
  · exact (processList c₁ p.pkts).then_same rfl
  · exact processList c₁ _
  · exact (processList c₁ _).then_same rfl

/-! ### The other packets -/

theorem freeFirst : QueueSpan [.free 0] c c.freeFirst := by
  simp only [DtpContext.freeFirst]
  cases hq : c.packetQ with
  | nil =>
    rw [QueueSpan, hq]
    exact (congrArg List.length hq).symm
  | cons p q =>
    rw [QueueSpan, hq]
    rfl

theorem packetQ_enterTimeWait :
    c.enterTimeWait.packetQ = (if c.state = .finWait1 then c.freeFirst else c).packetQ := by
  rw [enterTimeWait, packetQ_dtpCloseContext]

theorem acceptFIN : QueueSpan c.acceptFINOps c c.acceptFIN := by
  have hnoted : c.dtpSendACKPacket.noteFIN.packetQ = c.packetQ := rfl
  have hstate : c.dtpSendACKPacket.noteFIN.state = if c.state = .established then .closeWait else c.state := rfl
  simp only [DtpContext.acceptFIN, acceptFINOps]
  generalize c.dtpSendACKPacket.noteFIN = c₁ at hnoted hstate
  by_cases hs : c.state = .finWait1
  · have hs₁ : c₁.state = .finWait1 := by
      rw [hstate, hs]
      rfl
    have hwait : c₁.inFinWait = true := by simp [inFinWait, hs₁]
    have hfree := (freeFirst c₁).of_same (congrArg List.length hnoted)
    rw [if_pos hs, if_neg (by simp [hs₁]), if_pos hwait]
    refine hfree.then_same ?_
    rw [packetQ_enterTimeWait, if_pos hs₁]
  · have hs₁ : c₁.state ≠ .finWait1 := by
      rw [hstate]
      split_ifs
      · decide
      · exact hs
    rw [if_neg hs]
    split_ifs
    · exact same (congrArg List.length hnoted)
    · refine same ?_
      rw [packetQ_enterTimeWait, if_neg hs₁, hnoted]
    · exact same (congrArg List.length hnoted)

theorem handleFIN (h : DtpHdr) : QueueSpan (c.handleFINOps h) c (c.handleFINPacket h) := by
  simp only [handleFINOps, handleFINPacket]
  split_ifs
  · exact refl c
  · exact refl c
  · exact acceptFIN ((c.assert c.closeCalled).assert (h.seq == c.nextByteExpected))
  · exact refl c
  · exact acceptFIN c

end

theorem chg (hmac : List UInt8 → List UInt8 → List UInt8) (c : DtpContext) (d : Datagram) (addr : SockAddr) :
    QueueSpan [.borrow] c (c.handleCHGPacket hmac d addr) := by
  simp only [handleCHGPacket]
  split_ifs <;> rfl

theorem handleAUTH (c : DtpContext) (addr : SockAddr) (rnd : UInt32) :
    QueueSpan (c.handleAUTHOps addr) c (c.handleAUTHPacket addr rnd) := by
  have hresume (x : DtpContext) : QueueSpan x.dtpSlowStart.writeAvailOps x x.resumeTransfer.dtpSendACKPacket :=
    (writeAvail x.dtpSlowStart).then_same rfl
  simp only [handleAUTHOps, handleAUTHPacket, flushAUTH]
  by_cases haddr : c.peerAddr = addr
  · simp only [haddr, ne_eq, not_true_eq_false, if_false]
    cases hins : c.isACKInserted with
    | false => exact hresume c
    | true =>
      cases hq : c.packetQ with
      | nil => exact hresume c
      | cons p q =>
        cases hbit : p.castAckBit with
        | false =>
          simp only [if_true, hbit, Bool.not_false]
          exact refl c
        | true =>
          simp only [if_true, hbit, Bool.not_true, Bool.false_eq_true, if_false]
          have hdrop : QueueSpan [.free 0] c { c with packetQ := q, isACKInserted := false } := by
            rw [QueueSpan, hq]
            rfl
          exact hdrop.append (hresume _)
  · simp only [haddr, ne_eq, not_false_eq_true, if_true]
    rfl

theorem handleRST (c : DtpContext) (d : Datagram) (hid : List UInt8) (fid : UInt32) :
    QueueSpan (c.handleRSTOps d hid fid) c (match c.handleRSTPacket d hid fid with
      | .ok r => r
      | .error _ => c) := by
  simp only [handleRSTOps, handleRSTPacket]
  cases hopt : dtpGetOption d hid none with
  | error err => exact refl c
  | ok r =>
    simp only [bind, Except.bind, pure, Except.pure]
    split_ifs
    · exact refl c
    · simp only [flushRetry, retryConnect]
      cases hq : c.packetQ with
      | nil =>
        rw [QueueSpan, hq]
        exact (congrArg List.length hq).symm
      | cons p q =>
        have hdrop : QueueSpan [.free 0] c { c with
            packetQ := q, flowID := fid, lastByteSent := c.lastByteSent - u32 p.payloadLen, segSent := 0 } := by
          rw [QueueSpan, hq]
          rfl
        exact hdrop.append (writeAvail _)
    · exact same rfl
    · simp only [dropLastAck]
      cases hq : c.packetQ with
      | nil =>
        rw [QueueSpan, hq]
        exact (congrArg List.length hq).symm
      | cons p q =>
        rw [QueueSpan, hq]
        rfl
    · exact refl c

/-! ### The timer -/

theorem timeoutLoop (env : TimerEnv) (i : ℕ) {kept rest : List DtpPkt} {c : DtpContext} (hq : c.packetQ = kept ++ rest) :
    QueueSpan (timeoutLoopOps env i kept rest c) c (DtpContext.timeoutLoop env i kept rest c).1 := by
  induction rest generalizing i kept c with
  | nil => exact refl c
  | cons p q ih =>
    have hprune : QueueSpan [.free kept.length] c (c.prunePacket p (kept ++ q)) := by
      change (if kept.length < c.packetQ.length then c.packetQ.length - 1 else c.packetQ.length) = (kept ++ q).length
      rw [hq]
      simp only [List.length_append, List.length_cons]
      split_ifs <;> omega
    simp only [timeoutLoopOps, DtpContext.timeoutLoop]
    split_ifs
    · exact hprune.append (ih (i + 1) rfl)
    · exact hprune
    · exact refl c
    · refine of_same (ih (i + 1) (by simp [setQueue])) ?_
      simp [setQueue, hq]

section
variable (c : DtpContext)

theorem packetQ_switchInterface (env : TimerEnv) : (c.switchInterface env).packetQ = c.packetQ := by
  simp only [switchInterface]
  split_ifs
  · exact Acts.packetQ_dtpReconnect _
  · rfl
  · exact Acts.packetQ_dtpReconnect _
  · rfl
  · rfl

theorem packetQ_persistProbe (env : TimerEnv) : (c.persistProbe env).packetQ = c.packetQ := by
  simp only [persistProbe]
  split_ifs <;> rfl

theorem timeoutQueue (env : TimerEnv) :
    QueueSpan (timeoutLoopOps env 0 [] c.packetQ c) c (c.timeoutQueue env) := by
  have hloop : QueueSpan (timeoutLoopOps env 0 [] c.packetQ c) c (DtpContext.timeoutLoop env 0 [] c.packetQ c).1 :=
    timeoutLoop env 0 rfl
  rw [DtpContext.timeoutQueue]
  split_ifs
  · exact hloop.then_same (congrArg List.length (packetQ_dtpCloseContext _))
  · exact hloop

theorem handleTimeout (env : TimerEnv) :
    QueueSpan (c.handleTimeoutOps env) c (c.handleTimeout env) := by
  have hqueue (x : DtpContext) (hx : x.packetQ = c.packetQ) :
      QueueSpan (timeoutLoopOps env 0 [] ((x.switchInterface env).persistProbe env).packetQ
        ((x.switchInterface env).persistProbe env)) c (((x.switchInterface env).persistProbe env).timeoutQueue env) := by
    refine (timeoutQueue _ env).of_same ?_
    rw [packetQ_persistProbe, packetQ_switchInterface, hx]
  simp only [handleTimeoutOps, DtpContext.handleTimeout]
  by_cases hwait : c.state = .timeWait
  · rw [if_pos hwait, if_pos hwait]
    split_ifs
    · exact same (congrArg List.length (packetQ_dtpCloseContext _))
    · exact refl c
  rw [if_neg hwait, if_neg hwait]
  by_cases hover : c.keepAliveDue env = true ∧ ¬c.sentProbes < c.keepAliveProbes
  · rw [if_pos hover, if_pos hover]
    exact same rfl
  rw [if_neg hover, if_neg hover]
  refine hqueue _ ?_
  split_ifs <;> rfl

/-! ### Calls -/

theorem sendBody (data : List UInt8) : QueueSpan (flushOps (c.flushSend data)) c (c.sendBody data).1 := by
  simp only [flushSend, DtpContext.sendBody]
  generalize minSize data.length c.getAvailWriteBufSize = len
  by_cases hpos : 0 < len
  · have hfull : ((c.copyBytes data len).noteFull).packetQ = c.packetQ := by
      simp only [noteFull]
      split_ifs <;> rfl
    rw [if_pos hpos, if_neg hpos.ne', if_pos hpos]
    exact (writeAvail _).of_same (congrArg List.length hfull)
  · rw [if_neg hpos, if_neg hpos]
    split_ifs <;> exact same rfl

end

theorem send (k : Crypto) (c : DtpContext) (data : List UInt8) :
    QueueSpan (flushOps ((Event.send data).flush k c)) c (c.dtpSend data).1 := by
  have hbody := sendBody c data
  simp only [Event.flush, dtpSend]
  by_cases hok : c.isActive = true ∧ data.length ≠ 0 ∧ c.state.isClosing = false ∧ c.connReset = false
  · rw [if_pos hok]
    obtain ⟨hact, hne, hclosing, hreset⟩ := hok
    simp only [hact, hne, hclosing, hreset, Bool.not_true, Bool.false_eq_true, if_false]
    exact hbody
  · rw [if_neg hok]
    split_ifs with h1 h2 h3 h4
    · exact refl c
    · exact refl c
    · exact refl c
    · exact refl c
    · exact absurd ⟨by simpa using h1, h2, by simpa using h3, by simpa using h4⟩ hok

theorem close (k : Crypto) (c : DtpContext) : QueueSpan (flushOps (Event.close.flush k c)) c c.dtpClose.1 := by
  simp only [Event.flush, dtpClose]
  by_cases hok : c.isActive = true ∧ c.state ≠ .closed ∧ c.connReset = false
  · have hcalled := writeAvail { c with closeCalled := true }
    rw [if_pos hok, if_neg (by simp [hok.1]), if_pos hok.2]
    split_ifs <;> exact hcalled
  · rw [if_neg hok]
    split_ifs with h1 h2 h3 h4
    · exact refl c
    · exact absurd ⟨by simpa using h1, h2⟩ hok
    · exact absurd ⟨by simpa using h1, h2⟩ hok
    · exact same (congrArg List.length (packetQ_dtpCloseContext _))
    · exact same rfl

theorem length_retransmitHead (c : DtpContext) : c.retransmitHead.packetQ.length = c.packetQ.length := by
  simp only [retransmitHead]
  cases hq : c.packetQ with
  | nil => rw [hq]
  | cons p q =>
    have hset := length_setHead (c := (c.dtpRetransmit p).1) (by simp [Acts.packetQ_dtpRetransmit, hq])
      (c.dtpRetransmit p).2
    rw [Acts.packetQ_dtpRetransmit, hq] at hset
    exact hset

theorem rsp (k : Crypto) (c : DtpContext) (d : Datagram) (addr : SockAddr) :
    QueueSpan (flushOps ((Event.rsp d addr).flush k c)) c (c.handleRSPPacket k.hmac d addr) := by
  simp only [Event.flush, handleRSPPacket]
  cases hv : c.validRSP k.hmac d with
  | false =>
    simp only [Bool.false_eq_true, if_false, Bool.not_false, if_true]
    split_ifs <;> exact same rfl
  | true =>
    simp only [if_true, Bool.not_true, Bool.false_eq_true, if_false]
    have hwrite := writeAvail (c.adoptAddress addr).sendAUTHPacket.dtpSlowStart
    exact hwrite.then_same (length_retransmitHead _)

theorem checkAddr (c : DtpContext) (addr : SockAddr) (rnd : UInt32) :
    QueueSpan (if c.state ≠ .synRcvd ∧ c.state ≠ .timeWait ∧ c.peerAddr ≠ addr then [.borrow] else []) c
      (c.checkAddress addr rnd) := by
  have hsame : (c.checkAddress addr rnd).packetQ.length = c.packetQ.length := by
    simp only [checkAddress]
    split_ifs <;> rfl
  split_ifs <;> exact hsame.symm

theorem synAck (k : Crypto) (c : DtpContext) (d : Datagram) (addr : SockAddr) (hid : List UInt8) :
    QueueSpan [] c ((Event.synAck d addr hid).apply k c) := by
  simp only [Event.apply]
  cases hout : c.handleSYNACKPacket k.toRsa d addr hid with
  | error err => exact refl c
  | ok r =>
    obtain ⟨-, heq⟩ | ⟨-, hid', heq⟩ | ⟨-, hid', key, scale, port, -, -, heq⟩ := handleSYNACKPacket_cases hout
    · rw [heq]
      exact same rfl
    · rw [heq]
      exact same rfl
    · rw [heq]
      exact same rfl

end QueueSpan

/-- The operations of an event account for the length of the queue. -/
theorem packetOps_span (k : Crypto) (c : DtpContext) (e : Event) : QueueSpan (e.packetOps k c) c (e.apply k c) := by
  cases e with
  | send data => exact .send k c data
  | sendWake data => exact .sendBody { c with isWriteBlocked := false } data
  | recv length msgPeek => exact .same (congrArg (fun s => s.packetQ.length) (RecvFrame.dtpRecv c length msgPeek).sendSide)
  | recvWake length msgPeek =>
    exact .same (congrArg (fun s => s.packetQ.length) (RecvFrame.dtpRecvWake c length msgPeek).sendSide)
  | close => exact .close k c
  | closeWake =>
    simp only [Event.apply, dtpCloseWake]
    split_ifs
    · exact .same (congrArg List.length (QueueSpan.packetQ_dtpCloseContext _))
    · exact .same rfl
  | batch p => exact .batch c p
  | fin h => exact .handleFIN c h
  | chg d addr => exact .chg k.hmac c d addr
  | rsp d addr => exact .rsp k c d addr
  | auth addr rnd => exact .handleAUTH c addr rnd
  | checkAddr addr rnd => exact .checkAddr c addr rnd
  | synAck d addr hid => exact .synAck k c d addr hid
  | rst d hid fid => exact .handleRST c d hid fid
  | timeout env => exact .handleTimeout c env

/-! ## Only `DTPHandleKey` loses a packet -/

section Lose
variable (c : DtpContext)

theorem lose_notMem_writeAvailOps : .lose ∉ c.writeAvailOps := by
  intro h
  cases List.eq_of_mem_replicate h

theorem lose_notMem_flushOps (c : Option DtpContext) : .lose ∉ flushOps c := by
  cases c with
  | none => exact List.not_mem_nil
  | some c => exact lose_notMem_writeAvailOps c

theorem lose_notMem_handleACKOps (a : UInt32) (w : UInt16) : .lose ∉ c.handleACKOps a w := by
  simp only [handleACKOps]
  split_ifs
  · exact List.not_mem_nil
  · exact List.not_mem_nil
  · exact lose_notMem_writeAvailOps _
  · exact List.not_mem_nil
  · rw [List.mem_append, not_or]
    refine ⟨fun h => ?_, lose_notMem_writeAvailOps _⟩
    cases List.eq_of_mem_replicate h

theorem lose_notMem_dropInsertedOps : .lose ∉ c.dropInsertedOps := by
  simp only [dropInsertedOps]
  split_ifs
  · split
    · exact List.not_mem_nil
    · split_ifs <;> simp
  · exact List.not_mem_nil

theorem lose_notMem_processOps (ds : List Datagram) : .lose ∉ c.processOps ds := by
  induction ds generalizing c with
  | nil => exact List.not_mem_nil
  | cons d ds ih =>
    rw [processOps, List.mem_append, not_or, handleNormalOps]
    refine ⟨?_, ih _⟩
    split_ifs
    · exact List.not_mem_nil
    · exact lose_notMem_dropInsertedOps c
    · exact List.not_mem_nil

theorem lose_notMem_batchOps (p : AdjPktInfo) : .lose ∉ c.batchOps p := by
  simp only [batchOps]
  rw [List.mem_append, not_or]
  constructor
  · split
    · split_ifs
      · exact lose_notMem_handleACKOps c _ _
      · exact List.not_mem_nil
    · exact List.not_mem_nil
  · split_ifs <;> exact lose_notMem_processOps _ _

theorem lose_notMem_handleFINOps (h : DtpHdr) : .lose ∉ c.handleFINOps h := by
  simp only [handleFINOps, acceptFINOps]
  split_ifs <;> simp

theorem lose_notMem_handleAUTHOps (addr : SockAddr) : .lose ∉ c.handleAUTHOps addr := by
  have hflush := lose_notMem_flushOps c.flushAUTH
  simp only [handleAUTHOps]
  split_ifs
  · simp
  · split
    · exact hflush
    · split_ifs <;> simp [hflush]
  · exact hflush

theorem lose_notMem_handleRSTOps (d : Datagram) (hid : List UInt8) (fid : UInt32) : .lose ∉ c.handleRSTOps d hid fid := by
  have hflush := lose_notMem_flushOps (c.flushRetry fid)
  simp only [handleRSTOps]
  split
  · exact List.not_mem_nil
  · split_ifs <;> simp [hflush]

theorem lose_notMem_timeoutLoopOps (env : TimerEnv) (i : ℕ) (kept rest : List DtpPkt) :
    .lose ∉ timeoutLoopOps env i kept rest c := by
  induction rest generalizing i kept c with
  | nil => exact List.not_mem_nil
  | cons p q ih =>
    simp only [timeoutLoopOps]
    split_ifs
    · simp [ih]
    · simp
    · exact List.not_mem_nil
    · exact ih _ _ _

theorem lose_notMem_packetOps (k : Crypto) (e : Event) : .lose ∉ e.packetOps k c := by
  cases e with
  | send data => exact lose_notMem_flushOps _
  | sendWake data => exact lose_notMem_flushOps _
  | close => exact lose_notMem_flushOps _
  | batch p => exact lose_notMem_batchOps c p
  | fin h => exact lose_notMem_handleFINOps c h
  | rsp d addr => exact lose_notMem_flushOps _
  | auth addr rnd => exact lose_notMem_handleAUTHOps c addr
  | checkAddr addr rnd =>
    simp only [Event.packetOps]
    split_ifs <;> simp
  | rst d hid fid => exact lose_notMem_handleRSTOps c d hid fid
  | timeout env =>
    simp only [Event.packetOps, handleTimeoutOps]
    split_ifs
    · exact List.not_mem_nil
    · exact List.not_mem_nil
    · exact lose_notMem_timeoutLoopOps _ env 0 [] _
    · exact lose_notMem_timeoutLoopOps _ env 0 [] _
  | _ => simp [Event.packetOps]

end Lose

end Cedos.Dtp
