import Mathlib.Data.List.TakeWhile
import Cedos.Dtp.Dispatch
import Cedos.Dtp.SendOrder

/-!
# Batches and single packets

`OnReadEvent` collects the data and ACK packets of a flow and handles the highest ACK number
first, with the window that came with it, and then the data. This module compares that with
one `OnReadEvent` for each packet.

The receive side goes through the same packets in the same order either way. The ACK number
and the window need not come out the same: an ACK that finds the peer's window reopened is
not recorded, and the window of an early data packet replaces the one of a later ACK.
-/

namespace Cedos.Dtp

open DtpContext

/-! ## ACK number and window -/

/-- What a batch leaves as it is: how packets reach the context and how their windows are
scaled. -/
structure Route where
  sendWindowScale : UInt8
  isNetConnected : Bool
  isActive : Bool
  connTimedOut : Bool
  peerAddr : SockAddr
  flowID : UInt32
  onFlowIDMap : Bool

def DtpContext.route (c : DtpContext) : Route where
  sendWindowScale := c.sendWindowScale
  isNetConnected := c.isNetConnected
  isActive := c.isActive
  connTimedOut := c.connTimedOut
  peerAddr := c.peerAddr
  flowID := c.flowID
  onFlowIDMap := c.onFlowIDMap

/-- The ACK number, the window and the receive side. -/
@[ext]
structure StreamState where
  acked : UInt32
  window : UInt32
  zero : Bool
  recv : RecvSide

def DtpContext.streamState (c : DtpContext) : StreamState :=
  ⟨c.lastByteAcked, c.rcvWindow, c.isHerWindowZero, c.toRecvSide⟩

/-- The receive side after a packet, whatever else is in the context. -/
def RecvSide.after (rs : RecvSide) (d : Datagram) : RecvSide :=
  (DtpContext.processPacket { toRecvSide := rs, state := .established } d).toRecvSide

/-- An old ACK number near the top of the number space is taken for a wrap-around. -/
def RecvSide.wrapped (rs : RecvSide) : RecvSide :=
  { rs with nextByteExpected := rs.nextByteExpected + 1 }

namespace StreamState

/-- The ACK is not dropped as an old one. -/
def Counts (r : Route) (v : StreamState) (ackNum : UInt32) : Prop :=
  r.isNetConnected = true ∧ (v.acked ≤ ackNum ∨ v.acked + 1472 < v.acked)

instance (r : Route) (v : StreamState) (ackNum : UInt32) : Decidable (Counts r v ackNum) :=
  inferInstanceAs (Decidable (_ ∧ _))

/-- What `HandleACKPacket` does. The number of an ACK that reopens the window is lost. -/
def ack (r : Route) (v : StreamState) (ackNum : UInt32) (window : UInt16) : StreamState :=
  let w := scaledWindow window r.sendWindowScale
  if Counts r v ackNum then
    { acked := if v.zero ∧ 0 < w then v.acked else ackNum
      window := w
      zero := w == 0
      recv := if ackNum < v.acked then v.recv.wrapped else v.recv }
  else v

/-- What the data of a packet does; a released context takes none. -/
def takeData (r : Route) (v : StreamState) (d : Datagram) : StreamState :=
  let w := scaledWindow d.hdr.windowSize r.sendWindowScale
  if hasData d && r.isActive then { v with window := w, zero := v.zero || w == 0, recv := v.recv.after d }
  else v

/-- The collected ACK of a batch. -/
def takeACK (r : Route) (v : StreamState) (o : Option (UInt32 × UInt16)) : StreamState :=
  match o with
  | none => v
  | some (a, w) => v.ack r a w

end StreamState

/-- The states of an established connection that the peer has not closed. -/
def SockState.isStreaming : SockState → Bool
  | .established | .finWait1 | .finWait2 => true
  | _ => false

theorem ne_of_streaming {s : SockState} (hs : s.isStreaming = true) :
    s ≠ .synSent ∧ s ≠ .synRcvd ∧ s ≠ .timeWait ∧ s ≠ .lastAck := by
  cases s <;> simp_all [SockState.isStreaming]

/-- A step that has nothing to do with received data, the ACK number or the window. -/
structure Aside (c c' : DtpContext) : Prop where
  stream : c'.streamState = c.streamState
  route : c'.route = c.route
  streaming : c.state.isStreaming = true → c'.state.isStreaming = true

namespace Aside
variable {c c' c'' : DtpContext}

theorem same (h0 : c'.streamState = c.streamState) (h1 : c'.route = c.route) (h2 : c'.state = c.state) :
    Aside c c' where
  stream := h0
  route := h1
  streaming h := by rwa [h2]

theorem refl (c : DtpContext) : Aside c c := same rfl rfl rfl

theorem trans (h : Aside c c') (h' : Aside c' c'') : Aside c c'' where
  stream := h'.stream.trans h.stream
  route := h'.route.trans h.route
  streaming ho := h'.streaming (h.streaming ho)

section
variable (c : DtpContext)

theorem dtpSendFINPacket : Aside c c.dtpSendFINPacket where
  stream := rfl
  route := rfl
  streaming h := by
    change (DtpContext.finState c.state).isStreaming = true
    cases hs : c.state <;> simp [hs, SockState.isStreaming, DtpContext.finState] at h ⊢

theorem dtpWriteAvail : Aside c c.dtpWriteAvail :=
  dtpWriteAvail_induction (P := Aside c) (fun _ h => h.trans (same rfl rfl rfl))
    (fun _ _ _ h => h.trans (same rfl rfl rfl)) (fun _ h => h.trans (dtpSendFINPacket _)) (refl c)

theorem dtpWriteBufWakeup : Aside c c.dtpWriteBufWakeup := same rfl rfl rfl

theorem dtpSendACKPacket : Aside c c.dtpSendACKPacket := same rfl rfl rfl

theorem assert (b : Bool) : Aside c (c.assert b) := same rfl rfl rfl

end

theorem dtpRetransmit (hnet : c.isNetConnected = true) (p : DtpPkt) : Aside c (c.dtpRetransmit p).1 := by
  rw [dtpRetransmit_eq hnet]
  exact same rfl rfl rfl

theorem handleDuplicateACK (hnet : c.isNetConnected = true) (ackNum : UInt32) :
    Aside c (c.handleDuplicateACK ackNum) := by
  simp only [DtpContext.handleDuplicateACK]
  split
  · exact refl c
  · rename_i p q _
    have hchecked := (assert c (decide (p.seqNum ≤ ackNum))).trans
      (assert _ (decide (ackNum ≤ p.seqNum + u32 p.payloadLen)))
    have hnet' : ((c.assert (decide (p.seqNum ≤ ackNum))).assert
        (decide (ackNum ≤ p.seqNum + u32 p.payloadLen))).isNetConnected = true := hnet
    generalize (c.assert (decide (p.seqNum ≤ ackNum))).assert
      (decide (ackNum ≤ p.seqNum + u32 p.payloadLen)) = x at hchecked hnet' ⊢
    have hsent := hchecked.trans (dtpRetransmit hnet' p)
    generalize x.dtpRetransmit p = r at hsent ⊢
    exact hsent.trans (same rfl rfl rfl)

theorem finishACK (hs : c.state.isStreaming = true) (ackNum : UInt32) : Aside c (c.finishACK ackNum) := by
  simp only [DtpContext.finishACK, ne_of_streaming hs, if_false]
  split_ifs
  · exact ⟨rfl, rfl, fun _ => rfl⟩
  · exact refl c

theorem creditACK (hs : c.state.isStreaming = true) (n : ℤ) : Aside c (c.creditACK n) := by
  simp only [DtpContext.creditACK, DtpContext.establish, ne_of_streaming hs, if_false]
  split_ifs
  · exact same rfl rfl rfl
  · exact refl c

end Aside

section Handlers
variable {c : DtpContext}

theorem recordACK_aside (hs : c.state.isStreaming = true) (ackNum : UInt32) :
    Aside { c with lastByteAcked := ackNum } (c.recordACK ackNum) := by
  have hcut : Aside { c with lastByteAcked := ackNum } ((c.shiftAcked ackNum).removePacket ackNum) :=
    Aside.same rfl rfl rfl
  exact hcut.trans (Aside.creditACK (hcut.streaming hs) _)

theorem noteACK_spec (c : DtpContext) (ackNum : UInt32) (window : UInt16) :
    ((c.noteWrap ackNum).noteAckWindow window).streamState = ⟨c.lastByteAcked, scaledWindow window c.sendWindowScale,
        c.isHerWindowZero || scaledWindow window c.sendWindowScale == 0,
        if ackNum < c.lastByteAcked then c.toRecvSide.wrapped else c.toRecvSide⟩ ∧
      ((c.noteWrap ackNum).noteAckWindow window).route = c.route ∧
      ((c.noteWrap ackNum).noteAckWindow window).state = c.state := by
  simp only [noteWrap]
  split_ifs <;> exact ⟨rfl, rfl, rfl⟩

theorem countDuplicate_aside (c : DtpContext) (ackNum : UInt32) : Aside c (c.countDuplicate ackNum) := by
  simp only [countDuplicate]
  split_ifs
  · exact Aside.same rfl rfl rfl
  · exact Aside.refl c

/-- An ACK is dropped as an old one or counts. -/
theorem counts_iff (hnet : c.isNetConnected = true) {ackNum : UInt32} :
    StreamState.Counts c.route c.streamState ackNum ↔
      ¬(ackNum < c.lastByteAcked ∧ ¬c.lastByteAcked + 1472 < c.lastByteAcked) := by
  rw [not_and_not_right, ← UInt32.not_le, ← or_iff_not_imp_left]
  exact and_iff_right hnet

/-- A window that was zero and is not stays flagged until the flag is cleared. -/
theorem zero_flag {b z : Bool} {w : UInt32} (hz : z = (b || w == 0)) :
    (b = true ∧ 0 < w ↔ z = true ∧ 0 < w) ∧ (¬(z = true ∧ 0 < w) → z = (w == 0)) := by
  subst hz
  by_cases hw : w = 0
  · simp [hw]
  · simp [hw, UInt32.pos_iff_ne_zero.mpr hw]

/-- `HandleACKPacket`, as far as the stream goes. -/
theorem handleACKPacket_spec (hs : c.state.isStreaming = true) (ackNum : UInt32) (window : UInt16) :
    (c.handleACKPacket ackNum window).streamState = c.streamState.ack c.route ackNum window ∧
    (c.handleACKPacket ackNum window).route = c.route ∧
    (c.handleACKPacket ackNum window).state.isStreaming = true := by
  by_cases hnet : c.isNetConnected = true
  swap
  · simp [handleACKPacket, StreamState.ack, StreamState.Counts, route, hnet, hs]
  by_cases hold : ackNum < c.lastByteAcked ∧ ¬c.lastByteAcked + 1472 < c.lastByteAcked
  · simp [handleACKPacket, StreamState.ack, counts_iff hnet, hold, hs]
  obtain ⟨hstream, hroute, hstate⟩ := noteACK_spec c ackNum window
  have hs₁ : ((c.noteWrap ackNum).noteAckWindow window).state.isStreaming = true := by rwa [hstate]
  simp only [StreamState.ack, if_pos ((counts_iff hnet).mpr hold)]
  simp only [handleACKPacket, hnet, hold, Bool.not_true, Bool.false_eq_true, if_false]
  generalize (c.noteWrap ackNum).noteAckWindow window = c₁ at *
  have hnet₁ : c₁.isNetConnected = true := (congrArg Route.isNetConnected hroute).trans hnet
  obtain ⟨hacked, hwin, hzero, hrecv⟩ := StreamState.mk.inj hstream
  change _ = StreamState.mk (if c.isHerWindowZero = true ∧ 0 < scaledWindow window c.sendWindowScale then
    c.lastByteAcked else ackNum) (scaledWindow window c.sendWindowScale)
    (scaledWindow window c.sendWindowScale == 0)
    (if ackNum < c.lastByteAcked then c.toRecvSide.wrapped else c.toRecvSide) ∧ _
  rw [← hwin] at hzero
  obtain ⟨hopens, hflag⟩ := zero_flag hzero
  rw [← hrecv, ← hacked, ← hwin, if_congr hopens rfl rfl]
  split_ifs with hopen hdup
  · -- the window is open again, and the call returns
    have hside : Aside c₁.clearHerWindowZero c₁.clearHerWindowZero.dtpWriteAvail.dtpWriteBufWakeup :=
      (Aside.dtpWriteAvail _).trans (Aside.dtpWriteBufWakeup _)
    have hne : false = (c₁.rcvWindow == 0) := by simpa using UInt32.pos_iff_ne_zero.mp hopen.2
    refine ⟨hside.stream.trans ?_, hside.route.trans hroute, hside.streaming hs₁⟩
    rw [← hne]
    rfl
  · -- the fourth ACK with the same number
    have hcount := countDuplicate_aside c₁ ackNum
    have hside : Aside c₁ ((c₁.countDuplicate ackNum).handleDuplicateACK ackNum) :=
      hcount.trans (Aside.handleDuplicateACK ((congrArg Route.isNetConnected hcount.route).trans hnet₁) ackNum)
    have heq : ackNum = c₁.lastByteAcked := hdup.1.trans (congrArg StreamState.acked hcount.stream)
    refine ⟨hside.stream.trans ?_, hside.route.trans hroute, hside.streaming hs₁⟩
    rw [heq, ← hflag hopen]
    rfl
  · have hcount := countDuplicate_aside c₁ ackNum
    have hrecord := recordACK_aside (hcount.streaming hs₁) ackNum
    have hsent := (Aside.dtpWriteAvail ((c₁.countDuplicate ackNum).recordACK ackNum)).trans
      (Aside.dtpWriteBufWakeup _)
    have hside := (hrecord.trans hsent).trans
      (Aside.finishACK (hsent.streaming (hrecord.streaming (hcount.streaming hs₁))) ackNum)
    refine ⟨hside.stream.trans ?_, hside.route.trans (hcount.route.trans hroute),
      hside.streaming (hcount.streaming hs₁)⟩
    obtain ⟨-, hw, hz, hr⟩ := StreamState.mk.inj hcount.stream
    rw [← hflag hopen]
    exact StreamState.ext rfl hw hz hr

end Handlers

/-! ## Data -/

section Data
variable {c c' : DtpContext}

theorem segmentLen_congr (h : c.toRecvSide = c'.toRecvSide) (seq bodyLen : UInt32) :
    c.segmentLen seq bodyLen = c'.segmentLen seq bodyLen := by
  simp only [segmentLen, segmentEnd, segmentStart, h]

theorem storeSegment_congr (h : c.toRecvSide = c'.toRecvSide) (d : Datagram) (bodyLen : UInt32) :
    (c.storeSegment d bodyLen).1.toRecvSide = (c'.storeSegment d bodyLen).1.toRecvSide := by
  cases c
  cases c'
  cases h
  rfl

/-- What `HandleNormalPacket` does before it looks at the bytes. -/
theorem noteSegment_spec (c : DtpContext) (h : DtpHdr) :
    (c.dropInsertedACK.noteSegment h).streamState = { c.streamState with
        window := scaledWindow h.windowSize c.sendWindowScale
        zero := c.isHerWindowZero || scaledWindow h.windowSize c.sendWindowScale == 0 } ∧
      (c.dropInsertedACK.noteSegment h).route = c.route ∧ (c.dropInsertedACK.noteSegment h).state = c.state := by
  rcases dropInsertedACK_cases c with heq | heq | ⟨p, q, -, heq⟩
  · rw [heq]
    exact ⟨rfl, rfl, rfl⟩
  · rw [heq]
    exact ⟨rfl, rfl, rfl⟩
  · rw [heq]
    exact ⟨rfl, rfl, rfl⟩

/-- Two contexts with the same receive side. -/
theorem handleNormalPacket_congr (c c' : DtpContext) (h : c.toRecvSide = c'.toRecvSide)
    (hs : c.state.isStreaming = true) (hs' : c'.state.isStreaming = true) (d : Datagram) (bodyLen : UInt32) :
    (c.handleNormalPacket d bodyLen).1.toRecvSide = (c'.handleNormalPacket d bodyLen).1.toRecvSide := by
  have hnote : (c.dropInsertedACK.noteSegment d.hdr).toRecvSide = (c'.dropInsertedACK.noteSegment d.hdr).toRecvSide :=
    (congrArg StreamState.recv (noteSegment_spec c d.hdr).1).trans
      (h.trans (congrArg StreamState.recv (noteSegment_spec c' d.hdr).1).symm)
  simp only [handleNormalPacket, ne_of_streaming hs, ne_of_streaming hs', false_or]
  by_cases hsyn : d.hdr.syn = true
  · simpa [hsyn] using h
  · simp only [hsyn, Bool.false_eq_true, if_false]
    generalize c.dropInsertedACK.noteSegment d.hdr = c₁ at hnote
    generalize c'.dropInsertedACK.noteSegment d.hdr = c₁' at hnote
    rw [segmentLen_congr hnote]
    split_ifs
    · exact storeSegment_congr hnote d bodyLen
    · exact hnote

theorem handleNormalPacket_spec (hs : c.state.isStreaming = true) {d : Datagram} (hsyn : d.hdr.syn = false)
    (bodyLen : UInt32) : (c.handleNormalPacket d bodyLen).1.streamState = { c.streamState with
        window := scaledWindow d.hdr.windowSize c.sendWindowScale
        zero := c.isHerWindowZero || scaledWindow d.hdr.windowSize c.sendWindowScale == 0
        recv := (c.handleNormalPacket d bodyLen).1.toRecvSide } ∧
      (c.handleNormalPacket d bodyLen).1.route = c.route ∧ (c.handleNormalPacket d bodyLen).1.state = c.state := by
  obtain ⟨hstream, hroute, hst⟩ := noteSegment_spec c d.hdr
  obtain ⟨hacked, hwin, hzero, -⟩ := StreamState.mk.inj hstream
  simp only [handleNormalPacket, ne_of_streaming hs, hsyn, Bool.false_eq_true, or_self, if_false]
  generalize c.dropInsertedACK.noteSegment d.hdr = c₁ at hacked hwin hzero hroute hst
  split_ifs
  · exact ⟨StreamState.ext hacked hwin hzero rfl, hroute, hst⟩
  · exact ⟨StreamState.ext hacked hwin hzero rfl, hroute, hst⟩

theorem processPacket_spec (hs : c.state.isStreaming = true) (hact : c.isActive = true) {d : Datagram}
    (hsyn : d.hdr.syn = false) : (c.processPacket d).streamState = c.streamState.takeData c.route d ∧
      (c.processPacket d).route = c.route ∧ (c.processPacket d).state = c.state := by
  have hactive : c.route.isActive = true := hact
  simp only [StreamState.takeData, hactive, Bool.and_true]
  by_cases hd : 0 < getPayloadLen d
  · obtain ⟨hstream, hroute, hst⟩ := handleNormalPacket_spec hs hsyn (u32 (getPayloadLen d))
    have hrecv := handleNormalPacket_congr c { toRecvSide := c.toRecvSide, state := .established } rfl hs
      rfl d (u32 (getPayloadLen d))
    have hafter : c.toRecvSide.after d = _ := congrArg DtpContext.toRecvSide (if_pos hd)
    simp only [processPacket, hasData, hd, decide_true, if_true]
    rw [hrecv, ← hafter] at hstream
    exact ⟨hstream, hroute, hst⟩
  · simp only [processPacket, hasData, hd, decide_false, Bool.false_eq_true, if_false]
    split_ifs
    · exact ⟨rfl, rfl, rfl⟩
    · exact ⟨rfl, rfl, rfl⟩

/-- What the data of a batch does. -/
structure Received (c c' : DtpContext) (v : StreamState) (ds : List Datagram) : Prop where
  stream : c'.streamState = ds.foldl (StreamState.takeData c.route) v
  route : c'.route = c.route
  streaming : c'.state.isStreaming = true

theorem Received.aside {c₁ : DtpContext} {v : StreamState} {ds : List Datagram}
    (h : Received c c₁ v ds) (ha : Aside c₁ c') : Received c c' v ds where
  stream := ha.stream.trans h.stream
  route := ha.route.trans h.route
  streaming := ha.streaming h.streaming

theorem received_foldl {ds : List Datagram} (hs : c.state.isStreaming = true)
    (hact : c.isActive = true) (hsyn : ∀ d ∈ ds, d.hdr.syn = false) :
    Received c (ds.foldl processPacket c) c.streamState ds := by
  induction ds generalizing c with
  | nil => exact ⟨rfl, rfl, hs⟩
  | cons d ds ih =>
    obtain ⟨hstream, hroute, hst⟩ := processPacket_spec hs hact (hsyn d (by simp))
    have hs₁ : (c.processPacket d).state.isStreaming = true := by rwa [hst]
    have hact₁ : (c.processPacket d).isActive = true := (congrArg Route.isActive hroute).trans hact
    have hrest := ih hs₁ hact₁ fun e he => hsyn e (by simp [he])
    refine ⟨?_, hrest.route.trans hroute, hrest.streaming⟩
    rw [List.foldl_cons, hrest.stream, hroute, hstream, List.foldl_cons]

/-- Without data only probes are answered. -/
theorem aside_foldl {ds : List Datagram} (hds : ∀ d ∈ ds, hasData d = false) :
    Aside c (ds.foldl processPacket c) := by
  induction ds generalizing c with
  | nil => exact Aside.refl c
  | cons d ds ih =>
    have hone : Aside c (c.processPacket d) := by
      have hd := hds d (by simp)
      simp only [hasData, decide_eq_false_iff_not] at hd
      simp only [processPacket, hd, if_false]
      split_ifs
      · exact Aside.dtpSendACKPacket c
      · exact Aside.refl c
    exact hone.trans (ih fun e he => hds e (by simp [he]))

theorem ackBatch_aside (c : DtpContext) : Aside c c.ackBatch := by
  simp only [ackBatch]
  split_ifs
  · exact Aside.same rfl rfl rfl
  · exact Aside.dtpSendACKPacket c
  · exact Aside.refl c

theorem noteReadable_aside (c : DtpContext) : Aside c c.noteReadable := by
  simp only [noteReadable]
  split_ifs
  · exact Aside.same rfl rfl rfl
  · exact Aside.refl c

theorem clearProbes_aside (c : DtpContext) : Aside c c.clearProbes := Aside.same rfl rfl rfl

theorem received_processData {ds : List Datagram} (hs : c.state.isStreaming = true)
    (hsyn : ∀ d ∈ ds, d.hdr.syn = false) : Received c (c.processData ds) c.streamState ds := by
  by_cases hact : c.isActive = true
  · have hloop := (received_foldl hs hact hsyn).aside (clearProbes_aside _)
    simp only [processData, hact, if_true]
    split_ifs
    · exact (hloop.aside (ackBatch_aside _)).aside (noteReadable_aside _)
    · exact hloop
  · have hnone : Received c c c.streamState ds := by
      have hact' : c.route.isActive = false := Bool.eq_false_iff.mpr hact
      refine ⟨?_, rfl, hs⟩
      induction ds with
      | nil => rfl
      | cons d ds ih => simpa [StreamState.takeData, hact'] using ih fun e he => hsyn e (by simp [he])
    have hprobes : Aside c ((ds.takeWhile fun d => !hasData d).foldl processPacket c) := by
      refine aside_foldl fun d hd => ?_
      simpa using List.mem_takeWhile_imp hd
    simp only [processData, hact, Bool.false_eq_true, if_false]
    split_ifs
    · exact hnone.aside hprobes
    · exact hnone.aside (hprobes.trans (clearProbes_aside _))

/-- A whole batch. -/
theorem received_processAggregatePackets {p : AdjPktInfo} (hs : c.state.isStreaming = true)
    (hsyn : ∀ d ∈ p.pkts, d.hdr.syn = false) :
    Received c (c.processAggregatePackets p) (c.streamState.takeACK c.route p.ack) p.pkts := by
  rw [processAggregatePackets]
  cases hack : p.ack with
  | none => exact received_processData hs hsyn
  | some x =>
    obtain ⟨h0, h1, h2⟩ := handleACKPacket_spec hs x.1 x.2
    have hdata := received_processData h2 hsyn
    simp only [processACK, ne_of_streaming hs, ne_eq, not_false_eq_true, if_true, StreamState.takeACK]
    refine ⟨?_, hdata.route.trans h1, hdata.streaming⟩
    rw [hdata.stream, h1, h0]

end Data

/-! ## Both orders -/

/-- The highest ACK number of a batch, with its window. -/
def highestACK (ds : List Datagram) : Option (UInt32 × UInt16) := (ds.foldl AdjPktInfo.add ⟨none, []⟩).ack

/-- The collected ACK is that of a packet. -/
theorem collected_mem {ds : List Datagram} {a : UInt32} {w : UInt16}
    (h : highestACK ds = some (a, w)) :
    ∃ d ∈ ds, d.hdr.ack = true ∧ d.hdr.ackSeq = a ∧ d.hdr.windowSize = w := by
  induction ds using List.reverseRecOn with
  | nil => simp [highestACK] at h
  | append_singleton ds d ih =>
    have hold (h : highestACK ds = some (a, w)) :
        ∃ e ∈ ds ++ [d], e.hdr.ack = true ∧ e.hdr.ackSeq = a ∧ e.hdr.windowSize = w := by
      obtain ⟨e, he, hx⟩ := ih h
      exact ⟨e, by simp [he], hx⟩
    simp only [highestACK, List.foldl_append, List.foldl_cons, List.foldl_nil, AdjPktInfo.add] at h hold
    generalize (ds.foldl AdjPktInfo.add ⟨none, []⟩).ack = o at h hold
    by_cases hack : d.hdr.ack = true
    · have hnew (h : (d.hdr.ackSeq, d.hdr.windowSize) = (a, w)) :
          ∃ e ∈ ds ++ [d], e.hdr.ack = true ∧ e.hdr.ackSeq = a ∧ e.hdr.windowSize = w := by
        simp only [Prod.mk.injEq] at h
        exact ⟨d, by simp, hack, h⟩
      simp only [hack, if_true] at h
      cases o with
      | none => exact hnew (Option.some.inj h)
      | some x =>
        simp only at h
        split_ifs at h
        · exact hnew (Option.some.inj h)
        · exact hold h
    · simp only [hack, Bool.false_eq_true, if_false] at h
      exact hold h

namespace StreamState
variable {r : Route} {v : StreamState} {ds : List Datagram}

def ackOf (r : Route) (v : StreamState) (d : Datagram) : StreamState :=
  if d.hdr.ack then v.ack r d.hdr.ackSeq d.hdr.windowSize else v

/-- One packet: its ACK, and then its data. -/
def single (r : Route) (v : StreamState) (d : Datagram) : StreamState := (ackOf r v d).takeData r d

/-- Whether the data of a packet is taken. -/
def brings (r : Route) (d : Datagram) : Bool := hasData d && r.isActive

def withData (r : Route) (ds : List Datagram) : List Datagram := ds.filter (brings r)

/-- The windows of these packets. -/
def windows (r : Route) (ds : List Datagram) : List UInt32 :=
  (withData r ds).map fun d => scaledWindow d.hdr.windowSize r.sendWindowScale

/-- A batch: the highest ACK, then the last window of the data, which any of them can close, and all the data. -/
def whole (r : Route) (v : StreamState) (ds : List Datagram) : StreamState :=
  let v := v.takeACK r (highestACK ds)
  ⟨v.acked, (windows r ds).getLastD v.window, v.zero || (windows r ds).any (· == 0),
    (withData r ds).foldl RecvSide.after v.recv⟩

theorem foldl_takeData (v : StreamState) (ds : List Datagram) : ds.foldl (takeData r) v =
    ⟨v.acked, (windows r ds).getLastD v.window, v.zero || (windows r ds).any (· == 0),
      (withData r ds).foldl RecvSide.after v.recv⟩ := by
  induction ds generalizing v with
  | nil => simp [windows, withData]
  | cons d ds ih =>
    rw [List.foldl_cons, ih, takeData]
    split_ifs with hd
    · have hall : withData r (d :: ds) = d :: withData r ds := List.filter_cons_of_pos hd
      have hwin : windows r (d :: ds) = scaledWindow d.hdr.windowSize r.sendWindowScale :: windows r ds :=
        congrArg _ hall
      rw [hwin, hall, List.getLastD_cons, List.any_cons, ← Bool.or_assoc, List.foldl_cons]
    · have hnone : withData r (d :: ds) = withData r ds := List.filter_cons_of_neg hd
      have hwin : windows r (d :: ds) = windows r ds := by rw [windows, hnone, windows]
      rw [hwin, hnone]

/-- What is compared of the stream. -/
structure Same (v v' : StreamState) : Prop where
  acked : v.acked = v'.acked
  window : v.window = v'.window
  zero : v.zero = v'.zero
  expected : v.recv.nextByteExpected = v'.recv.nextByteExpected
  head : v.recv.readBufHead = v'.recv.readBufHead
  buf : v.recv.readBuf = v'.recv.readBuf

/-! ### Windows that are not zero -/

/-- The ACK number is far from wrapping around, and the peer has room. -/
structure Calm (v : StreamState) : Prop where
  room : v.zero = false
  nowrap : ¬v.acked + 1472 < v.acked

/-- The same for a packet. -/
structure Mild (r : Route) (d : Datagram) : Prop where
  room : 0 < scaledWindow d.hdr.windowSize r.sendWindowScale
  nowrap : d.hdr.ack = true → ¬d.hdr.ackSeq + 1472 < d.hdr.ackSeq

/-- The highest ACK number after the last data has the window of that data, unless a higher
number came before. -/
def KeepsWindow (r : Route) (v : StreamState) (ds : List Datagram) : Prop :=
  ∀ xs d ys, ds = xs ++ d :: ys → brings r d = true → withData r ys = [] →
    ∀ a w, highestACK ys = some (a, w) → r.isNetConnected = true →
      (v.takeACK r (highestACK (xs ++ [d]))).acked ≤ a →
        scaledWindow w r.sendWindowScale = scaledWindow d.hdr.windowSize r.sendWindowScale

theorem ack_calm (hv : v.Calm) {a : UInt32} {w : UInt16}
    (hw : 0 < scaledWindow w r.sendWindowScale) : v.ack r a w =
      if r.isNetConnected = true ∧ v.acked ≤ a
      then { v with acked := a, window := scaledWindow w r.sendWindowScale } else v := by
  have hne : (scaledWindow w r.sendWindowScale == 0) = false := by
    simpa using (UInt32.pos_iff_ne_zero.mp hw)
  by_cases hnet : r.isNetConnected = true
  · by_cases ha : v.acked ≤ a
    · have hlt : ¬a < v.acked := UInt32.not_lt.mpr ha
      simp [ack, Counts, hnet, hlt, hv.room, hne, ha]
    · simp [ack, Counts, hnet, hv.nowrap, ha]
  · simp [ack, Counts, hnet]

theorem takeData_calm {d : Datagram} (hd : Mild r d) (hb : brings r d = true) : v.takeData r d =
    { v with window := scaledWindow d.hdr.windowSize r.sendWindowScale, recv := v.recv.after d } := by
  have hne : (scaledWindow d.hdr.windowSize r.sendWindowScale == 0) = false := by
    simpa using (UInt32.pos_iff_ne_zero.mp hd.room)
  simp only [takeData, if_pos (show (hasData d && r.isActive) = true from hb), hne, Bool.or_false]

theorem takeData_of_not_brings {d : Datagram} (hb : brings r d = false) : v.takeData r d = v :=
  if_neg (by simpa [brings] using hb)

theorem acked_takeData (d : Datagram) : (v.takeData r d).acked = v.acked := by
  simp only [takeData]
  split_ifs <;> rfl

theorem ackOf_calm (hv : v.Calm) {d : Datagram} (hd : Mild r d) : ackOf r v d =
    if d.hdr.ack = true ∧ r.isNetConnected = true ∧ v.acked ≤ d.hdr.ackSeq
    then { v with acked := d.hdr.ackSeq, window := scaledWindow d.hdr.windowSize r.sendWindowScale } else v := by
  by_cases hack : d.hdr.ack = true
  · simp only [ackOf, hack, if_true, ack_calm hv hd.room, true_and]
  · simp [ackOf, hack]

theorem recv_ackOf (hv : v.Calm) {d : Datagram} (hd : Mild r d) : (ackOf r v d).recv = v.recv := by
  rw [ackOf_calm hv hd]
  split_ifs <;> rfl

theorem Calm.ackOf (hv : v.Calm) {d : Datagram} (hd : Mild r d) : (ackOf r v d).Calm := by
  rw [ackOf_calm hv hd]
  split_ifs with h
  · exact ⟨hv.room, hd.nowrap h.1⟩
  · exact hv

theorem Calm.single (hv : v.Calm) {d : Datagram} (hd : Mild r d) : (single r v d).Calm := by
  rw [StreamState.single]
  cases hb : brings r d with
  | false => exact takeData_of_not_brings hb ▸ hv.ackOf hd
  | true => exact takeData_calm hd hb ▸ ⟨(hv.ackOf hd).room, (hv.ackOf hd).nowrap⟩

theorem Calm.foldl {f : StreamState → Datagram → StreamState} (hv : v.Calm) (hds : ∀ d ∈ ds, Mild r d)
    (hf : ∀ v d, v.Calm → Mild r d → (f v d).Calm) : (ds.foldl f v).Calm := by
  induction ds generalizing v with
  | nil => exact hv
  | cons d ds ih => exact ih (hf v d hv (hds d (by simp))) fun e he => hds e (by simp [he])

/-- The collected ACK does what the ACKs do one by one. -/
theorem takeACK_collected (hv : v.Calm) (hds : ∀ d ∈ ds, Mild r d) :
    v.takeACK r (highestACK ds) = ds.foldl (ackOf r) v := by
  induction ds using List.reverseRecOn with
  | nil => rfl
  | append_singleton ds d ih =>
    have hd : Mild r d := hds d (by simp)
    have ih := ih fun e he => hds e (by simp [he])
    have hcalm : (ds.foldl (ackOf r) v).Calm :=
      hv.foldl (fun e he => hds e (by simp [he])) fun v e hv he => hv.ackOf he
    simp only [highestACK, List.foldl_append, List.foldl_cons, List.foldl_nil, AdjPktInfo.add]
    rw [ackOf]
    by_cases hack : d.hdr.ack = true
    · simp only [hack, if_true]
      cases ho : (ds.foldl AdjPktInfo.add ⟨none, []⟩).ack with
      | none =>
        rw [highestACK, ho, takeACK] at ih
        simp only [takeACK, ← ih]
      | some x =>
        obtain ⟨e, he, -, ha, hw⟩ := collected_mem (a := x.1) (w := x.2) ho
        have hroom : 0 < scaledWindow x.2 r.sendWindowScale := by
          rw [← hw]
          exact (hds e (by simp [he])).room
        rw [highestACK, ho, takeACK, ack_calm hv hroom] at ih
        rw [← ih] at hcalm
        simp only [← ih]
        rw [ack_calm hcalm hd.room]
        split_ifs with hle htake htake <;>
          simp only [takeACK, ack_calm hv hd.room, ack_calm hv hroom] <;> grind
    · simp only [hack, Bool.false_eq_true, if_false]
      exact ih

/-- The data in between changes neither the ACK numbers nor what is received. -/
theorem foldl_single_calm (hv : v.Calm) (hds : ∀ d ∈ ds, Mild r d) :
    (ds.foldl (single r) v).acked = (ds.foldl (ackOf r) v).acked ∧
      (ds.foldl (single r) v).recv = (withData r ds).foldl RecvSide.after v.recv ∧
      (ds.foldl (ackOf r) v).recv = v.recv := by
  induction ds using List.reverseRecOn with
  | nil => exact ⟨rfl, rfl, rfl⟩
  | append_singleton ds d ih =>
    have hd : Mild r d := hds d (by simp)
    have hds' : ∀ e ∈ ds, Mild r e := fun e he => hds e (by simp [he])
    obtain ⟨hacked, hrecv, hsame⟩ := ih hds'
    have hone : (ds.foldl (single r) v).Calm := hv.foldl hds' fun v e hv he => hv.single he
    have hack : (ds.foldl (ackOf r) v).Calm := hv.foldl hds' fun v e hv he => hv.ackOf he
    have hkeep := recv_ackOf hone hd
    simp only [List.foldl_append, List.foldl_cons, List.foldl_nil]
    rw [single]
    refine ⟨?_, ?_, (recv_ackOf hack hd).trans hsame⟩
    · rw [acked_takeData, ackOf_calm hone hd, ackOf_calm hack hd, hacked]
      split_ifs
      · rfl
      · exact hacked
    · cases hb : brings r d with
      | false => simp [takeData_of_not_brings hb, hkeep, hrecv, withData, hb]
      | true => simp [takeData_calm hd hb, hkeep, hrecv, withData, hb]

theorem foldl_single_of_no_data (hb : withData r ds = []) : ds.foldl (single r) v = ds.foldl (ackOf r) v := by
  induction ds generalizing v with
  | nil => rfl
  | cons d ds ih =>
    rw [withData, List.filter_eq_nil_iff] at hb
    rw [List.foldl_cons, List.foldl_cons, single, takeData_of_not_brings (by simpa using hb d (by simp))]
    exact ih (List.filter_eq_nil_iff.mpr fun e he => hb e (by simp [he]))

/-- Only the window can differ. -/
theorem same_iff_window (hv : v.Calm) (hds : ∀ d ∈ ds, Mild r d) :
    (ds.foldl (single r) v).Same (whole r v ds) ↔ (ds.foldl (single r) v).window = (whole r v ds).window := by
  refine ⟨Same.window, fun hwin => ?_⟩
  obtain ⟨hacked, hrecv, hsame⟩ := foldl_single_calm hv hds
  have hone : (ds.foldl (single r) v).Calm := hv.foldl hds fun v e hv he => hv.single he
  have hack : (ds.foldl (ackOf r) v).Calm := hv.foldl hds fun v e hv he => hv.ackOf he
  have hopen : (windows r ds).any (· == 0) = false := by
    simp only [windows, List.any_map, List.any_eq_false, Function.comp_apply, beq_iff_eq]
    intro d hd
    exact UInt32.pos_iff_ne_zero.mp (hds d (List.mem_of_mem_filter hd)).room
  rw [← hsame] at hrecv
  simp only [whole, takeACK_collected hv hds, hopen, Bool.or_false] at hwin ⊢
  exact ⟨hacked, hwin, hone.room.trans hack.room.symm, congrArg _ hrecv, congrArg _ hrecv, congrArg _ hrecv⟩

/-- Where `d` is the last packet with data. -/
theorem window_iff {xs ys : List Datagram} {d : Datagram} (hv : v.Calm)
    (hds : ∀ e ∈ xs ++ d :: ys, Mild r e) (hd : brings r d = true) (hys : withData r ys = []) :
    ((xs ++ d :: ys).foldl (single r) v).window = (whole r v (xs ++ d :: ys)).window ↔
      ∀ a w, highestACK ys = some (a, w) → r.isNetConnected = true →
        (v.takeACK r (highestACK (xs ++ [d]))).acked ≤ a →
          scaledWindow w r.sendWindowScale = scaledWindow d.hdr.windowSize r.sendWindowScale := by
  have hxs : ∀ e ∈ xs ++ [d], Mild r e := fun e he => hds e (by simp at he ⊢; tauto)
  have hmild : ∀ e ∈ ys, Mild r e := fun e he => hds e (by simp [he])
  have hcalm : ((xs ++ [d]).foldl (single r) v).Calm := hv.foldl hxs fun v e hv he => hv.single he
  have hwhole : (whole r v (xs ++ d :: ys)).window = scaledWindow d.hdr.windowSize r.sendWindowScale := by
    have hdata : withData r (xs ++ d :: ys) = withData r xs ++ [d] := by
      rw [withData, List.filter_append, List.filter_cons_of_pos hd]
      exact congrArg (fun zs => _ ++ d :: zs) hys
    simp [whole, windows, hdata]
  have hlast : ((xs ++ [d]).foldl (single r) v).window = scaledWindow d.hdr.windowSize r.sendWindowScale := by
    rw [List.foldl_append, List.foldl_cons, List.foldl_nil, single, takeData_calm (hds d (by simp)) hd]
  have hsplit : (xs ++ d :: ys).foldl (single r) v =
      ((xs ++ [d]).foldl (single r) v).takeACK r (highestACK ys) := by
    rw [takeACK_collected hcalm hmild, ← foldl_single_of_no_data hys, ← List.foldl_append]
    simp
  rw [hwhole, hsplit, takeACK_collected hv hxs, ← (foldl_single_calm hv hxs).1]
  generalize (xs ++ [d]).foldl (single r) v = u at hcalm hlast
  cases ho : highestACK ys with
  | none => simp [takeACK, hlast]
  | some x =>
    obtain ⟨e, he, -, -, hw⟩ := collected_mem (a := x.1) (w := x.2) ho
    rw [takeACK, ack_calm hcalm (hw ▸ (hmild e he).room)]
    split_ifs with htake
    · constructor
      · rintro hsame a w ⟨⟩ - -
        exact hsame
      · exact fun h => h x.1 x.2 rfl htake.1 htake.2
    · simp only [hlast, true_iff]
      rintro a w ⟨⟩ hnet hle
      exact absurd ⟨hnet, hle⟩ htake

theorem same_iff (hv : v.Calm) (hds : ∀ d ∈ ds, Mild r d) :
    (ds.foldl (single r) v).Same (whole r v ds) ↔ KeepsWindow r v ds := by
  rw [same_iff_window hv hds]
  constructor
  · rintro hwin xs d ys rfl hd hys
    exact (window_iff hv hds hd hys).mp hwin
  · intro hkeep
    rcases List.eq_nil_or_concat' (withData r ds) with hnone | ⟨ls, d, hlast⟩
    · rw [foldl_single_of_no_data hnone, ← takeACK_collected hv hds]
      simp [whole, windows, hnone]
    · obtain ⟨ws, zs, rfl, -, hzs⟩ := List.filter_eq_append_iff.mp hlast
      obtain ⟨xs, ys, rfl, -, hd, hys⟩ := List.filter_eq_cons_iff.mp hzs
      rw [← List.append_assoc] at hds hkeep ⊢
      exact (window_iff hv hds hd hys).mpr (hkeep (ws ++ xs) d ys rfl hd hys)

end StreamState

/-! ## On a socket -/

/-- The nonce is cleared by the peer's own traffic. -/
def DtpContext.calmed (c : DtpContext) : DtpContext := { c with nonce := 0 }

/-- A data or ACK packet of the context's flow, from the address of its peer. -/
structure Plain (c : DtpContext) (a : Arrival) : Prop where
  syn : a.d.hdr.syn = false
  rst : a.d.hdr.rst = false
  fin : a.d.hdr.fin = false
  chg : a.d.hdr.chg = false
  rsp : a.d.hdr.rsp = false
  auth : a.d.hdr.auth = false
  fid : a.d.hdr.fid = c.flowID
  addr : a.addr = c.peerAddr

theorem Plain.of_route {c c' : DtpContext} {a : Arrival} (h : Plain c a) (hr : c'.route = c.route) : Plain c' a :=
  { h with
    fid := h.fid.trans (congrArg Route.flowID hr).symm
    addr := h.addr.trans (congrArg Route.peerAddr hr).symm }

/-- One `OnReadEvent` for each packet. -/
def Node.onReadEvents (k : Crypto) (isListen : Bool) (sock : ℕ) (n : Node) (as : List Arrival) :
    Except ParseFault Node :=
  as.foldlM (fun n a => n.onReadEvent k isListen sock [a]) n

/-- What the packets of a batch add up to. -/
def collect (as : List Arrival) : AdjPktInfo := (as.map Arrival.d).foldl AdjPktInfo.add ⟨none, []⟩

theorem pkts_foldl_add (p : AdjPktInfo) (ds : List Datagram) : (ds.foldl AdjPktInfo.add p).pkts = p.pkts ++ ds := by
  induction ds generalizing p with
  | nil => simp
  | cons d ds ih => simp [ih, AdjPktInfo.add]

theorem pkts_collect (as : List Arrival) : (collect as).pkts = as.map Arrival.d := by
  simp [collect, pkts_foldl_add]

/-- The hosts differ in one context. -/
structure Node.Only (s : ℕ) (n n' : Node) : Prop where
  flowMap : n'.flowMap = n.flowMap
  other : ∀ t, t ≠ s → n'.ctx t = n.ctx t

namespace Node.Only
variable {s : ℕ} {n n' n'' : Node}

theorem refl (n : Node) : n.Only s n := ⟨rfl, fun _ _ => rfl⟩

theorem trans (h : n.Only s n') (h' : n'.Only s n'') : n.Only s n'' where
  flowMap := h'.flowMap.trans h.flowMap
  other t ht := (h'.other t ht).trans (h.other t ht)

theorem modify (n : Node) (s : ℕ) (f : DtpContext → DtpContext) : n.Only s (n.modify s f) where
  flowMap := rfl
  other _ ht := Function.update_of_ne ht _ _

theorem lookup (h : n.Only s n') (hr : (n'.ctx s).route = (n.ctx s).route) (isListen : Bool) (sock : ℕ) (fid : UInt32) :
    ReadLoop.lookup isListen sock ⟨n', none, 0, none⟩ fid = ReadLoop.lookup isListen sock ⟨n, none, 0, none⟩ fid := by
  have hmatch : (fun t => (n'.ctx t).onFlowIDMap && (n'.ctx t).flowID == fid) =
      fun t => (n.ctx t).onFlowIDMap && (n.ctx t).flowID == fid := by
    ext t
    by_cases ht : t = s
    · subst ht
      have hmap : (n'.ctx t).onFlowIDMap = (n.ctx t).onFlowIDMap := congrArg Route.onFlowIDMap hr
      have hflow : (n'.ctx t).flowID = (n.ctx t).flowID := congrArg Route.flowID hr
      rw [hmap, hflow]
    · rw [h.other t ht]
  simp [ReadLoop.lookup, Node.byFlowID, h.flowMap, hmatch]

end Node.Only

section Socket
variable {k : Crypto} {isListen : Bool} {sock s : ℕ} {n : Node} {c : DtpContext}

/-- `OnReadEvent` has looked up the context and is collecting packets for it. -/
structure Collecting (isListen : Bool) (s : ℕ) (n : Node) (c : DtpContext) (p : AdjPktInfo)
    (r : ReadLoop) : Prop where
  only : n.Only s r.node
  ctx : r.node.ctx s = c
  cur : r.cur = some s
  api : r.api = some (s, p)
  fid : isListen = true → r.oldFid = c.flowID

theorem Collecting.lookup {p : AdjPktInfo} {r : ReadLoop} (h : Collecting isListen s n c p r) :
    r.lookup isListen sock c.flowID = some s := by
  cases isListen with
  | false => simp [ReadLoop.lookup, h.cur]
  | true => simp [ReadLoop.lookup, h.cur, h.fid rfl]

theorem receives_of_streaming (hs : c.state.isStreaming = true) : c.receives = !c.connTimedOut := by
  rw [receives]
  cases hst : c.state <;> simp_all [SockState.isStreaming]

theorem checkAddress_plain (hs : c.state.isStreaming = true) {a : Arrival} (ha : Plain c a) (rnd : UInt32) :
    c.checkAddress a.addr rnd = c.calmed ∧ c.isForeign a.addr = false := by
  simp [checkAddress, isForeign, ne_of_streaming hs, ha.addr, calmed]

theorem receive_plain {r : ReadLoop} {a : Arrival} (hs : (r.node.ctx s).state.isStreaming = true)
    (hopen : (r.node.ctx s).connTimedOut = false)
    (hlookup : r.lookup isListen sock (r.node.ctx s).flowID = some s) (ha : Plain (r.node.ctx s) a) :
    r.receive k isListen sock a = .ok (ReadLoop.deliver ⟨r.node.modify s calmed, some s, if isListen then a.d.hdr.fid else r.oldFid,
      r.api⟩ s a.d) := by
  have hfound : r.find isListen sock a.d.hdr.fid =
      ⟨r.node, some s, if isListen then a.d.hdr.fid else r.oldFid, r.api⟩ := by
    rw [ReadLoop.find, ha.fid, hlookup]
  have hcheck : (r.node.modify s fun c => c.checkAddress a.addr a.env.rnd) = r.node.modify s calmed := by
    simp only [Node.modify, (checkAddress_plain hs ha a.env.rnd).1]
  have hreceives : (r.node.ctx s).receives = true := by
    rw [receives_of_streaming hs, hopen]
    rfl
  rw [ReadLoop.receive, hfound]
  simp [ReadLoop.receiveFound, ReadLoop.receiveFor, ReadLoop.modify, ha.syn, ha.rst, ha.chg, ha.rsp, ha.auth,
    ha.fid, hreceives, (checkAddress_plain hs ha a.env.rnd).2, hcheck, pure, Except.pure]

theorem Collecting.first {a : Arrival} (hs : (n.ctx s).state.isStreaming = true)
    (hopen : (n.ctx s).connTimedOut = false)
    (hlookup : ReadLoop.lookup isListen sock ⟨n, none, 0, none⟩ (n.ctx s).flowID = some s)
    (ha : Plain (n.ctx s) a) :
    ∃ r, ReadLoop.receive k isListen sock ⟨n, none, 0, none⟩ a = .ok r ∧
      Collecting isListen s n (n.ctx s).calmed (AdjPktInfo.add ⟨none, []⟩ a.d) r := by
  refine ⟨_, receive_plain hs hopen hlookup ha, ?_⟩
  simp only [ReadLoop.deliver, ha.fin, Bool.false_eq_true, if_false]
  constructor
  · exact Node.Only.modify n s calmed
  · exact Function.update_self ..
  · rfl
  · rfl
  · intro hlisten
    simp only [hlisten, if_true]
    exact ha.fid

variable (k sock) in
theorem Collecting.next {p : AdjPktInfo} {r : ReadLoop} {a : Arrival} (hs : c.state.isStreaming = true)
    (hopen : c.connTimedOut = false) (hr : Collecting isListen s n c.calmed p r) (ha : Plain c a) :
    ∃ r', r.receive k isListen sock a = .ok r' ∧ Collecting isListen s n c.calmed (p.add a.d) r' := by
  have ha' : Plain (r.node.ctx s) a := by
    rw [hr.ctx]
    exact { ha with }
  have hlookup : r.lookup isListen sock (r.node.ctx s).flowID = some s := by
    rw [hr.ctx]
    exact hr.lookup
  refine ⟨_, receive_plain (by rwa [hr.ctx]) (by rwa [hr.ctx]) hlookup ha', ?_⟩
  simp only [ReadLoop.deliver, ha.fin, hr.api, Bool.false_eq_true, if_false, if_true]
  constructor
  · exact hr.only.trans (Node.Only.modify r.node s calmed)
  · simp only [Node.modify, Node.set, Function.update_self, hr.ctx]
    rfl
  · rfl
  · rfl
  · intro hlisten
    simp only [hlisten, if_true]
    exact ha.fid

variable (k sock) in
theorem Collecting.foldlM {p : AdjPktInfo} {r : ReadLoop} {as : List Arrival} (hs : c.state.isStreaming = true)
    (hopen : c.connTimedOut = false) (hr : Collecting isListen s n c.calmed p r)
    (has : ∀ a ∈ as, Plain c a) :
    ∃ r', as.foldlM (ReadLoop.receive k isListen sock) r = .ok r' ∧
      Collecting isListen s n c.calmed ((as.map Arrival.d).foldl AdjPktInfo.add p) r' := by
  induction as generalizing p r with
  | nil => exact ⟨r, rfl, hr⟩
  | cons a as ih =>
    obtain ⟨r₁, h₁, hr₁⟩ := hr.next k sock hs hopen (has a (by simp))
    obtain ⟨r₂, h₂, hr₂⟩ := ih hr₁ fun b hb => has b (by simp [hb])
    refine ⟨r₂, ?_, hr₂⟩
    simp only [List.foldlM_cons, h₁, bind, Except.bind]
    exact h₂

section OneFlow
variable {as : List Arrival} (hs : (n.ctx s).state.isStreaming = true)
  (hlookup : ReadLoop.lookup isListen sock ⟨n, none, 0, none⟩ (n.ctx s).flowID = some s)
  (has : ∀ a ∈ as, Plain (n.ctx s) a)
include hs hlookup has

/-- `OnReadEvent` with packets of one flow is one batch. -/
theorem onReadEvent_plain (hopen : (n.ctx s).connTimedOut = false) (hne : as ≠ []) :
    ∃ n', n.onReadEvent k isListen sock as = .ok n' ∧ n.Only s n' ∧
      n'.ctx s = (n.ctx s).calmed.processAggregatePackets (collect as) := by
  cases as with
  | nil => exact absurd rfl hne
  | cons a as =>
    obtain ⟨r₁, h₁, hr₁⟩ := Collecting.first (k := k) hs hopen hlookup (has a (by simp))
    obtain ⟨r₂, h₂, hr₂⟩ := hr₁.foldlM k sock hs hopen (List.forall_mem_cons.mp has).2
    refine ⟨r₂.flush, ?_, ?_, ?_⟩
    · simp only [Node.onReadEvent, List.foldlM_cons, h₁, h₂, bind, Except.bind, pure, Except.pure]
    · simp only [ReadLoop.flush, hr₂.api]
      exact hr₂.only.trans (Node.Only.modify r₂.node s _)
    · simp only [ReadLoop.flush, hr₂.api, Node.modify, Node.set, Function.update_self, hr₂.ctx]
      rfl

theorem onReadEvent_expired (hexp : (n.ctx s).connTimedOut = true) : n.onReadEvent k isListen sock as = .ok n := by
  have hloop (r : ReadLoop) (hr : r.node = n ∧ r.api = none ∧ r.lookup isListen sock (n.ctx s).flowID = some s) :
      ∃ r', as.foldlM (ReadLoop.receive k isListen sock) r = .ok r' ∧ r'.node = n ∧ r'.api = none := by
    induction as generalizing r with
    | nil => exact ⟨r, rfl, hr.1, hr.2.1⟩
    | cons a as ih =>
      have ha := has a (by simp)
      have hnot : (n.ctx s).receives = false := by
        rw [receives_of_streaming hs, hexp]
        rfl
      obtain ⟨hnode, hapi, hfound⟩ := hr
      have hone : r.receive k isListen sock a = .ok ⟨n, some s, if isListen then a.d.hdr.fid else r.oldFid, none⟩ := by
        rw [ReadLoop.receive, ReadLoop.find, ha.fid, hfound, hnode, hapi]
        simp [ReadLoop.receiveFound, ReadLoop.receiveFor, ha.syn, ha.rst, ha.fid, hnot, pure, Except.pure]
      simp only [List.foldlM_cons, hone, bind, Except.bind]
      refine ih (fun b hb => has b (by simp [hb])) _ ⟨rfl, rfl, ?_⟩
      cases isListen <;> simp [ReadLoop.lookup, ha.fid]
  obtain ⟨r, hr, hnode, hapi⟩ := hloop ⟨n, none, 0, none⟩ ⟨rfl, rfl, hlookup⟩
  simp only [Node.onReadEvent, hr, bind, Except.bind, pure, Except.pure, ReadLoop.flush, hapi, hnode]

/-- The state of the host after packets that came to the context `s`. -/
structure AfterPackets (s : ℕ) (n n' : Node) (v : StreamState) : Prop where
  only : n.Only s n'
  stream : (n'.ctx s).streamState = v
  route : (n'.ctx s).route = (n.ctx s).route
  streaming : (n'.ctx s).state.isStreaming = true

open StreamState in
theorem onReadEvent_after (hopen : (n.ctx s).connTimedOut = false) :
    ∃ n', n.onReadEvent k isListen sock as = .ok n' ∧
      AfterPackets s n n' (whole (n.ctx s).route (n.ctx s).streamState (as.map Arrival.d)) := by
  cases as with
  | nil => exact ⟨n, rfl, Node.Only.refl n, by simp [whole, windows, withData, highestACK, takeACK], rfl, hs⟩
  | cons a as =>
    obtain ⟨n', hok, honly, hctx⟩ := onReadEvent_plain (k := k) hs hlookup has hopen (by simp)
    have hsyn : ∀ d ∈ (collect (a :: as)).pkts, d.hdr.syn = false := by
      rw [pkts_collect]
      intro d hd
      obtain ⟨b, hb, rfl⟩ := List.mem_map.mp hd
      exact (has b hb).syn
    have hrec : Received (n.ctx s).calmed (n'.ctx s) _ _ :=
      hctx ▸ received_processAggregatePackets (c := (n.ctx s).calmed) hs hsyn
    rw [pkts_collect] at hrec
    exact ⟨n', hok, honly, hrec.stream.trans (foldl_takeData _ _), hrec.route, hrec.streaming⟩

open StreamState in
/-- After the same packets one by one. -/
theorem onReadEvents_after (hopen : (n.ctx s).connTimedOut = false) :
    ∃ n', n.onReadEvents k isListen sock as = .ok n' ∧ AfterPackets s n n'
      ((as.map Arrival.d).foldl (single (n.ctx s).route) (n.ctx s).streamState) := by
  induction as generalizing n with
  | nil => exact ⟨n, rfl, Node.Only.refl n, rfl, rfl, hs⟩
  | cons a as ih =>
    have ha : ∀ b ∈ [a], Plain (n.ctx s) b := fun b hb => has b (by simp_all)
    obtain ⟨n₁, h₁, hn₁⟩ := onReadEvent_after (k := k) hs hlookup ha hopen
    have hone : (n₁.ctx s).streamState = (n.ctx s).streamState.single (n.ctx s).route a.d := by
      refine hn₁.stream.trans ((foldl_takeData _ [a.d]).symm.trans ?_)
      by_cases hack : a.d.hdr.ack = true
      · simp [single, ackOf, highestACK, AdjPktInfo.add, takeACK, hack]
      · simp [single, ackOf, highestACK, AdjPktInfo.add, takeACK, hack]
    have hopen₁ : (n₁.ctx s).connTimedOut = false :=
      (congrArg Route.connTimedOut hn₁.route).trans hopen
    have hflow : (n₁.ctx s).flowID = (n.ctx s).flowID := congrArg Route.flowID hn₁.route
    obtain ⟨n₂, h₂, hn₂⟩ := ih hn₁.streaming
      (by rw [hn₁.only.lookup hn₁.route, hflow]; exact hlookup)
      (fun b hb => (has b (by simp [hb])).of_route hn₁.route) hopen₁
    refine ⟨n₂, ?_, hn₁.only.trans hn₂.only, ?_, hn₂.route.trans hn₁.route, hn₂.streaming⟩
    · simp only [Node.onReadEvents, List.foldlM_cons, h₁, bind, Except.bind]
      exact h₂
    · rw [hn₂.stream, hone, hn₁.route]
      rfl

end OneFlow

/-- What is compared. -/
structure SameReceived (c c' : DtpContext) : Prop where
  lastByteAcked : c.lastByteAcked = c'.lastByteAcked
  nextByteExpected : c.nextByteExpected = c'.nextByteExpected
  readBufHead : c.readBufHead = c'.readBufHead
  readBuf : c.readBuf = c'.readBuf
  rcvWindow : c.rcvWindow = c'.rcvWindow
  isHerWindowZero : c.isHerWindowZero = c'.isHerWindowZero

theorem sameReceived_iff {c c' : DtpContext} : SameReceived c c' ↔ c'.streamState.Same c.streamState := by
  constructor
  · rintro ⟨ha, he, hh, hb, hw, hz⟩
    exact ⟨ha.symm, hw.symm, hz.symm, he.symm, hh.symm, hb.symm⟩
  · rintro ⟨ha, hw, hz, he, hh, hb⟩
    exact ⟨ha.symm, he.symm, hh.symm, hb.symm, hw.symm, hz.symm⟩

/-- Replayed one by one, the packets leave the stream as the highest ACK and then the data leave it. -/
def Alike (c : DtpContext) (ds : List Datagram) : Prop :=
  c.connTimedOut = false →
    (ds.foldl (StreamState.single c.route) c.streamState).Same (StreamState.whole c.route c.streamState ds)

end Socket

/-! ## Two batches -/

/-- An established connection on socket `3` with two packets of ten bytes under way. -/
def sampleStream : Node where
  ctx := fun _ =>
    { dtpCreateContext with
      state := .established, flowID := 9, peerAddr := ⟨1, 80⟩, isFirstDataSent := true
      lastByteWritten := 20, lastByteSent := 20, segSent := 20
      packetQ := [⟨0, 30, 20, default, false⟩, ⟨10, 30, 20, default, false⟩] }
  flowMap := [3]

/-- An ACK for the stream, with as many bytes of data. -/
def sampleACK (ackSeq : UInt32) (window : UInt16) (data : ℕ) : Arrival where
  d := { hdr := { ack := true, fid := 9, seq := 0, ackSeq := ackSeq, doff := 5, windowSize := window }
         len := 20 + data, opts := fun _ => 0, body := fun _ => 7 }
  addr := ⟨1, 80⟩
  env := { fresh := none, hid := [], key := [], pad := 0, rnd := 1, fid := 0 }

theorem plain_sampleACK (ackSeq : UInt32) (window : UInt16) (data : ℕ) :
    Plain (sampleStream.ctx 3) (sampleACK ackSeq window data) := by
  constructor <;> rfl

/-- The window of the data replaces that of the later ACK. -/
example : ∃ n₁ n₂, sampleStream.onReadEvent sampleCrypto false 3 [sampleACK 0 7 5, sampleACK 10 5 0] = .ok n₁ ∧
    sampleStream.onReadEvents sampleCrypto false 3 [sampleACK 0 7 5, sampleACK 10 5 0] = .ok n₂ ∧
    (n₁.ctx 3).rcvWindow = 7 ∧ (n₂.ctx 3).rcvWindow = 5 := by
  refine ⟨_, _, rfl, rfl, ?_, ?_⟩
  · decide +kernel
  · decide +kernel

end Cedos.Dtp
