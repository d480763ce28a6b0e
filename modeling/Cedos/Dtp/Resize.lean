import Cedos.Dtp.AckFrames
import Cedos.Dtp.InFlight
import Cedos.Dtp.ReceiveBounds
import Cedos.Dtp.Reassembly

/-!
# Resizing a buffer with data in it

`DTP_SO_RCVBUF` and `DTP_SO_SNDBUF` take the new size as it comes and reallocate; their comment assumes that
nothing has been transferred yet. A size below what is buffered makes the free space of the send buffer
negative, and `dtp_send`, which compares it as a `size_t`, then copies all it is given behind the buffer.

The read buffer may hold anything, so its layout is stated without saying what the bytes are.
-/

namespace Cedos.Dtp

open DtpContext

/-! ## Copies -/

/-- A part of a buffer of `size` bytes. -/
structure Span where
  off : ℤ
  len : ℤ
  size : ℤ
  deriving DecidableEq, Repr

/-- It lies in the buffer. -/
structure Span.Inside (s : Span) : Prop where
  off_nonneg : 0 ≤ s.off
  len_nonneg : 0 ≤ s.len
  le_size : s.off + s.len ≤ s.size

namespace DtpContext

/-- The `memcpy` of `dtp_send`, from its waiting loop on. -/
def sendCopies (c : DtpContext) (data : List UInt8) : List Span :=
  let len := minSize data.length c.getAvailWriteBufSize
  if 0 < len then [⟨c.getWriteBufOff, len, c.writeBufLen⟩] else []

/-- The `memcpy` and the `memmove` of `dtp_recv`, from its waiting loop on. -/
def recvCopies (c : DtpContext) (length : ℕ) (msgPeek : Bool) : List Span :=
  let len := minSize length c.getReadBufDataSize
  let moveLen := i32 (c.lastByteRcvd - (c.lastByteRead + u32 len))
  if 0 < len then
    ⟨0, len, c.readBufLen⟩ :: if msgPeek = false ∧ 0 < moveLen then [⟨len, moveLen, c.readBufLen⟩] else []
  else []

/-- The `memmove` of `HandleACKPacket`. -/
def ackCopies (c : DtpContext) (ackNum : UInt32) (window : UInt16) : List Span :=
  if !c.isNetConnected then []
  else if ackNum < c.lastByteAcked ∧ ¬c.lastByteAcked + 1472 < c.lastByteAcked then []
  else
    let c := (c.noteWrap ackNum).noteAckWindow window
    if c.isHerWindowZero ∧ 0 < c.rcvWindow then []
    else
      let c := c.countDuplicate ackNum
      if ackNum = c.lastByteAcked ∧ c.numACKRcvd = 4 then []
      else if 0 < i32 (c.lastByteWritten - ackNum) then
        [⟨i32 (ackNum - c.lastByteAcked), i32 (c.lastByteWritten - ackNum), c.writeBufLen⟩]
      else []

/-- The `memcpy` of `HandleNormalPacket`, for a packet of a batch. -/
def packetCopies (c : DtpContext) (d : Datagram) : List Span :=
  if 0 < getPayloadLen d then (c.memcpyOf d).toList.map fun m => ⟨m.dst, m.len, c.readBufLen⟩ else []

/-- The same for packets one after the other. -/
def packetsCopies : DtpContext → List Datagram → List Span
  | _, [] => []
  | c, d :: ds => c.packetCopies d ++ packetsCopies (c.processPacket d) ds

/-- The copies of `ProcessAggregatePackets`. -/
def batchCopies (c : DtpContext) (p : AdjPktInfo) : List Span :=
  (match p.ack with
    | some (ackNum, window) => if c.state ≠ .timeWait then c.ackCopies ackNum window else []
    | none => []) ++
  if (c.processACK p.ack).isActive then packetsCopies (c.processACK p.ack) p.pkts else []

end DtpContext

/-- The copies a step makes. -/
def ConnEvent.copies (c : DtpContext) : ConnEvent → List Span
  | .own (.send data) =>
    if !c.isActive ∨ data.length = 0 ∨ c.state.isClosing ∨ c.connReset then [] else c.sendCopies data
  | .own (.sendWake data) => c.sendCopies data
  | .own (.recv length msgPeek) =>
    if !c.isActive ∨ c.connTimedOut ∨ c.connReset ∨ length = 0 then [] else c.recvCopies length msgPeek
  | .own (.recvWake length msgPeek) =>
    if c.connTimedOut ∨ c.connReset then [] else c.recvCopies length msgPeek
  | .own (.batch p) => c.batchCopies p
  | _ => []

/-! ## The receive side -/

theorem Reassembled.read_le_rcvd {S : ℕ → UInt8} {r : RecvSide} (h : Reassembled S r) :
    r.lastByteRead.toNat ≤ r.lastByteRcvd.toNat := by
  rw [h.rcvd, lastHi]
  cases hl : r.runs.getLast? with
  | none => simp
  | some x =>
    have hx := List.mem_of_getLast? hl
    exact (h.low x hx).trans (h.separated.1 x hx).le

/-- List and offsets agree, whatever the bytes are. -/
def LaidOut (r : RecvSide) : Prop := ∃ S, Reassembled S r

namespace LaidOut
variable {r : RecvSide} {c : DtpContext} {d : Datagram} {bodyLen : UInt32}

theorem of_reassembled {S : ℕ → UInt8} (h : Reassembled S r) (m : ℕ → UInt8) : LaidOut { r with readBuf := m } :=
  ⟨fun p => m (p - r.lastByteRead.toNat),
    ⟨h.len_nonneg, h.read_small, h.node_small, h.separated, h.low, h.high, fun _ _ => rfl, h.expected, h.rcvd⟩⟩

/-- A segment, whatever is in it: the same packet with the bytes of the stream leaves the same list and offsets. -/
theorem storeSegment (h : LaidOut c.toRecvSide) (hd : d.hdr.seq.toNat + bodyLen.toNat + c.readBufLen.toNat < 2147483648)
    (hpos : 0 < c.segmentLen d.hdr.seq bodyLen) : LaidOut (c.storeSegment d bodyLen).1.toRecvSide := by
  obtain ⟨S, hS⟩ := h
  have hstore := Reassembled.storeSegment (d := { d with body := fun i => S (d.hdr.seq.toNat + i) }) hS
    (fun _ _ => rfl) hd hpos
  exact of_reassembled hstore.1 _

theorem handleNormalPacket (h : LaidOut c.toRecvSide)
    (hd : d.hdr.seq.toNat + bodyLen.toNat + c.readBufLen.toNat < 2147483648) :
    LaidOut (c.handleNormalPacket d bodyLen).1.toRecvSide := by
  have hnote := toRecvSide_noteSegment c d.hdr
  simp only [DtpContext.handleNormalPacket]
  split_ifs with hs hpos
  · exact h
  · have hstore := LaidOut.storeSegment (c := c.dropInsertedACK.noteSegment d.hdr) (by rwa [hnote])
      (by rwa [hnote]) hpos
    exact hstore
  · change LaidOut (c.dropInsertedACK.noteSegment d.hdr).toRecvSide
    rwa [hnote]

theorem consume (h : LaidOut c.toRecvSide) {n : ℕ} (hpos : 0 < n)
    (hn : c.lastByteRead.toNat + n ≤ c.nextByteExpected.toNat) : LaidOut (c.consume n).toRecvSide := by
  obtain ⟨S, hS⟩ := h
  exact ⟨S, (hS.consumeBytes hpos hn).1⟩

/-- A new size that has room for what has been received. -/
theorem resize (h : LaidOut r) {n : ℤ} (hn : 0 ≤ n) (hroom : ((r.lastByteRcvd - r.lastByteRead).toNat : ℤ) ≤ n)
    (hsmall : (r.lastByteRcvd.toNat : ℤ) + n < 2147483648) : LaidOut { r with readBufLen := n } := by
  obtain ⟨S, hS⟩ := h
  have hle := hS.read_le_rcvd
  have hsub := toNat_sub_word hle
  have hend : ∀ x ∈ r.runs, x.hi ≤ r.lastByteRcvd.toNat := by
    intro x hx
    rw [hS.rcvd]
    exact hS.separated.le_lastHi x hx
  refine ⟨S, hn, ?_, ?_, hS.separated, hS.low, ?_, hS.bytes, hS.expected, hS.rcvd⟩
  · simp only
    omega
  · intro x hx
    have hx' := hend x hx
    simp only
    omega
  · intro x hx
    have hx' := hend x hx
    simp only
    omega

variable (h : LaidOut c.toRecvSide)
include h

theorem minSize_dataSize (length : ℕ) : minSize length c.getReadBufDataSize =
    (min length (c.nextByteExpected.toNat - c.lastByteRead.toNat) : ℕ) := by
  obtain ⟨S, hS⟩ := h
  have hsize : c.getReadBufDataSize = (c.nextByteExpected.toNat : ℤ) - c.lastByteRead.toNat := hS.dataSize
  have hle : c.lastByteRead.toNat ≤ c.nextByteExpected.toNat := hS.expected.le
  rw [hsize, minSize, if_neg (by omega)]
  omega

theorem recvBody (length : ℕ) (msgPeek woken : Bool) :
    LaidOut (c.recvBody length msgPeek woken).1.toRecvSide := by
  simp only [DtpContext.recvBody, h.minSize_dataSize]
  generalize hn : min length (c.nextByteExpected.toNat - c.lastByteRead.toNat) = n
  split_ifs with h0 h1 h2 h3 h4
  · exact h
  · exact h
  · exact h
  · exact h
  · exact LaidOut.consume (c := (c.assert _).assert _) h (by omega) (by dsimp only [DtpContext.assert]; omega)
  · exact h

/-- What `dtp_recv` copies is in the read buffer. -/
theorem recvCopies (length : ℕ) (msgPeek : Bool) :
    ∀ s ∈ c.recvCopies length msgPeek, s.Inside := by
  have hlen := h.minSize_dataSize length
  obtain ⟨S, hS⟩ := h
  have hnonneg : 0 ≤ c.readBufLen := hS.len_nonneg
  have hexp : c.nextByteExpected.toNat ≤ c.lastByteRead.toNat + c.readBufLen.toNat := hS.expected_le.1
  have hrcvd : c.lastByteRcvd.toNat ≤ c.lastByteRead.toNat + c.readBufLen.toNat := hS.rcvd_le
  have hsmall : c.lastByteRead.toNat + c.readBufLen.toNat < 2147483648 := hS.read_small
  generalize hn : min length (c.nextByteExpected.toNat - c.lastByteRead.toNat) = n at hlen
  have hadd : (c.lastByteRead + u32 n).toNat = c.lastByteRead.toNat + n := by
    rw [toNat_add_u32 (by omega) (by omega)]
    simp
  have hmove : i32 (c.lastByteRcvd - (c.lastByteRead + u32 n)) =
      (c.lastByteRcvd.toNat : ℤ) - (c.lastByteRead.toNat + n) := by
    rw [i32_sub (by omega) (by omega), hadd]
    push_cast
    rfl
  intro s hs
  simp only [DtpContext.recvCopies, hlen, hmove] at hs
  split_ifs at hs with h0 h1
  · rcases List.mem_cons.1 hs with rfl | hs
    · exact ⟨le_rfl, by dsimp only; omega, by dsimp only; omega⟩
    · rw [List.mem_singleton.1 hs]
      exact ⟨by dsimp only; omega, h1.2.le, by dsimp only; omega⟩
  · rw [List.mem_singleton.1 hs]
    exact ⟨le_rfl, by dsimp only; omega, by dsimp only; omega⟩
  · exact absurd hs List.not_mem_nil

/-- What `HandleNormalPacket` copies is in the read buffer. -/
theorem packetCopies (hd : 0 < getPayloadLen d → (d.hdr.seq.toNat : ℤ) + getPayloadLen d + c.readBufLen < 2147483648) :
    ∀ s ∈ c.packetCopies d, s.Inside := by
  obtain ⟨S, hS⟩ := h
  have hnonneg : 0 ≤ c.readBufLen := hS.len_nonneg
  intro s hs
  simp only [DtpContext.packetCopies] at hs
  split_ifs at hs with hpos
  · have hlt := hd hpos
    have hbody := toNat_u32 (n := getPayloadLen d) hpos.le (by omega)
    simp only [List.mem_map, Option.mem_toList, memcpyOf] at hs
    obtain ⟨m, hm, rfl⟩ := hs
    split_ifs at hm with hst hlen
    have hat : SegmentAt c d (u32 (getPayloadLen d)) _ _ := hS.segmentAt (by rw [hbody]; omega) hlen
    have hread : c.lastByteRead.toNat ≤ c.nextByteExpected.toNat := hS.expected.le
    have h1 := hat.lt
    have h2 := hat.expected_le
    have h3 := hat.le_window
    rw [hat.bufOff, hat.len] at hm
    obtain rfl := Option.some.inj hm
    constructor <;> dsimp only <;> omega
  · exact absurd hs List.not_mem_nil

end LaidOut

/-! ## Steps that leave the data alone -/

/-- The step does not touch the buffers or their offsets. -/
structure SameData (c c' : DtpContext) : Prop where
  recvSide : c'.toRecvSide = c.toRecvSide
  written : c'.lastByteWritten = c.lastByteWritten
  acked : c'.lastByteAcked = c.lastByteAcked
  writeBufLen : c'.writeBufLen = c.writeBufLen
  closeCalled : c'.closeCalled = c.closeCalled
  liveness : c'.toLiveness = c.toLiveness
  lastAck : c'.state = .lastAck → c.state = .lastAck

namespace SameData
variable {c c' c'' : DtpContext}

theorem refl (c : DtpContext) : SameData c c := ⟨rfl, rfl, rfl, rfl, rfl, rfl, id⟩

theorem trans (h : SameData c c') (h' : SameData c' c'') : SameData c c'' :=
  ⟨h'.recvSide.trans h.recvSide, h'.written.trans h.written, h'.acked.trans h.acked,
    h'.writeBufLen.trans h.writeBufLen, h'.closeCalled.trans h.closeCalled, h'.liveness.trans h.liveness,
    fun hs => h.lastAck (h'.lastAck hs)⟩

theorem of_flush (h : FlushFrame c c') : SameData c c' where
  recvSide := h.recvSide
  written := h.written
  acked := h.acked
  writeBufLen := h.writeBufLen
  closeCalled := congrArg Lifecycle.closeCalled h.lifecycle
  liveness := h.liveness
  lastAck hs := (congrArg Lifecycle.state h.lifecycle).symm.trans hs

theorem dtpWriteAvail (hc : c.closeCalled = false) : SameData c c.dtpWriteAvail := by
  have hframe := FlushFrame.writeFlush (fun _ => true) c
  obtain heq | ⟨-, hwants, -⟩ := dtpWriteAvail_cases c
  · rw [heq]
    exact of_flush hframe
  · have hcc : (c.writeFlush fun _ => true).1.closeCalled = false :=
      (congrArg Lifecycle.closeCalled hframe.lifecycle).trans hc
    simp [wantsFIN, hcc] at hwants

theorem dtpWriteBufWakeup (c : DtpContext) : SameData c c.dtpWriteBufWakeup := ⟨rfl, rfl, rfl, rfl, rfl, rfl, id⟩

theorem noteFull (c : DtpContext) : SameData c c.noteFull := by
  rw [DtpContext.noteFull]
  split_ifs
  · exact ⟨rfl, rfl, rfl, rfl, rfl, rfl, id⟩
  · exact refl c

theorem countDuplicate (c : DtpContext) (a : UInt32) : SameData c (c.countDuplicate a) := by
  rw [DtpContext.countDuplicate]
  split_ifs
  · exact ⟨rfl, rfl, rfl, rfl, rfl, rfl, id⟩
  · exact refl c

theorem noteDuplicate (c : DtpContext) (a : UInt32) (w : UInt16) :
    SameData c ((c.noteAckWindow w).countDuplicate a) := by
  have hnote : SameData c (c.noteAckWindow w) := ⟨rfl, rfl, rfl, rfl, rfl, rfl, id⟩
  exact hnote.trans (countDuplicate _ a)

theorem handleDuplicateACK (hnet : c.isNetConnected = true) (a : UInt32) : SameData c (c.handleDuplicateACK a) := by
  simp only [DtpContext.handleDuplicateACK]
  cases hq : c.packetQ with
  | nil => exact refl c
  | cons p q =>
    simp only [DtpContext.dtpRetransmit, DtpContext.send, DtpContext.assert, hnet, Bool.not_true, Bool.false_eq_true,
      if_false]
    exact ⟨rfl, rfl, rfl, rfl, rfl, rfl, id⟩

theorem creditACK (c : DtpContext) (acked : ℤ) : SameData c (c.creditACK acked) := by
  simp only [DtpContext.creditACK, DtpContext.establish]
  split_ifs with h0 h1
  · exact ⟨rfl, rfl, rfl, rfl, rfl, rfl, fun hs => SockState.noConfusion hs⟩
  · exact ⟨rfl, rfl, rfl, rfl, rfl, rfl, id⟩
  · exact refl c

theorem finishACK (hs : c.state ≠ .lastAck) (a : UInt32) : SameData c (c.finishACK a) := by
  simp only [DtpContext.finishACK]
  split_ifs
  · exact ⟨rfl, rfl, rfl, rfl, rfl, rfl, fun hl => SockState.noConfusion hl⟩
  · exact refl c

end SameData

/-! ## The invariant -/

/-- The data is inside the buffers, and the connection is not being closed by this side. -/
structure Fits (c : DtpContext) : Prop where
  closeCalled : c.closeCalled = false
  state : c.state ≠ .lastAck
  connected : c.isNetConnected = true
  ackInserted : c.isACKInserted = false
  laidOut : LaidOut c.toRecvSide
  off_nonneg : 0 ≤ c.getWriteBufOff
  off_le : c.getWriteBufOff ≤ c.writeBufLen
  len_lt : c.writeBufLen < 2147483648

/-- The ACK number is an old one and does not look like a wrap-around, or it acknowledges no more than has been
written. -/
def DtpContext.AckFits (c : DtpContext) (a : UInt32) : Prop :=
  if a < c.lastByteAcked then ¬c.lastByteAcked + 1472 < c.lastByteAcked
  else a - c.lastByteAcked ≤ c.lastByteWritten - c.lastByteAcked

/-- The data of the packet and a buffer of `len` bytes after it are far enough below the wrap-around. -/
def PacketFits (len : ℤ) (d : Datagram) : Prop :=
  0 < getPayloadLen d → (d.hdr.seq.toNat : ℤ) + getPayloadLen d + len < 2147483648

namespace Fits
variable {c c' : DtpContext} (h : Fits c)
include h

theorem of_same (hs : SameData c c') : Fits c' where
  closeCalled := hs.closeCalled.trans h.closeCalled
  state hl := h.state (hs.lastAck hl)
  connected := (congrArg Liveness.isNetConnected hs.liveness).trans h.connected
  ackInserted := (congrArg Liveness.isACKInserted hs.liveness).trans h.ackInserted
  laidOut := by
    rw [hs.recvSide]
    exact h.laidOut
  off_nonneg := by
    rw [getWriteBufOff, hs.written, hs.acked]
    exact h.off_nonneg
  off_le := by
    rw [getWriteBufOff, hs.written, hs.acked, hs.writeBufLen]
    exact h.off_le
  len_lt := hs.writeBufLen.symm ▸ h.len_lt

/-- The receiving side may change as long as its layout is right. -/
theorem of_recv (hf : RecvFrame c c') (hl : LaidOut c'.toRecvSide) : Fits c' where
  closeCalled := (congrArg Lifecycle.closeCalled hf.lifecycle).trans h.closeCalled
  state := by
    rw [hf.state]
    exact h.state
  connected := (congrArg Liveness.isNetConnected hf.liveness).trans h.connected
  ackInserted := hf.isACKInserted.trans h.ackInserted
  laidOut := hl
  off_nonneg := by
    rw [getWriteBufOff, hf.sendSide]
    exact h.off_nonneg
  off_le := by
    rw [getWriteBufOff, hf.sendSide]
    exact h.off_le
  len_lt := by
    rw [hf.sendSide]
    exact h.len_lt

/-! ## `dtp_send` -/

theorem avail_nonneg : 0 ≤ c.getAvailWriteBufSize := by
  have := h.off_le
  rw [getAvailWriteBufSize]
  omega

/-- The bytes taken fit behind those that are there. -/
theorem copyBytes {len : ℤ} (h0 : 0 ≤ len) (hlen : len ≤ c.getAvailWriteBufSize)
    (data : List UInt8) : Fits (c.copyBytes data len) := by
  have hnonneg := h.off_nonneg
  have hle := h.off_le
  have hlt := h.len_lt
  have hoff : ((c.lastByteWritten - c.lastByteAcked).toNat : ℤ) = c.getWriteBufOff := toNat_of_i32_nonneg hnonneg
  rw [getAvailWriteBufSize] at hlen
  have hsum : c.lastByteWritten + u32 len - c.lastByteAcked = c.lastByteWritten - c.lastByteAcked + u32 len := by
    grind
  have hnew : (c.copyBytes data len).getWriteBufOff = c.getWriteBufOff + len := by
    change i32 (c.lastByteWritten + u32 len - c.lastByteAcked) = _
    have hnat := toNat_add_u32 (a := c.lastByteWritten - c.lastByteAcked) h0 (by omega)
    rw [hsum, i32_of_lt (by rw [hnat]; omega), hnat]
    omega
  refine ⟨h.closeCalled, h.state, h.connected, h.ackInserted, h.laidOut, ?_, ?_, hlt⟩
  · rw [hnew]
    omega
  · rw [hnew]
    change c.getWriteBufOff + len ≤ c.writeBufLen
    omega

theorem sendBody (data : List UInt8) : Fits (c.sendBody data).1 := by
  obtain ⟨hle, -⟩ := minSize_le (k := data.length) h.avail_nonneg
  simp only [DtpContext.sendBody]
  split_ifs with h0 h1 h2 h3 h4 hpos
  · exact h
  · exact h
  · exact h
  · exact h
  · exact h.of_same ⟨rfl, rfl, rfl, rfl, rfl, rfl, id⟩
  · have hfull := (h.copyBytes hpos.le hle data).of_same (.noteFull _)
    exact hfull.of_same (.dtpWriteAvail hfull.closeCalled)
  · exact h

theorem dtpSend (data : List UInt8) : Fits (c.dtpSend data).1 := by
  simp only [DtpContext.dtpSend]
  split_ifs
  · exact h
  · exact h
  · exact h
  · exact h
  · exact h.sendBody data

theorem dtpSendWake (data : List UInt8) : Fits (c.dtpSendWake data).1 := by
  have hwoken : Fits { c with isWriteBlocked := false } := h.of_same ⟨rfl, rfl, rfl, rfl, rfl, rfl, id⟩
  exact hwoken.sendBody data

theorem sendCopies (data : List UInt8) : ∀ s ∈ c.sendCopies data, s.Inside := by
  obtain ⟨hle, -⟩ := minSize_le (k := data.length) h.avail_nonneg
  intro s hs
  simp only [DtpContext.sendCopies] at hs
  split_ifs at hs with hpos
  · rw [List.mem_singleton.1 hs]
    rw [getAvailWriteBufSize] at hle
    exact ⟨h.off_nonneg, hpos.le, by dsimp only [getAvailWriteBufSize] at hle ⊢; omega⟩
  · exact absurd hs List.not_mem_nil

/-! ## `dtp_recv` -/

theorem dtpRecv (length : ℕ) (msgPeek : Bool) : Fits (c.dtpRecv length msgPeek).1 := by
  refine h.of_recv (.dtpRecv c length msgPeek) ?_
  simp only [DtpContext.dtpRecv]
  split_ifs
  · exact h.laidOut
  · exact h.laidOut
  · exact h.laidOut
  · exact h.laidOut
  · exact h.laidOut.recvBody length msgPeek false

theorem dtpRecvWake (length : ℕ) (msgPeek : Bool) : Fits (c.dtpRecvWake length msgPeek).1 := by
  refine h.of_recv (.dtpRecvWake c length msgPeek) ?_
  simp only [DtpContext.dtpRecvWake]
  split_ifs
  · exact h.laidOut
  · exact h.laidOut
  · exact LaidOut.recvBody (c := { c with isReadBlocked := false }) h.laidOut length msgPeek true

/-! ## Acknowledgements -/

/-- What is left when an ACK number that fits is taken off. -/
theorem off_acked {a : UInt32} (ha : a - c.lastByteAcked ≤ c.lastByteWritten - c.lastByteAcked) :
    0 ≤ i32 (a - c.lastByteAcked) ∧ 0 ≤ i32 (c.lastByteWritten - a) ∧
      i32 (a - c.lastByteAcked) + i32 (c.lastByteWritten - a) = c.getWriteBufOff := by
  have hoff : ((c.lastByteWritten - c.lastByteAcked).toNat : ℤ) = c.getWriteBufOff :=
    toNat_of_i32_nonneg h.off_nonneg
  have hle := UInt32.le_iff_toNat_le.1 ha
  have hlt := h.off_le.trans_lt h.len_lt
  have hrest : c.lastByteWritten - a = c.lastByteWritten - c.lastByteAcked - (a - c.lastByteAcked) := by
    grind
  have hnat : (c.lastByteWritten - a).toNat =
      (c.lastByteWritten - c.lastByteAcked).toNat - (a - c.lastByteAcked).toNat := by
    rw [hrest, toNat_sub_word hle]
  rw [i32_of_lt (by omega), i32_of_lt (by omega)]
  refine ⟨by omega, by omega, by omega⟩

theorem recordACK {a : UInt32} (ha : a - c.lastByteAcked ≤ c.lastByteWritten - c.lastByteAcked) :
    Fits (c.recordACK a) := by
  obtain ⟨h0, h1, hsum⟩ := h.off_acked ha
  have hle := h.off_le
  have hshift : Fits ((c.shiftAcked a).removePacket a) := by
    refine ⟨h.closeCalled, h.state, h.connected, h.ackInserted, h.laidOut, h1, ?_, h.len_lt⟩
    change i32 (c.lastByteWritten - a) ≤ c.writeBufLen
    omega
  exact hshift.of_same (.creditACK _ _)

theorem handleACKPacket {a : UInt32} (w : UInt16) (ha : c.AckFits a) : Fits (c.handleACKPacket a w) := by
  by_cases hold : a < c.lastByteAcked
  · rw [AckFits, if_pos hold] at ha
    have hsame : c.handleACKPacket a w = c := by
      simp only [DtpContext.handleACKPacket, h.connected, Bool.not_true, Bool.false_eq_true, if_false,
        if_pos (And.intro hold ha)]
    rw [hsame]
    exact h
  · rw [AckFits, if_neg hold] at ha
    have hwrap : c.noteWrap a = c := if_neg hold
    have hcount := SameData.noteDuplicate c a w
    simp only [DtpContext.handleACKPacket, h.connected, Bool.not_true, Bool.false_eq_true, if_false, hold,
      false_and, hwrap]
    split_ifs with hopen hdup
    · have hnote : Fits (c.noteAckWindow w).clearHerWindowZero := h.of_same ⟨rfl, rfl, rfl, rfl, rfl, rfl, id⟩
      exact (hnote.of_same (.dtpWriteAvail hnote.closeCalled)).of_same (.dtpWriteBufWakeup _)
    · have hcounted := h.of_same hcount
      exact hcounted.of_same (.handleDuplicateACK hcounted.connected a)
    · have hrec : Fits (((c.noteAckWindow w).countDuplicate a).recordACK a) := by
        refine (h.of_same hcount).recordACK ?_
        rw [hcount.acked, hcount.written]
        exact ha
      have hsent := (hrec.of_same (.dtpWriteAvail hrec.closeCalled)).of_same (.dtpWriteBufWakeup _)
      exact hsent.of_same (.finishACK hsent.state a)

theorem processACK {ack : Option (UInt32 × UInt16)}
    (ha : ∀ a w, ack = some (a, w) → c.AckFits a) : Fits (c.processACK ack) := by
  cases ack with
  | none => exact h
  | some aw =>
    simp only [DtpContext.processACK]
    split_ifs
    · exact h.handleACKPacket aw.2 (ha aw.1 aw.2 rfl)
    · exact h

/-- What `HandleACKPacket` moves is in the write buffer. -/
theorem ackCopies {a : UInt32} (w : UInt16) (ha : c.AckFits a) :
    ∀ s ∈ c.ackCopies a w, s.Inside := by
  intro s hs
  by_cases hold : a < c.lastByteAcked
  · rw [AckFits, if_pos hold] at ha
    simp [DtpContext.ackCopies, h.connected, hold, ha] at hs
  · rw [AckFits, if_neg hold] at ha
    have hwrap : c.noteWrap a = c := if_neg hold
    have hcount := SameData.noteDuplicate c a w
    obtain ⟨h0, h1, hsum⟩ := h.off_acked ha
    have hle := h.off_le
    simp only [DtpContext.ackCopies, h.connected, Bool.not_true, Bool.false_eq_true, if_false, hold, false_and,
      hwrap, hcount.written, hcount.acked, hcount.writeBufLen] at hs
    split_ifs at hs
    · exact absurd hs List.not_mem_nil
    · exact absurd hs List.not_mem_nil
    · rw [List.mem_singleton.1 hs]
      exact ⟨h0, h1, by dsimp only; omega⟩
    · exact absurd hs List.not_mem_nil

/-! ## Batches -/

theorem processPacket {d : Datagram} (hd : PacketFits c.readBufLen d) :
    Fits (c.processPacket d) ∧ (c.processPacket d).readBufLen = c.readBufLen := by
  have hframe := RecvFrame.processPacket h.ackInserted d
  refine ⟨h.of_recv hframe ?_, hframe.readBufLen⟩
  simp only [DtpContext.processPacket]
  split_ifs with hpos
  · have hlt := hd hpos
    have hlen : 0 ≤ c.readBufLen := by
      obtain ⟨S, hS⟩ := h.laidOut
      exact hS.len_nonneg
    have hbody := toNat_u32 (n := getPayloadLen d) hpos.le (by omega)
    exact h.laidOut.handleNormalPacket (by rw [hbody]; omega)
  · exact h.laidOut
  · exact h.laidOut

/-- One packet after the other: the state, and what is copied on the way. -/
theorem processPackets {ds : List Datagram} (hd : ∀ d ∈ ds, PacketFits c.readBufLen d) :
    Fits (ds.foldl DtpContext.processPacket c) ∧ ∀ s ∈ packetsCopies c ds, s.Inside := by
  induction ds generalizing c with
  | nil => exact ⟨h, fun s hs => absurd hs List.not_mem_nil⟩
  | cons d ds ih =>
    have hhead := hd d List.mem_cons_self
    obtain ⟨hone, hlen⟩ := h.processPacket hhead
    have htail : ∀ x ∈ ds, PacketFits (c.processPacket d).readBufLen x := by
      intro x hx
      rw [hlen]
      exact hd x (List.mem_cons_of_mem _ hx)
    obtain ⟨hall, hcopies⟩ := ih hone htail
    refine ⟨hall, ?_⟩
    intro s hs
    rcases List.mem_append.1 hs with hs | hs
    · exact h.laidOut.packetCopies hhead s hs
    · exact hcopies s hs

theorem answerBatch : Fits c.ackBatch.noteReadable := by
  refine h.of_recv (.of_acts (.answerBatch c)) ?_
  simp only [DtpContext.noteReadable, DtpContext.ackBatch]
  split_ifs <;> exact h.laidOut

theorem clearProbes : Fits c.clearProbes := h.of_recv (.of_acts (.clearProbes c)) h.laidOut

theorem processData {ds : List Datagram} (hd : ∀ d ∈ ds, PacketFits c.readBufLen d) :
    Fits (c.processData ds) := by
  have hcut : ∀ d ∈ ds.takeWhile (fun d => !hasData d), PacketFits c.readBufLen d :=
    fun d hx => hd d ((List.takeWhile_prefix _).subset hx)
  simp only [DtpContext.processData]
  split_ifs
  · exact (h.processPackets hd).1.clearProbes.answerBatch
  · exact (h.processPackets hd).1.clearProbes
  · exact (h.processPackets hcut).1
  · exact (h.processPackets hcut).1.clearProbes

theorem readBufLen_processACK {ack : Option (UInt32 × UInt16)}
    (ha : ∀ a w, ack = some (a, w) → c.AckFits a) : (c.processACK ack).readBufLen = c.readBufLen := by
  cases ack with
  | none => rfl
  | some aw =>
    have hfits := ha aw.1 aw.2 rfl
    simp only [DtpContext.processACK]
    split_ifs
    · refine (AckOnly.handleACKPacket h.connected aw.2 fun hlt => ?_).readBufLen
      rwa [AckFits, if_pos hlt] at hfits
    · rfl

theorem batch {p : AdjPktInfo} (ha : ∀ a w, p.ack = some (a, w) → c.AckFits a)
    (hd : ∀ d ∈ p.pkts, PacketFits c.readBufLen d) :
    Fits (c.processAggregatePackets p) ∧ ∀ s ∈ c.batchCopies p, s.Inside := by
  have hack := h.processACK ha
  have hd' : ∀ d ∈ p.pkts, PacketFits (c.processACK p.ack).readBufLen d := by
    rw [h.readBufLen_processACK ha]
    exact hd
  refine ⟨hack.processData hd', ?_⟩
  intro s hs
  rcases List.mem_append.1 hs with hs | hs
  · cases hp : p.ack with
    | none => simp [hp] at hs
    | some aw =>
      simp only [hp] at hs
      split_ifs at hs
      · exact h.ackCopies aw.2 (ha aw.1 aw.2 hp) s hs
      · exact absurd hs List.not_mem_nil
  · split_ifs at hs
    · exact (hack.processPackets hd').2 s hs
    · exact absurd hs List.not_mem_nil

/-! ## Options -/

theorem resizeRead {n : ℤ} (hroom : ((c.lastByteRcvd - c.lastByteRead).toNat : ℤ) ≤ n)
    (hsmall : (c.lastByteRcvd.toNat : ℤ) + n < 2147483648) : Fits (c.setReadBufLen n) :=
  ⟨h.closeCalled, h.state, h.connected, h.ackInserted, h.laidOut.resize (by omega) hroom hsmall, h.off_nonneg,
    h.off_le, h.len_lt⟩

theorem resizeWrite {n : ℤ} (hroom : c.getWriteBufOff ≤ i32 (u32 (2 * n))) : Fits (c.setWriteBufLen n) :=
  ⟨h.closeCalled, h.state, h.connected, h.ackInserted, h.laidOut, h.off_nonneg, hroom, (i32_bounds _).2⟩

end Fits

/-! ## Runs -/

namespace ConnEvent

/-- A transfer of data in either direction, or a buffer that is resized. -/
def Transfers (c : DtpContext) : ConnEvent → Prop
  | .own (.send _) => True
  | .own (.sendWake _) => True
  | .own (.recv _ _) => True
  | .own (.recvWake _ _) => True
  | .own (.batch _) => True
  | .option (.rcvBuf n) env => (c.dtpSetsockopt (.rcvBuf n) env).2.1 = .done ()
  | .option (.sndBuf n) env => (c.dtpSetsockopt (.sndBuf n) env).2.1 = .done ()
  | _ => False

/-- A new size has room for what is in the buffer, and what arrives is not about bytes that were never written
or too far up in the number space. -/
def KeepsInside (c : DtpContext) : ConnEvent → Prop
  | .own (.batch p) => (∀ a w, p.ack = some (a, w) → c.AckFits a) ∧ ∀ d ∈ p.pkts, PacketFits c.readBufLen d
  | .option (.rcvBuf n) _ => ((c.lastByteRcvd - c.lastByteRead).toNat : ℤ) ≤ n ∧
      (c.lastByteRcvd.toNat : ℤ) + n < 2147483648
  | .option (.sndBuf n) _ => c.getWriteBufOff ≤ i32 (u32 (2 * n))
  | _ => True

end ConnEvent

/-- Data is transferred over a connection, and its buffers are resized at any moment. -/
def resizing (k : Crypto) (c₀ : DtpContext) : Machine DtpContext ConnEvent :=
  (connection k c₀).restrict ConnEvent.Transfers

/-- One step: the data stays inside, and so does every copy. -/
theorem Fits.step {k : Crypto} {c : DtpContext} {e : ConnEvent} (h : Fits c) (ht : e.Transfers c)
    (hk : e.KeepsInside c) : Fits (e.apply k c) ∧ ∀ s ∈ e.copies c, s.Inside := by
  cases e with
  | own e =>
    cases e with
    | send data =>
      refine ⟨h.dtpSend data, fun s hs => ?_⟩
      simp only [ConnEvent.copies] at hs
      split_ifs at hs
      · exact absurd hs List.not_mem_nil
      · exact h.sendCopies data s hs
    | sendWake data => exact ⟨h.dtpSendWake data, h.sendCopies data⟩
    | recv length msgPeek =>
      refine ⟨h.dtpRecv length msgPeek, fun s hs => ?_⟩
      simp only [ConnEvent.copies] at hs
      split_ifs at hs
      · exact absurd hs List.not_mem_nil
      · exact h.laidOut.recvCopies length msgPeek s hs
    | recvWake length msgPeek =>
      refine ⟨h.dtpRecvWake length msgPeek, fun s hs => ?_⟩
      simp only [ConnEvent.copies] at hs
      split_ifs at hs
      · exact absurd hs List.not_mem_nil
      · exact h.laidOut.recvCopies length msgPeek s hs
    | batch p => exact h.batch hk.1 hk.2
    | _ => exact absurd ht not_false
  | syn d addr hid key pad => exact absurd ht not_false
  | option o env =>
    refine ⟨?_, fun s hs => absurd hs List.not_mem_nil⟩
    cases o with
    | rcvBuf n =>
      simp only [ConnEvent.apply, DtpContext.dtpSetsockopt, setOption]
      split_ifs
      · exact h
      · exact h
      · exact h
      · exact h.resizeRead hk.1 hk.2
      · exact h.resizeRead hk.1 hk.2
    | sndBuf n =>
      simp only [ConnEvent.apply, DtpContext.dtpSetsockopt, setOption]
      split_ifs
      · exact h
      · exact h
      · exact h.resizeWrite hk
      · exact h.resizeWrite hk
    | _ => exact absurd ht not_false

/-- What the sizes and the offsets say about the two buffers. -/
structure BuffersSane (c : DtpContext) : Prop where
  off_nonneg : 0 ≤ c.getWriteBufOff
  off_le : c.getWriteBufOff ≤ c.writeBufLen
  rcvd_le : ((c.lastByteRcvd - c.lastByteRead).toNat : ℤ) ≤ c.readBufLen
  avail_write : 0 ≤ c.getAvailWriteBufSize
  data_nonneg : 0 ≤ c.getReadBufDataSize
  /-- no wrap-around -/
  avail_read : (c.getAvailReadBufSize.toNat : ℤ) = c.readBufLen - c.getReadBufDataSize

theorem Fits.buffersSane {c : DtpContext} (h : Fits c) : BuffersSane c := by
  obtain ⟨S, hS⟩ := h.laidOut
  have hsub := toNat_sub_word hS.read_le_rcvd
  have hrcvd : c.lastByteRcvd.toNat ≤ c.lastByteRead.toNat + c.readBufLen.toNat := hS.rcvd_le
  have hnonneg : 0 ≤ c.readBufLen := hS.len_nonneg
  have hexp : c.nextByteExpected.toNat ≤ c.lastByteRead.toNat + c.readBufLen.toNat := hS.expected_le.1
  have hread : c.lastByteRead.toNat ≤ c.nextByteExpected.toNat := hS.expected.le
  have hsmall : c.lastByteRead.toNat + c.readBufLen.toNat < 2147483648 := hS.read_small
  have hsize : c.getReadBufDataSize = (c.nextByteExpected.toNat : ℤ) - c.lastByteRead.toNat := hS.dataSize
  refine ⟨h.off_nonneg, h.off_le, ?_, h.avail_nonneg, ?_, ?_⟩
  · rw [hsub]
    omega
  · omega
  · rw [getAvailReadBufSize, toNat_u32 (by omega) (by omega)]
    omega

/-- In a run that shrinks no buffer below its data, the data is inside the buffers in every state, and every
copy of the next step is too. -/
theorem resized_data_inside {k : Crypto} {c₀ c : DtpContext} (h₀ : Fits c₀)
    (hc : ((resizing k c₀).restrict ConnEvent.KeepsInside).Reachable c) :
    BuffersSane c ∧ ∀ e, ((resizing k c₀).restrict ConnEvent.KeepsInside).allowed c e → ∀ s ∈ e.copies c, s.Inside := by
  have h : Fits c := by
    refine Machine.Reachable.invariant ?_ ?_ hc
    · rintro s rfl
      exact h₀
    · intro s e hs he
      exact (hs.step he.1.2 he.2).1
  refine ⟨h.buffersSane, ?_⟩
  intro e he
  exact (h.step (k := k) he.1.2 he.2).2

/-- An established connection over which nothing has been sent. -/
def sampleResizing : DtpContext := { dtpCreateContext with state := .established }

theorem fits_sampleResizing : Fits sampleResizing := by
  have hfresh : FreshReceiver sampleResizing := by constructor <;> decide
  exact ⟨rfl, by decide, rfl, rfl, ⟨_, (hfresh.readInv fun _ => 0).reassembled⟩, by decide, by decide, by decide⟩

/-- An option is set and its buffer can be reallocated. -/
def sampleResize (o : SockOpt) : ConnEvent := .option o ⟨true, true, .done ()⟩

/-- Ten bytes wait for their ACK. -/
def sampleTenSent : DtpContext := (sampleResizing.dtpSend (List.replicate 10 1)).1

/-- Ten bytes wait to be read. -/
def sampleTenReceived : DtpContext := sampleResizing.processAggregatePackets ⟨none, [sampleSegment 0 10]⟩

theorem setsockopt_sampleTenSent (n : ℤ) :
    (sampleTenSent.dtpSetsockopt (.sndBuf n) ⟨true, true, .done ()⟩).2.1 = .done () := by
  have hactive : sampleTenSent.isActive = true := by decide +kernel
  simp [DtpContext.dtpSetsockopt, hactive, setOption]

/-- A send buffer is resized to twenty bytes with ten in it. -/
theorem resized_data_inside_sample :
    BuffersSane ((resizing sampleCrypto sampleResizing).run sampleResizing
      [.own (.send (List.replicate 10 1)), sampleResize (.sndBuf 10)]) := by
  have hroom : sampleTenSent.getWriteBufOff ≤ i32 (u32 (2 * 10)) := by decide +kernel
  have hadm : ((resizing sampleCrypto sampleResizing).restrict ConnEvent.KeepsInside).Admits sampleResizing
      [.own (.send (List.replicate 10 1)), sampleResize (.sndBuf 10)] :=
    ⟨⟨⟨trivial, trivial⟩, trivial⟩, ⟨⟨trivial, setsockopt_sampleTenSent 10⟩, hroom⟩, trivial⟩
  exact (resized_data_inside fits_sampleResizing (Machine.Reachable.run (.init rfl) hadm)).1

/-- Ten bytes wait for their ACK when the send buffer is set to four bytes, and the next call of `dtp_send` copies
behind it. Ten bytes wait to be read when the read buffer is set to four, and its free space wraps around. -/
theorem resized_data_outside :
    (∃ c, (resizing sampleCrypto sampleResizing).Reachable c ∧ c.writeBufLen < c.getWriteBufOff ∧
      c.getAvailWriteBufSize = -6 ∧ ConnEvent.copies c (.own (.send (List.replicate 5 1))) = [⟨10, 5, 4⟩]) ∧
    ∃ c, (resizing sampleCrypto sampleResizing).Reachable c ∧ c.readBufLen = 4 ∧
      (c.lastByteRcvd - c.lastByteRead).toNat = 10 ∧ c.getAvailReadBufSize.toNat = 4294967290 := by
  constructor
  · have hadm : (resizing sampleCrypto sampleResizing).Admits sampleResizing
        [.own (.send (List.replicate 10 1)), sampleResize (.sndBuf 2)] :=
      ⟨⟨trivial, trivial⟩, ⟨trivial, setsockopt_sampleTenSent 2⟩, trivial⟩
    exact ⟨_, .run (.init rfl) hadm, by decide +kernel, by decide +kernel, by decide +kernel⟩
  · have hset : (sampleTenReceived.dtpSetsockopt (.rcvBuf 4) ⟨true, true, .done ()⟩).2.1 = .done () := by
      decide +kernel
    have hadm : (resizing sampleCrypto sampleResizing).Admits sampleResizing
        [.own (.batch ⟨none, [sampleSegment 0 10]⟩), sampleResize (.rcvBuf 4)] :=
      ⟨⟨⟨by decide, by decide⟩, trivial⟩, ⟨trivial, hset⟩, trivial⟩
    exact ⟨_, .run (.init rfl) hadm, by decide +kernel, by decide +kernel, by decide +kernel⟩

end Cedos.Dtp
