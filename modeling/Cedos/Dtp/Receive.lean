import Cedos.Dtp.Context

/-!
# Receiving data

`HandleNormalPacket`: clip the segment to the receive window, copy it into the read
buffer, and insert its interval into the sorted list `tc_readBufHead`.

The insertion loop walks a singly linked list with two trailing pointers and merges
in place: when the new interval meets a node, the node takes the union and becomes
the new interval, and the node that carried it before is unlinked if it is the
immediate predecessor, and freed in any case. `Walk` is that loop's state, with the
list split at `temp_buf`. A freed node that is still linked, and a write through a
null `prev_buf`, have no meaning for the list; both set `fault`.
-/

namespace Cedos.Dtp

/-- The end of a run of received bytes. -/
def Buffer.stop (b : Buffer) : UInt32 := b.seq + b.len

/-- `CalculateOverlap`: `none` when the two do not meet, else the union, which the
source stores into the list node, and the number of common bytes. -/
def calculateOverlap (seq len : UInt32) (b : Buffer) : Option (Buffer × ℤ) :=
  let start := max seq b.seq
  let stop := min (seq + len) b.stop
  let overlapLen := i32 (stop - start)
  if 0 ≤ overlapLen then
    some (⟨min b.seq seq, max b.stop (seq + len) - min b.seq seq⟩, overlapLen)
  else none

/-- The state of the insertion loop. -/
structure Walk where
  /-- the nodes before `temp_buf`, nearest first, without `cur_buf` if it is linked -/
  before : List Buffer
  cur : Buffer
  /-- `prev_buf == cur_buf` -/
  linked : Bool
  merged : Bool
  writeLen : ℤ
  fault : Bool

/-- The loop; the list is `temp_buf` and what follows it, and so is the result. -/
def Walk.run (w : Walk) : List Buffer → Walk × List Buffer
  | [] => (w, [])
  | temp :: rest =>
    if w.cur.stop < temp.seq then (w, temp :: rest)
    else match calculateOverlap w.cur.seq w.cur.len temp with
      | some (union, overlapLen) =>
        Walk.run
          { before := w.before, cur := union, linked := true, merged := true
            writeLen := if 0 < overlapLen then w.writeLen - overlapLen else w.writeLen
            fault := w.fault || (w.merged && !w.linked) } rest
      | none =>
        Walk.run
          { w with
            before := temp :: (if w.linked then w.cur :: w.before else w.before)
            linked := false } rest

/-- What the insertion leaves: the list, `cur_buf`, whether `cur_buf->next_buf` is
null, the number of new bytes, and whether a pointer was misused. -/
structure Inserted where
  list : List Buffer
  cur : Buffer
  last : Bool
  writeLen : ℤ
  fault : Bool

/-- The loop and the branch for a segment that met no node. -/
def insertBuffer (new : Buffer) (n : ℤ) (head : List Buffer) : Inserted :=
  let (w, rest) := Walk.run ⟨[], new, false, false, n, false⟩ head
  if w.merged then
    { list := w.before.reverse ++ (if w.linked then w.cur :: rest else rest)
      cur := w.cur, last := w.linked && rest.isEmpty, writeLen := w.writeLen, fault := w.fault }
  else match head with
    | [] => { list := [w.cur], cur := w.cur, last := true, writeLen := w.writeLen, fault := w.fault }
    | b :: _ =>
      if new.seq < b.stop then
        { list := w.cur :: head, cur := w.cur, last := false, writeLen := w.writeLen
          fault := w.fault }
      else
        { list := w.before.reverse ++ w.cur :: rest, cur := w.cur, last := rest.isEmpty
          writeLen := w.writeLen, fault := w.fault || w.before.isEmpty }

/-- The end of the contiguous run after an insertion. -/
def expectedAfter (list : List Buffer) (expected : UInt32) : UInt32 :=
  match list with
  | [] => expected
  | b :: _ => if b.seq ≤ expected ∧ expected < b.stop then b.stop else expected

/-- A window field as the receiver of the packet scales it. -/
def scaledWindow (window : UInt16) (scale : UInt8) : UInt32 := window.toUInt32 <<< scale.toUInt32

namespace DtpContext

/-- `start`: the first byte of the segment that is not in the contiguous run. -/
def segmentStart (c : DtpContext) (seq : UInt32) : UInt32 := max c.nextByteExpected seq

/-- `end`: the segment's end, clipped to the read buffer. -/
def segmentEnd (c : DtpContext) (seq bodyLen : UInt32) : UInt32 :=
  min (c.lastByteRead + u32 c.readBufLen) (seq + bodyLen)

/-- `writeLen`. The source writes `MAX (0, end - start)`, whose comparison is
unsigned, so only the conversion to `int` can make it negative. -/
def segmentLen (c : DtpContext) (seq bodyLen : UInt32) : ℤ :=
  i32 (c.segmentEnd seq bodyLen - c.segmentStart seq)

/-- Take an ACK that `HandleDisconnect` queued out of the queue again. -/
def dropInsertedACK (c : DtpContext) : DtpContext :=
  if c.isACKInserted then
    match c.packetQ with
    | [] => c
    | p :: q =>
      if p.header.hdr.ack then { c with packetQ := q, isACKInserted := false } else c.assert false
  else c

/-- The fields a data packet updates before its bytes are looked at. -/
def noteSegment (c : DtpContext) (h : DtpHdr) : DtpContext :=
  let rcvWindow := scaledWindow h.windowSize c.sendWindowScale
  { c with
    seqNum := h.seq
    rcvWindow := rcvWindow
    isHerWindowZero := c.isHerWindowZero || rcvWindow == 0
    recvAnyData := true }

/-- `tc_nextByteExpected` moves to the end of the first node when it lies in it. -/
def advanceExpected (c : DtpContext) : DtpContext :=
  { c with nextByteExpected := expectedAfter c.readBufHead c.nextByteExpected }

/-- The sanity check of `HandleNormalPacket` and `dtp_recv`: readable data is the
first node. -/
def headMatches (c : DtpContext) : Bool :=
  decide (c.getReadBufDataSize ≤ 0) ||
    match c.readBufHead with
    | [] => false
    | b :: _ => c.lastByteRead == b.seq

/-- Where the segment goes in the list. -/
def insertSegment (c : DtpContext) (seq bodyLen : UInt32) : Inserted :=
  insertBuffer ⟨c.segmentStart seq, u32 (c.segmentLen seq bodyLen)⟩ (c.segmentLen seq bodyLen)
    c.readBufHead

/-- Copy a segment into the read buffer and insert its interval. -/
def storeSegment (c : DtpContext) (d : Datagram) (bodyLen : UInt32) : DtpContext × ℤ :=
  let start := c.segmentStart d.hdr.seq
  let writeLen := c.segmentLen d.hdr.seq bodyLen
  let bufOff := i32 (start - c.lastByteRead)
  let pktOff := i32 (start - d.hdr.seq)
  let r := c.insertSegment d.hdr.seq bodyLen
  let c := { c with
    readBuf := blit c.readBuf bufOff.toNat (fun i => d.body (pktOff.toNat + i)) writeLen.toNat
    readBufHead := r.list
    fault := c.fault || decide (bufOff < 0) || decide (pktOff < 0) || r.fault }
  let c := c.advanceExpected
  let c := { c with lastByteRcvd := if r.last then r.cur.stop else c.lastByteRcvd }
  let c := { c with isMyWindowZero := c.isMyWindowZero || c.advertisedWindow == 0 }
  (c.assert c.headMatches, r.writeLen)

/-- One more packet received. -/
def countPacket (c : DtpContext) : DtpContext := { c with numPacketRcvd := c.numPacketRcvd + 1 }

/-- `HandleNormalPacket`: the context and the number of new bytes. -/
def handleNormalPacket (c : DtpContext) (d : Datagram) (bodyLen : UInt32) : DtpContext × ℤ :=
  if c.state = .synRcvd ∨ c.state = .synSent ∨ d.hdr.syn then (c, 0)
  else
    let c := c.dropInsertedACK.noteSegment d.hdr
    let r := if 0 < c.segmentLen d.hdr.seq bodyLen then c.storeSegment d bodyLen
      else (c, c.segmentLen d.hdr.seq bodyLen)
    (r.1.countPacket, r.2)

end DtpContext
end Cedos.Dtp
