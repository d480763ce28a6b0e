import Cedos.Dtp.Frames

/-!
# Where received bytes are written

`HandleNormalPacket` clips a segment to the part of the read buffer that is still open and
copies what is left. The length is computed as an unsigned difference and then read as an
`int`. While both ends are less than `2 ^ 31` apart that is what was meant; further apart the
difference of an empty part comes out positive, and the copy goes out of the buffer.
-/

namespace Cedos.Dtp

open DtpContext

/-- The arguments of a `memcpy`: offsets into the read buffer and the payload, and a length. -/
structure Memcpy where
  dst : ℤ
  src : ℤ
  len : ℤ
  deriving DecidableEq, Repr

/-- The bytes go to the open part of the read buffer and come from the payload. -/
structure Memcpy.InBounds (m : Memcpy) (c : DtpContext) (d : Datagram) : Prop where
  open_le : (c.nextByteExpected.toNat : ℤ) - c.lastByteRead.toNat ≤ m.dst
  le_buf : m.dst + m.len ≤ c.readBufLen
  src_nonneg : 0 ≤ m.src
  le_payload : m.src + m.len ≤ getPayloadLen d

/-- What `HandleNormalPacket` copies for a packet with data. -/
def DtpContext.memcpyOf (c : DtpContext) (d : Datagram) : Option Memcpy :=
  let bodyLen := u32 (getPayloadLen d)
  if c.state = .synRcvd ∨ c.state = .synSent ∨ d.hdr.syn then none
  else if 0 < c.segmentLen d.hdr.seq bodyLen then
    some ⟨i32 (c.segmentStart d.hdr.seq - c.lastByteRead), i32 (c.segmentStart d.hdr.seq - d.hdr.seq),
      c.segmentLen d.hdr.seq bodyLen⟩
  else none

/-- The copy itself. -/
def Memcpy.run (m : Option Memcpy) (d : Datagram) (buf : ℕ → UInt8) : ℕ → UInt8 :=
  match m with
  | none => buf
  | some m => blit buf m.dst.toNat (fun i => d.body (m.src.toNat + i)) m.len.toNat

/-- The order of the receive offsets, and that none of them wraps around. -/
structure ReceiveOffsets (c : DtpContext) : Prop where
  len_nonneg : 0 ≤ c.readBufLen
  len_lt : c.readBufLen < 2147483648
  read_le : c.lastByteRead ≤ c.nextByteExpected
  expected_le : (c.nextByteExpected.toNat : ℤ) ≤ c.lastByteRead.toNat + c.readBufLen
  nowrap : (c.lastByteRead.toNat : ℤ) + c.readBufLen < 4294967296

/-- The segment does not wrap around, does not start more than `2 ^ 31` after the buffer and
does not end more than `2 ^ 31` before the next byte expected. -/
structure InReach (c : DtpContext) (d : Datagram) : Prop where
  nowrap : (d.hdr.seq.toNat : ℤ) + getPayloadLen d < 4294967296
  not_after : (d.hdr.seq.toNat : ℤ) ≤ c.lastByteRead.toNat + c.readBufLen + 2147483648
  not_before : (c.nextByteExpected.toNat : ℤ) ≤ d.hdr.seq.toNat + getPayloadLen d + 2147483648

section Bounds
variable {c : DtpContext} {d : Datagram}

/-- What `HandleNormalPacket` does first is not about the read buffer. -/
theorem toRecvSide_noteSegment (c : DtpContext) (h : DtpHdr) :
    (c.dropInsertedACK.noteSegment h).toRecvSide = c.toRecvSide := by
  rcases dropInsertedACK_cases c with heq | heq | ⟨p, q, -, heq⟩ <;> simp [heq, noteSegment, DtpContext.assert]

/-- The copy is what a data packet does to the read buffer. -/
theorem readBuf_processPacket (hd : 0 < getPayloadLen d) :
    (c.processPacket d).readBuf = Memcpy.run (c.memcpyOf d) d c.readBuf := by
  have hnote := toRecvSide_noteSegment c d.hdr
  simp only [processPacket, hd, if_true, handleNormalPacket, memcpyOf]
  by_cases hs : c.state = .synRcvd ∨ c.state = .synSent ∨ d.hdr.syn = true
  · simp [hs, Memcpy.run]
  · simp only [hs, if_false]
    generalize c.dropInsertedACK.noteSegment d.hdr = c₁ at hnote
    have hlen (seq n : UInt32) : c₁.segmentLen seq n = c.segmentLen seq n := by
      simp only [segmentLen, segmentEnd, segmentStart, hnote]
    have hstart (seq : UInt32) : c₁.segmentStart seq = c.segmentStart seq := by
      simp only [segmentStart, hnote]
    rw [hlen]
    split_ifs
    · change (c₁.storeSegment d _).1.readBuf = _
      simp only [storeSegment, Memcpy.run, hlen, hstart, hnote]
      rfl
    · exact congrArg RecvSide.readBuf hnote

theorem getPayloadLen_le (hlen : d.len ≤ mtu) : getPayloadLen d ≤ 1472 := by
  have hmtu : (d.len : ℤ) ≤ (1472 : ℕ) := by exact_mod_cast hlen
  simp only [getPayloadLen]
  omega

/-- Both ends of the clipped segment. -/
theorem segment_bounds (h : ReceiveOffsets c) (hd : 0 < getPayloadLen d) (hlen : d.len ≤ mtu) :
    ((c.segmentStart d.hdr.seq).toNat : ℤ) = max (c.nextByteExpected.toNat : ℤ) d.hdr.seq.toNat ∧
    ((c.segmentEnd d.hdr.seq (u32 (getPayloadLen d))).toNat : ℤ) = min ((c.lastByteRead.toNat : ℤ) + c.readBufLen)
    ((d.hdr.seq.toNat + getPayloadLen d) % 4294967296) := by
  have hshort := getPayloadLen_le hlen
  have hnowrap := h.nowrap
  have hnonneg := h.len_nonneg
  constructor
  · rw [segmentStart, toNat_max]
    push_cast
    rfl
  · have hsum : ((d.hdr.seq + u32 (getPayloadLen d)).toNat : ℤ) = (d.hdr.seq.toNat + getPayloadLen d) % 4294967296 := by
      rw [UInt32.toNat_add, toNat_u32 hd.le (by omega)]
      omega
    rw [segmentEnd, toNat_min, toNat_add_u32 hnonneg hnowrap]
    push_cast
    rw [hsum, Int.toNat_of_nonneg hnonneg]

/-- In reach, what is copied is the part of the segment that the buffer has room for. -/
theorem memcpy_inBounds (h : ReceiveOffsets c) (hd : 0 < getPayloadLen d) (hlen : d.len ≤ mtu)
    (hreach : InReach c d) {m : Memcpy} (hm : c.memcpyOf d = some m) : m.InBounds c d := by
  obtain ⟨hstart, hend⟩ := segment_bounds h hd hlen
  have hread := UInt32.le_iff_toNat_le.mp h.read_le
  have hnowrap := hreach.nowrap
  have hafter := hreach.not_after
  have hbefore := hreach.not_before
  have hexp := h.expected_le
  have hlt := h.len_lt
  have hshort := getPayloadLen_le hlen
  have hsegment : c.segmentLen d.hdr.seq (u32 (getPayloadLen d)) =
      ((c.segmentEnd d.hdr.seq (u32 (getPayloadLen d))).toNat : ℤ) - (c.segmentStart d.hdr.seq).toNat :=
    i32_sub_near (by omega) (by omega)
  simp only [memcpyOf] at hm
  split_ifs at hm with hs hpos
  rw [hsegment] at hpos hm
  rw [i32_sub_near (by omega) (by omega), i32_sub_near (by omega) (by omega)] at hm
  simp only [Option.some.injEq] at hm
  subst hm
  constructor <;> dsimp only <;> omega

/-- Out of reach, something is copied, and it goes out of the buffer. -/
theorem memcpy_outOfBounds (h : ReceiveOffsets c) (hd : 0 < getPayloadLen d) (hlen : d.len ≤ mtu)
    (hs : ¬(c.state = .synRcvd ∨ c.state = .synSent ∨ d.hdr.syn = true)) (hreach : ¬InReach c d) :
    ∃ m, c.memcpyOf d = some m ∧ ¬m.InBounds c d := by
  obtain ⟨hstart, hend⟩ := segment_bounds h hd hlen
  have hread := UInt32.le_iff_toNat_le.mp h.read_le
  have hexp := h.expected_le
  have hnowrap := h.nowrap
  have hshort := getPayloadLen_le hlen
  have hseq := toNat_lt_word d.hdr.seq
  have hfar : ((c.segmentEnd d.hdr.seq (u32 (getPayloadLen d))).toNat : ℤ) -
      (c.segmentStart d.hdr.seq).toNat < -2147483648 := by
    by_contra hnear
    exact hreach ⟨by omega, by omega, by omega⟩
  have hsegment : c.segmentLen d.hdr.seq (u32 (getPayloadLen d)) =
      ((c.segmentEnd d.hdr.seq (u32 (getPayloadLen d))).toNat : ℤ) -
        (c.segmentStart d.hdr.seq).toNat + 4294967296 := i32_sub_below hfar
  have hpos : 0 < c.segmentLen d.hdr.seq (u32 (getPayloadLen d)) := by
    have hstart' := toNat_lt_word (c.segmentStart d.hdr.seq)
    omega
  have hcopy : c.memcpyOf d = some ⟨i32 (c.segmentStart d.hdr.seq - c.lastByteRead),
      i32 (c.segmentStart d.hdr.seq - d.hdr.seq), c.segmentLen d.hdr.seq (u32 (getPayloadLen d))⟩ := by
    simp only [memcpyOf, hs, hpos, if_false, if_true]
  refine ⟨_, hcopy, ?_⟩
  rintro ⟨hopen, hbuf, -, -⟩
  dsimp only at hopen hbuf
  -- the destination lies before the buffer or the copy runs past its end
  by_cases hdst : ((c.segmentStart d.hdr.seq).toNat : ℤ) - c.lastByteRead.toNat < 2147483648
  · rw [i32_sub_near (by omega) hdst, hsegment] at hbuf
    omega
  · rw [i32_sub_above (by omega)] at hopen
    omega

/-- A data packet is copied by one `memcpy`, which stays in the open part of the read buffer
and in the payload just for the sequence numbers in reach. -/
theorem received_bytes_in_bounds_iff (h : ReceiveOffsets c) (hd : 0 < getPayloadLen d)
    (hlen : d.len ≤ mtu) (hs : ¬(c.state = .synRcvd ∨ c.state = .synSent ∨ d.hdr.syn = true)) :
    (c.processPacket d).readBuf = Memcpy.run (c.memcpyOf d) d c.readBuf ∧
      ((∀ m, c.memcpyOf d = some m → m.InBounds c d) ↔ InReach c d) := by
  refine ⟨readBuf_processPacket hd, ?_⟩
  constructor
  · intro hall
    by_contra hreach
    obtain ⟨m, hm, hout⟩ := memcpy_outOfBounds h hd hlen hs hreach
    exact hout (hall m hm)
  · intro hreach m hm
    exact memcpy_inBounds h hd hlen hreach hm

/-! ## Two segments -/

/-- An established connection that has received nothing. -/
def sampleEmptyBuffer : DtpContext := { dtpCreateContext with state := .established }

/-- A segment of ten bytes with this sequence number. -/
def sampleTenBytes (seq : UInt32) : Datagram where
  hdr := { ack := true, fid := 0, seq := seq, ackSeq := 0, doff := 5, windowSize := 100 }
  len := 30
  opts := fun _ => 0
  body := fun _ => 7

theorem receiveOffsets_sampleEmptyBuffer : ReceiveOffsets sampleEmptyBuffer := by
  constructor <;> decide

/-- A segment after a gap. -/
theorem received_bytes_in_bounds_gap : sampleEmptyBuffer.memcpyOf (sampleTenBytes 100) = some ⟨100, 0, 10⟩ ∧
    Memcpy.InBounds ⟨100, 0, 10⟩ sampleEmptyBuffer (sampleTenBytes 100) := by
  have hcopy : sampleEmptyBuffer.memcpyOf (sampleTenBytes 100) = some ⟨100, 0, 10⟩ := by decide +kernel
  have hbounds := received_bytes_in_bounds_iff (d := sampleTenBytes 100) receiveOffsets_sampleEmptyBuffer
    (by decide) (by decide) (by decide)
  exact ⟨hcopy, hbounds.2.mpr ⟨by decide, by decide, by decide⟩ _ hcopy⟩

/-- A sequence number far beyond the window makes `memcpy` write 268468224 bytes from
268435456 bytes before the read buffer on. -/
theorem far_segment_overruns : ReceiveOffsets sampleEmptyBuffer ∧
    sampleEmptyBuffer.memcpyOf (sampleTenBytes 0xF0000000) = some ⟨-268435456, 0, 268468224⟩ ∧
    ¬Memcpy.InBounds ⟨-268435456, 0, 268468224⟩ sampleEmptyBuffer (sampleTenBytes 0xF0000000) := by
  refine ⟨receiveOffsets_sampleEmptyBuffer, by decide +kernel, ?_⟩
  intro h
  exact absurd h.le_payload (by decide)

end Bounds
end Cedos.Dtp
