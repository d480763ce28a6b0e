import Cedos.Dtp.Ack
import Cedos.Lib.Tiling

/-!
# Headers, datagrams and queued packets

The data offset of a header counts its options and their padding, so the payload of a
datagram is what was sent. A packet of the retransmission queue stands for the
sequence numbers from `tp_seqNum` to `DtpPkt.hi`; the unsigned end `DtpPkt.stop` that
the code compares acknowledgement numbers with is that number as long as nothing wraps.
-/

namespace Cedos.Dtp

/-! ## Headers -/

/-- The data offset counts the header with its padding. -/
def HdrBuf.Wf (h : HdrBuf) : Prop := 4 * h.hdr.doff.val = h.padded

/-- A header without options needs no padding. -/
theorem padded_dtpGenerateHeader (seq ackSeq fid : UInt32) (flags : Flags) (win : UInt32) :
    (dtpGenerateHeader seq ackSeq fid flags win).padded = (dtpGenerateHeader seq ackSeq fid flags win).size := by
  simp [HdrBuf.padded, HdrBuf.size, dtpGenerateHeader, hdrSize]

theorem wf_dtpGenerateHeader (seq ackSeq fid : UInt32) (flags : Flags) (win : UInt32) :
    (dtpGenerateHeader seq ackSeq fid flags win).Wf := by
  simp [HdrBuf.Wf, HdrBuf.padded, HdrBuf.size, dtpGenerateHeader, hdrSize]

/-- The data offset has four bits, so it is right for up to forty bytes of options. -/
theorem wf_dtpAddOptionToHeader {h : HdrBuf} {code : UInt8} {value : List UInt8}
    (hlen : h.opts.length + value.length ≤ 38) : (dtpAddOptionToHeader h code value).Wf := by
  have hopts : (dtpAddOptionToHeader h code value).opts.length =
      h.opts.length + (value.length + 2) := by simp [dtpAddOptionToHeader]
  have hdoff : (dtpAddOptionToHeader h code value).hdr.doff.val =
      (hdrSize + (dtpAddOptionToHeader h code value).opts.length + 3) / 4 % 16 := rfl
  rw [HdrBuf.Wf, HdrBuf.padded, HdrBuf.size, hdoff, hopts, hdrSize]
  omega

theorem hdrSize_le_padded (h : HdrBuf) : hdrSize ≤ h.padded := by
  rw [HdrBuf.padded, HdrBuf.size, hdrSize]
  omega

theorem HdrBuf.Wf.padded_le {h : HdrBuf} (hw : h.Wf) : h.padded ≤ 60 := by
  have hdoff := h.hdr.doff.isLt
  rw [← hw]
  omega

theorem getPayloadLen_mkDatagram {h : HdrBuf} (hw : h.Wf) (bytes : List UInt8) :
    getPayloadLen (mkDatagram h bytes) = bytes.length := by
  have hlen : getHeaderLen (mkDatagram h bytes) = h.padded := hw
  rw [getPayloadLen, hlen]
  simp [mkDatagram]

theorem payload_mkDatagram {h : HdrBuf} (hw : h.Wf) (bytes : List UInt8) : (mkDatagram h bytes).payload = bytes := by
  rw [Datagram.payload, getPayloadLen_mkDatagram hw, Int.toNat_natCast]
  exact peek_getD bytes 0

/-- A packet that is neither a challenge nor a response carries no byte at or beyond the
position `n`. -/
def Datagram.EndsBy (n : ℕ) (d : Datagram) : Prop :=
  d.hdr.chg = false → d.hdr.rsp = false → d.payload ≠ [] → d.hdr.seq.toNat + d.payload.length ≤ n

theorem Datagram.EndsBy.mono {d : Datagram} {n m : ℕ} (h : d.EndsBy n) (hle : n ≤ m) :
    d.EndsBy m := fun h0 h1 h2 => (h h0 h1 h2).trans hle

theorem endsBy_control {h : HdrBuf} (hw : h.Wf) (n : ℕ) : (mkDatagram h []).EndsBy n :=
  fun _ _ hne => absurd (payload_mkDatagram hw []) hne

/-- A packet that is neither a challenge nor a response carries what the stream has at its
sequence number, and is no FIN. -/
def Datagram.Carries (stream : List UInt8) (d : Datagram) : Prop :=
  d.hdr.chg = false → d.hdr.rsp = false → d.hdr.fin = false ∧ d.hdr.seq.toNat + d.payload.length ≤ stream.length ∧
      d.payload = (stream.drop d.hdr.seq.toNat).take d.payload.length

theorem Datagram.Carries.endsBy {stream : List UInt8} {d : Datagram} (h : d.Carries stream) :
    d.EndsBy stream.length := fun h0 h1 _ => (h h0 h1).2.1

/-- A challenge, a response, or a packet without payload that is no FIN. -/
def Datagram.Control (sent : UInt32) (d : Datagram) : Prop :=
  d.hdr.chg = true ∨ d.hdr.rsp = true ∨ (d.hdr.fin = false ∧ d.payload = [] ∧ d.hdr.seq ≤ sent)

theorem Datagram.Control.carries {d : Datagram} {s : UInt32} {stream : List UInt8}
    (h : d.Control s) (hs : s.toNat ≤ stream.length) : d.Carries stream := by
  intro hchg hrsp
  obtain hc | hc | ⟨hfin, hpay, hseq⟩ := h
  · exact absurd (hchg.symm.trans hc) Bool.false_ne_true
  · exact absurd (hrsp.symm.trans hc) Bool.false_ne_true
  · rw [UInt32.le_iff_toNat_le] at hseq
    rw [hpay]
    exact ⟨hfin, by simpa using hseq.trans hs, by simp⟩

theorem Datagram.Control.endsBy {d : Datagram} {s : UInt32} (h : d.Control s) (n : ℕ) : d.EndsBy n := by
  intro hchg hrsp hpay
  obtain hc | hc | ⟨-, hnil, -⟩ := h
  · exact absurd (hchg.symm.trans hc) Bool.false_ne_true
  · exact absurd (hrsp.symm.trans hc) Bool.false_ne_true
  · exact absurd hnil hpay

/-- ACKs, probes and announcements carry `tc_lastByteSent` and no payload. -/
theorem control_mkDatagram {flags : Flags} (hf : flags.fin = false) (seq ackSeq fid win : UInt32) :
    (mkDatagram (dtpGenerateHeader seq ackSeq fid flags win) []).Control seq :=
  Or.inr (Or.inr ⟨hf, payload_mkDatagram (wf_dtpGenerateHeader ..) [], UInt32.le_refl _⟩)

/-! ## Queued packets -/

namespace DtpPkt

/-- The sequence number after the last one of the packet. -/
def hi (p : DtpPkt) : ℕ := p.seqNum.toNat + p.payloadLen.toNat

/-- The sequence numbers of the packet. -/
def ival (p : DtpPkt) : Ival ℕ := ⟨p.seqNum.toNat, p.hi⟩

/-- The packet agrees with its stored header and ends by `n`; a FIN ends there. -/
structure Sound (n : ℕ) (p : DtpPkt) : Prop where
  seq : p.header.hdr.seq = p.seqNum
  header : p.header.Wf
  headerLen : p.headerLen = p.header.padded
  payload : 0 ≤ p.payloadLen
  hi_le : p.hi ≤ n
  fin : p.header.hdr.fin = true → p.hi = n

variable {n : ℕ} {p : DtpPkt}

/-- The end that the code computes, if it does not wrap. -/
theorem toNat_stop (hpay : 0 ≤ p.payloadLen) (h : p.hi < 4294967296) : p.stop.toNat = p.hi := by
  have hstop : p.stop = p.seqNum + u32 p.payloadLen := by
    rw [stop, payloadLen, ← u32_sub_u32]
    apply UInt32.toNat_inj.mp
    rw [UInt32.toNat_sub, UInt32.toNat_add, UInt32.toNat_add, UInt32.toNat_sub]
    omega
  rw [hi] at h
  rw [hstop, toNat_add_u32 hpay (by omega), hi]

theorem Sound.toNat_stop (h : p.Sound n) (hn : n < 2147483648) : p.stop.toNat = p.hi := by
  have hle := h.hi_le
  exact DtpPkt.toNat_stop h.payload (by omega)

theorem Sound.seqNum_lt (h : p.Sound n) (hn : n < 2147483648) : p.seqNum.toNat < 2147483648 := by
  have hle := h.hi_le
  rw [hi] at hle
  omega

theorem Sound.mono (h : p.Sound n) {m : ℕ} (hle : n ≤ m) (hfin : p.header.hdr.fin = false) : p.Sound m where
  seq := h.seq
  header := h.header
  headerLen := h.headerLen
  payload := h.payload
  hi_le := h.hi_le.trans hle
  fin hf := by rw [hfin] at hf; cases hf

@[simp] theorem fin_trim (p : DtpPkt) (k : ℤ) : (p.trim k).header.hdr.fin = p.header.hdr.fin := rfl

@[simp] theorem isRetrans_trim (p : DtpPkt) (k : ℤ) : (p.trim k).isRetrans = p.isRetrans := rfl

theorem payloadLen_trim (p : DtpPkt) (k : ℤ) : (p.trim k).payloadLen = p.payloadLen - k := by
  simp only [payloadLen, trim]
  ring

/-- Trimming moves the front of the packet to the ACK number and leaves its end. -/
theorem Sound.trim_ival (h : p.Sound n) (hn : n < 2147483648) {ack : UInt32} (hlt : ack.toNat < p.hi) :
    (p.trim (i32 (ack - p.seqNum))).ival = ⟨ack.toNat, p.hi⟩ ∧ 0 < (p.trim (i32 (ack - p.seqNum))).payloadLen := by
  have hle := h.hi_le
  have hpay := h.payload
  have hmove : i32 (ack - p.seqNum) = (ack.toNat : ℤ) - p.seqNum.toNat :=
    i32_sub (by omega) (h.seqNum_lt hn)
  have hseq : (p.trim (i32 (ack - p.seqNum))).seqNum = ack := by
    have hu : u32 (i32 (ack - p.seqNum)) = ack - p.seqNum := by
      rw [hmove]
      apply UInt32.toNat_inj.mp
      rw [u32, UInt32.toNat_ofNat', UInt32.toNat_sub]
      have h0 := h.seqNum_lt hn
      omega
    change p.seqNum + u32 (i32 (ack - p.seqNum)) = ack
    rw [hu, UInt32.add_comm, UInt32.sub_add_cancel]
  have hlen := payloadLen_trim p (i32 (ack - p.seqNum))
  rw [hi] at hlt
  constructor
  · rw [ival, hi, hseq, hlen, hmove, hi]
    congr 1
    omega
  · rw [hlen, hmove]
    omega

theorem Sound.trim (h : p.Sound n) (hn : n < 2147483648) {ack : UInt32}
    (hlt : ack.toNat < p.hi) : (p.trim (i32 (ack - p.seqNum))).Sound n := by
  obtain ⟨hival, hpos⟩ := h.trim_ival hn hlt
  have hhi : (p.trim (i32 (ack - p.seqNum))).hi = p.hi := congrArg Ival.hi hival
  exact ⟨rfl, h.header, h.headerLen, hpos.le, hhi ▸ h.hi_le, fun hf => hhi ▸ h.fin hf⟩

/-- The retransmission mark is of no account for soundness. -/
theorem Sound.retrans (h : p.Sound n) (b : Bool) : Sound n { p with isRetrans := b } :=
  ⟨h.seq, h.header, h.headerLen, h.payload, h.hi_le, h.fin⟩

end DtpPkt
end Cedos.Dtp
