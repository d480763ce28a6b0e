import Cedos.Dtp.Handshake
import Cedos.Dtp.Options

/-!
# Headers as bytes

`DTPGenerateHeader` and `DTPAddOptionToHeader` write into a packet buffer that may hold anything,
and a receiver casts its own buffer to `struct dtp_hdr`. Here both are functions on memory. The
fields of the header are in network order, so they read back on any host. The values of the options
are copied as they lie in memory, so they read back on a host of the same byte order.

`HdrBuf` and `Datagram` are what these bytes stand for, as long as `Represents` holds: the
composition steps keep it, and a receiver that has the bytes has the datagram.
-/

namespace Cedos.Dtp.Raw

/-! ## Composing -/

/-- A bit field of one bit: byte of the header, and position in the byte. -/
def setFlag (p : ℕ → UInt8) (byte bit : ℕ) (v : Bool) : ℕ → UInt8 :=
  Function.update p byte (setBit (p byte) bit v)

/-- `hdr->doff = n`, four bits. -/
def setDoff (p : ℕ → UInt8) (n : ℕ) : ℕ → UInt8 := Function.update p 12 (setLow (p 12) n)

/-- The flags of `DTPGenerateHeader`; the bit fields fill two bytes from the lowest bit on, whatever
the byte order of the host. -/
def setFlags (p : ℕ → UInt8) (flags : Flags) : ℕ → UInt8 :=
  let p := setFlag p 12 7 flags.chg
  let p := setFlag p 13 0 flags.rsp
  let p := setFlag p 13 1 flags.auth
  let p := setFlag p 13 3 flags.ack
  let p := setFlag p 13 5 flags.rst
  let p := setFlag p 13 6 flags.syn
  setFlag p 13 7 flags.fin

/-- `DTPGenerateHeader`: the buffer, and the size of the header. -/
def dtpGenerateHeader (p : ℕ → UInt8) (seq ackSeq fid : UInt32) (flags : Flags) (winSize : UInt32) :
    (ℕ → UInt8) × ℕ :=
  let p := store p 0 (ByteOrder.big.bytes32 fid)
  let p := store p 4 (ByteOrder.big.bytes32 seq)
  let p := store p 8 (ByteOrder.big.bytes32 ackSeq)
  let p := setFlags p flags
  let p := store p 14 (ByteOrder.big.bytes16 (if winSize > 0x7FFF then 0x7FFF else winSize.toUInt16))
  (setDoff p ((hdrSize + 3) / 4), hdrSize)

/-- `DTPOPT_MSS` and `DTPOPT_SACK_PERM`, which no packet carries. -/
def optMss : UInt8 := 2
def optSackPerm : UInt8 := 4

/-- The size `DTPAddOptionToHeader` finds for an option code. For any other code the source asserts,
and leaves the size undefined. -/
def olen (opcode : UInt8) : UInt8 :=
  if opcode = optMss then 4
  else if opcode = optWinScale then olenWinScale
  else if opcode = optSackPerm then 2
  else if opcode = optHostId then olenHostId
  else if opcode = optPort then olenPort
  else if opcode = optDeadline then olenDeadline
  else 0

/-- `DTPAddOptionToHeader` with the bytes at `op_ptr`. -/
def dtpAddOptionToHeader (p : ℕ → UInt8) (offset : ℕ) (opcode : UInt8) (opPtr : List UInt8) :
    (ℕ → UInt8) × ℕ :=
  let opsize := (olen opcode).toNat
  let p := Function.update p offset opcode
  let p := Function.update p (offset + 1) (olen opcode)
  let p := if 2 < opsize then blit p (offset + 2) (fun i => opPtr.getD i 0) (opsize - 2) else p
  let size := offset + opsize
  let p := blit p size (fun _ => 0) (4 - size % 4)
  (setDoff p ((size + 3) / 4), size)

/-! ## Receiving -/

/-- `ntohl (GetFlowID (p))`. -/
def getFlowID (p : ℕ → UInt8) : UInt32 := ByteOrder.big.word32 p 0

/-- `ntohl (GetSeqNum (p))`. -/
def getSeqNum (p : ℕ → UInt8) : UInt32 := ByteOrder.big.word32 p 4

/-- `ntohl (GetAckNum (p))`. -/
def getAckNum (p : ℕ → UInt8) : UInt32 := ByteOrder.big.word32 p 8

/-- `IsCHGPacket` … `IsFINPacket`. -/
def getFlags (p : ℕ → UInt8) : Flags where
  chg := bitAt (p 12) 7
  rsp := bitAt (p 13) 0
  auth := bitAt (p 13) 1
  ack := bitAt (p 13) 3
  rst := bitAt (p 13) 5
  syn := bitAt (p 13) 6
  fin := bitAt (p 13) 7

/-- `ntohs (GetRcvdWindow (p))`. -/
def getRcvdWindow (p : ℕ → UInt8) : UInt16 := ByteOrder.big.word16 p 14

/-- `GetHeaderLen`. -/
def getHeaderLen (p : ℕ → UInt8) : ℕ := 4 * lowOf (p 12)

/-- `GetPayloadLen`. -/
def getPayloadLen (p : ℕ → UInt8) (total : ℕ) : ℤ := (total : ℤ) - getHeaderLen p

def header (p : ℕ → UInt8) : DtpHdr where
  toFlags := getFlags p
  fid := getFlowID p
  seq := getSeqNum p
  ackSeq := getAckNum p
  doff := Fin.ofNat 16 (lowOf (p 12))
  windowSize := getRcvdWindow p

/-- The datagram in a buffer of which `recvfrom` has filled `n` bytes. -/
def received (p : ℕ → UInt8) (n : ℕ) : Datagram where
  hdr := header p
  len := n
  opts := fun i => p (hdrSize + i)
  body := fun i => p (getHeaderLen p + i)

/-- The length of the option list. -/
def optLen (p : ℕ → UInt8) : ℤ := (getHeaderLen p : ℤ) - hdrSize

/-- `DTPGetOption`. -/
def dtpGetOption (o : ByteOrder) (p : ℕ → UInt8) (hid : List UInt8) (deadline : Option UInt32) :
    Except ParseFault (List UInt8 × Option UInt32) :=
  walkOptions p (getVisit o p) ((optLen p).toNat + 1) hdrSize (optLen p) (hid, deadline)

/-- `DTPParseOption`. -/
def dtpParseOption (o : ByteOrder) (p : ℕ → UInt8) (scale : UInt8) (port : UInt16) :
    Except ParseFault (UInt8 × UInt16) :=
  walkOptions p (parseVisit o p) ((optLen p).toNat + 1) hdrSize (optLen p) (scale, port)

/-! ## The parsers read the datagram -/

section Parsers
variable {p : ℕ → UInt8} {n : ℕ}

theorem getHeaderLen_received : Dtp.getHeaderLen (received p n) = getHeaderLen p := by
  have hlt : lowOf (p 12) < 16 := by
    rw [lowOf, UInt8.toNat_and]
    exact Nat.and_lt_two_pow _ (n := 4) (by decide)
  simp [Dtp.getHeaderLen, received, header, getHeaderLen, Nat.mod_eq_of_lt hlt]

theorem optLen_received : Dtp.optLen (received p n) = optLen p := by
  rw [Dtp.optLen, getHeaderLen_received, optLen]

/-- A walk over memory seen from the end of the fixed header on. -/
theorem walkOptions_shift {σ : Type} {visit visit' : σ → UInt8 → UInt8 → ℕ → Except ParseFault σ}
    (hv : ∀ s c z j, visit' s c z j = visit s c z (hdrSize + j)) (fuel i : ℕ) (len : ℤ) (s : σ) :
    walkOptions (fun j => p (hdrSize + j)) visit' fuel i len s = walkOptions p visit fuel (hdrSize + i) len s := by
  induction fuel generalizing i len s with
  | zero => rfl
  | succ fuel ih => simp only [walkOptions, ih, hv, Nat.add_assoc]

theorem dtpGetOption_received (hid : List UInt8) (deadline : Option UInt32) :
    Dtp.dtpGetOption (received p n) hid deadline = dtpGetOption .little p hid deadline := by
  rw [Dtp.dtpGetOption, getOptionLoop_eq _ _ _ _ (hid, deadline), optLen_received]
  refine walkOptions_shift (fun s c z j => ?_) _ 0 _ _
  have hword : ByteOrder.little.word32 (received p n).opts j = ByteOrder.little.word32 p (hdrSize + j) :=
    ByteOrder.little.word32_congr fun i _ => by rw [received, Nat.add_assoc]
  have hpeek : peek (received p n).opts j sha1DigestLength = peek p (hdrSize + j) sha1DigestLength :=
    peek_congr fun i _ => by rw [received, Nat.add_assoc]
  simp only [getVisit, hword, hpeek]

theorem dtpParseOption_received (scale : UInt8) (port : UInt16) :
    Dtp.dtpParseOption (received p n) scale port = dtpParseOption .little p scale port := by
  rw [Dtp.dtpParseOption, parseOptionLoop_eq _ _ _ _ (scale, port), optLen_received]
  refine walkOptions_shift (fun s c z j => ?_) _ 0 _ _
  have hword : ByteOrder.little.word16 (received p n).opts j = ByteOrder.little.word16 p (hdrSize + j) :=
    ByteOrder.little.word16_congr fun i _ => by rw [received, Nat.add_assoc]
  have hbyte : (received p n).opts j = p (hdrSize + j) := rfl
  simp only [parseVisit, hword, hbyte]

end Parsers

/-! ## What has been composed -/

/-- The buffer and the size hold the header `h`, padded with zeros to a multiple of four. -/
structure Represents (r : (ℕ → UInt8) × ℕ) (h : HdrBuf) : Prop where
  size : r.2 = h.size
  hdr : header r.1 = h.hdr
  opts : LiesAt r.1 hdrSize h.opts
  pad : ∀ i, h.size ≤ i → i < h.padded → r.1 i = 0

section Frame
variable {p : ℕ → UInt8} {i : ℕ} {l : List UInt8}

theorem setDoff_of_ne (n : ℕ) {j : ℕ} (hj : j ≠ 12) : setDoff p n j = p j :=
  Function.update_of_ne hj _ _

theorem setFlags_of_ne (flags : Flags) {j : ℕ} (h12 : j ≠ 12) (h13 : j ≠ 13) : setFlags p flags j = p j := by
  simp only [setFlags, setFlag, Function.update_of_ne h12, Function.update_of_ne h13]

/-- The bit fields lie in the bytes 12 and 13. -/
theorem liesAt_setFlags (h : LiesAt p i l) (flags : Flags) (hi : i + l.length ≤ 12 ∨ 14 ≤ i) :
    LiesAt (setFlags p flags) i l :=
  h.congr fun _ _ => setFlags_of_ne flags (by omega) (by omega)

theorem liesAt_setDoff (h : LiesAt p i l) (n : ℕ) (hi : i + l.length ≤ 12 ∨ 13 ≤ i) : LiesAt (setDoff p n) i l :=
  h.congr fun _ _ => setDoff_of_ne n (by omega)

end Frame

section Generate
variable (p : ℕ → UInt8) (seq ackSeq fid : UInt32) (flags : Flags) (winSize : UInt32)

theorem liesAt_dtpGenerateHeader :
    LiesAt (dtpGenerateHeader p seq ackSeq fid flags winSize).1 0 (ByteOrder.big.bytes32 fid) ∧
      LiesAt (dtpGenerateHeader p seq ackSeq fid flags winSize).1 4 (ByteOrder.big.bytes32 seq) ∧
      LiesAt (dtpGenerateHeader p seq ackSeq fid flags winSize).1 8 (ByteOrder.big.bytes32 ackSeq) ∧
      LiesAt (dtpGenerateHeader p seq ackSeq fid flags winSize).1 14
        (ByteOrder.big.bytes16 (if winSize > 0x7FFF then 0x7FFF else winSize.toUInt16)) := by
  simp only [dtpGenerateHeader]
  refine ⟨?_, ?_, ?_, ?_⟩
  · have hfid := liesAt_store p 0 (ByteOrder.big.bytes32 fid)
    have hseq := hfid.store 4 (ByteOrder.big.bytes32 seq) (by simp)
    have hack := hseq.store 8 (ByteOrder.big.bytes32 ackSeq) (by simp)
    have hflags := liesAt_setFlags hack flags (by simp)
    exact liesAt_setDoff (hflags.store 14 _ (by simp)) _ (by simp)
  · have hseq := liesAt_store (store p 0 (ByteOrder.big.bytes32 fid)) 4 (ByteOrder.big.bytes32 seq)
    have hack := hseq.store 8 (ByteOrder.big.bytes32 ackSeq) (by simp)
    have hflags := liesAt_setFlags hack flags (by simp)
    exact liesAt_setDoff (hflags.store 14 _ (by simp)) _ (by simp)
  · have hack := liesAt_store
      (store (store p 0 (ByteOrder.big.bytes32 fid)) 4 (ByteOrder.big.bytes32 seq)) 8
      (ByteOrder.big.bytes32 ackSeq)
    have hflags := liesAt_setFlags hack flags (by simp)
    exact liesAt_setDoff (hflags.store 14 _ (by simp)) _ (by simp)
  · exact liesAt_setDoff (liesAt_store _ 14 _) _ (by simp)

theorem getFlags_dtpGenerateHeader : getFlags (dtpGenerateHeader p seq ackSeq fid flags winSize).1 = flags := by
  simp [getFlags, dtpGenerateHeader, setDoff, setFlags, setFlag, store, blit, bitAt_setLow, bitAt_setBit]

theorem represents_dtpGenerateHeader : Represents (dtpGenerateHeader p seq ackSeq fid flags winSize)
    (Dtp.dtpGenerateHeader seq ackSeq fid flags winSize) where
  size := rfl
  hdr := by
    obtain ⟨hfid, hseq, hack, hwin⟩ := liesAt_dtpGenerateHeader p seq ackSeq fid flags winSize
    have hdoff : lowOf ((dtpGenerateHeader p seq ackSeq fid flags winSize).1 12) = 5 := by
      simp [dtpGenerateHeader, setDoff, hdrSize]
    simp only [header, getFlowID, getSeqNum, getAckNum, getRcvdWindow, hdoff,
      ByteOrder.word32_bytes32 hfid, ByteOrder.word32_bytes32 hseq, ByteOrder.word32_bytes32 hack,
      ByteOrder.word16_bytes16 hwin, getFlags_dtpGenerateHeader]
    rfl
  opts := by
    intro j hj
    simp [Dtp.dtpGenerateHeader] at hj
  pad := by
    intro i h0 h1
    simp [HdrBuf.size, HdrBuf.padded, Dtp.dtpGenerateHeader, hdrSize] at h0 h1
    omega

end Generate

/-- Nothing past the window is a field of the header. -/
theorem header_congr {p p' : ℕ → UInt8} (h : ∀ j < 16, p j = p' j) : header p = header p' := by
  have hword : ∀ i, i + 4 ≤ 16 → ByteOrder.big.word32 p i = ByteOrder.big.word32 p' i := by
    intro i hi
    exact ByteOrder.big.word32_congr fun j hj => h (i + j) (by omega)
  have hwin : ByteOrder.big.word16 p 14 = ByteOrder.big.word16 p' 14 :=
    ByteOrder.big.word16_congr fun j hj => h (14 + j) (by omega)
  simp only [header, getFlags, getFlowID, getSeqNum, getAckNum, getRcvdWindow, hwin,
    hword 0 (by omega), hword 4 (by omega), hword 8 (by omega), h 12 (by omega), h 13 (by omega)]

theorem header_setDoff (p : ℕ → UInt8) (n : ℕ) : header (setDoff p n) = { header p with doff := Fin.ofNat 16 n } := by
  have hdoff : setDoff p n 12 = setLow (p 12) n := Function.update_self 12 _ p
  have hword : ∀ i, i + 4 ≤ 12 → ByteOrder.big.word32 (setDoff p n) i = ByteOrder.big.word32 p i := by
    intro i hi
    exact ByteOrder.big.word32_congr fun j hj => setDoff_of_ne n (by omega)
  have hwin : ByteOrder.big.word16 (setDoff p n) 14 = ByteOrder.big.word16 p 14 :=
    ByteOrder.big.word16_congr fun j hj => setDoff_of_ne n (by omega)
  have hmod : Fin.ofNat 16 (n % 16) = Fin.ofNat 16 n := by
    ext
    simp
  simp only [header, getFlags, getFlowID, getSeqNum, getAckNum, getRcvdWindow, hwin, hdoff,
    hword 0 (by omega), hword 4 (by omega), hword 8 (by omega), setDoff_of_ne n (show 13 ≠ 12 by omega), lowOf_setLow, hmod,
    bitAt_setLow (p 12) n (j := 7) (by omega) (by omega)]

section AddOption
variable {r : (ℕ → UInt8) × ℕ} {h : HdrBuf} {code : UInt8} {value : List UInt8}

/-- The bytes below the option stay, but for the data offset. -/
theorem dtpAddOptionToHeader_below {p : ℕ → UInt8} {offset j : ℕ} (hj : j < offset) (h12 : j ≠ 12) :
    (dtpAddOptionToHeader p offset code value).1 j = p j := by
  simp only [dtpAddOptionToHeader, setDoff]
  rw [Function.update_of_ne h12, blit_of_notMem (by omega)]
  split_ifs
  · rw [blit_of_notMem (by omega), Function.update_of_ne (by omega), Function.update_of_ne (by omega)]
  · rw [Function.update_of_ne (by omega), Function.update_of_ne (by omega)]

theorem liesAt_dtpAddOptionToHeader {p : ℕ → UInt8} {offset : ℕ} (hoff : hdrSize ≤ offset)
    (hlen : value.length + 2 = (olen code).toNat) :
    LiesAt (dtpAddOptionToHeader p offset code value).1 offset (Opt.bytes ⟨code, value⟩) := by
  have hsize : UInt8.ofNat (value.length + 2) = olen code := by rw [hlen, UInt8.ofNat_toNat]
  have h20 : 20 ≤ offset := hoff
  intro j hj
  simp only [Opt.bytes, List.length_cons] at hj
  simp only [dtpAddOptionToHeader, setDoff, Opt.bytes, hsize]
  rw [Function.update_of_ne (by omega), blit_of_notMem (by omega)]
  rcases j with - | - | j
  · split_ifs
    · rw [blit_of_notMem (by omega)]
      simp
    · simp
  · split_ifs
    · rw [blit_of_notMem (by omega)]
      simp
    · simp
  · rw [if_pos (by omega), blit_of_mem (by omega) (by omega)]
    simp only [List.getD_cons_succ]
    congr 1
    omega

theorem dtpAddOptionToHeader_pad {p : ℕ → UInt8} {offset i : ℕ} (hoff : hdrSize ≤ offset)
    (h0 : offset + (olen code).toNat ≤ i) (h1 : i < (offset + (olen code).toNat + 3) / 4 * 4) :
    (dtpAddOptionToHeader p offset code value).1 i = 0 := by
  have h20 : 20 ≤ offset := hoff
  simp only [dtpAddOptionToHeader, setDoff]
  rw [Function.update_of_ne (by omega), blit_of_mem (by omega) (by omega)]

/-- `DTPAddOptionToHeader` on memory is `DTPAddOptionToHeader` on the header the memory holds. -/
theorem Represents.add (hr : Represents r h) (code : UInt8) (value : List UInt8)
    (hlen : value.length + 2 = (olen code).toNat) :
    Represents (dtpAddOptionToHeader r.1 r.2 code value) (Dtp.dtpAddOptionToHeader h code value) := by
  have hsize : r.2 = hdrSize + h.opts.length := hr.size
  have hsize' : (Dtp.dtpAddOptionToHeader h code value).size = r.2 + (olen code).toNat := by
    simp only [HdrBuf.size, Dtp.dtpAddOptionToHeader, List.length_append, List.length_cons]
    omega
  refine ⟨hsize'.symm, ?_, ?_, ?_⟩
  · have hn : (hdrSize + (Dtp.dtpAddOptionToHeader h code value).opts.length + 3) / 4 =
        (r.2 + (olen code).toNat + 3) / 4 := by
      rw [← hsize', HdrBuf.size]
    -- the data offset is written last, and the option lies behind the fixed part
    have hfixed : ∀ j < 16, (dtpAddOptionToHeader r.1 r.2 code value).1 j =
        setDoff r.1 ((r.2 + (olen code).toNat + 3) / 4) j := by
      intro j hj
      have h20 : hdrSize = 20 := rfl
      by_cases h12 : j = 12
      · subst h12
        simp only [dtpAddOptionToHeader, setDoff, Function.update_self]
        rw [blit_of_notMem (by omega)]
        split_ifs
        · rw [blit_of_notMem (by omega), Function.update_of_ne (by omega), Function.update_of_ne (by omega)]
        · rw [Function.update_of_ne (by omega), Function.update_of_ne (by omega)]
      · rw [dtpAddOptionToHeader_below (by omega) h12, setDoff_of_ne _ h12]
    rw [header_congr hfixed, header_setDoff, hr.hdr, ← hn]
    rfl
  · change LiesAt _ hdrSize (h.opts ++ Opt.bytes ⟨code, value⟩)
    refine LiesAt.append (hr.opts.congr fun j hj => ?_) ?_
    · have h20 : hdrSize = 20 := rfl
      exact dtpAddOptionToHeader_below (by omega) (by omega)
    · rw [← hsize]
      exact liesAt_dtpAddOptionToHeader (by omega) hlen
  · intro i h0 h1
    rw [HdrBuf.padded, hsize'] at h1
    rw [hsize'] at h0
    exact dtpAddOptionToHeader_pad (by omega) h0 h1

theorem Represents.addIf (hr : Represents r h) (P : Prop) [Decidable P] (code : UInt8)
    (value : List UInt8) (hlen : value.length + 2 = (olen code).toNat) :
    Represents (if P then dtpAddOptionToHeader r.1 r.2 code value else r)
      (if P then Dtp.dtpAddOptionToHeader h code value else h) := by
  split_ifs
  · exact hr.add code value hlen
  · exact hr

end AddOption

/-! ## What is received -/

/-- The bytes `sendmsg` takes from the packet and from the payload: `n` is the padded header. -/
def sent (p : ℕ → UInt8) (n : ℕ) (payload : List UInt8) : ℕ → UInt8 := store p n payload

section Receive
variable {r : (ℕ → UInt8) × ℕ} {h : HdrBuf} {os : List Opt} {payload : List UInt8} {buf : ℕ → UInt8}

/-- The receive buffer begins with the bytes that were sent. -/
def Delivered (r : (ℕ → UInt8) × ℕ) (payload : List UInt8) (buf : ℕ → UInt8) : Prop :=
  ∀ i < (r.2 + 3) / 4 * 4 + payload.length, buf i = sent r.1 ((r.2 + 3) / 4 * 4) payload i

theorem Represents.padded (hr : Represents r h) : (r.2 + 3) / 4 * 4 = h.padded := by
  rw [hr.size, HdrBuf.padded]

variable (hd : Delivered r payload buf) (hr : Represents r h)
include hd hr

/-- The header part of the buffer. -/
theorem Delivered.below {i : ℕ} (hi : i < h.padded) : buf i = r.1 i := by
  rw [← hr.padded] at hi
  rw [hd i (by omega), sent, store_of_notMem (Or.inl hi)]

theorem Delivered.header : header buf = h.hdr := by
  have hle : 20 ≤ h.padded := hdrSize_le_padded h
  rw [← hr.hdr]
  exact header_congr fun j hj => hd.below hr (by omega)

theorem Delivered.opts : LiesAt buf hdrSize h.opts := by
  refine hr.opts.congr fun j hj => hd.below hr ?_
  simp only [HdrBuf.padded, HdrBuf.size]
  omega

theorem Delivered.pad {i : ℕ} (h0 : h.size ≤ i) (h1 : i < h.padded) : buf i = 0 := by
  rw [hd.below hr h1, hr.pad i h0 h1]

theorem Delivered.body : LiesAt buf h.padded payload := by
  rw [← hr.padded]
  exact (liesAt_store r.1 _ payload).congr fun j hj => hd _ (by omega)

theorem Delivered.getHeaderLen (hwf : h.Wf) : getHeaderLen buf = h.padded := by
  rw [← getHeaderLen_received (n := 0), Dtp.getHeaderLen, received, hd.header hr]
  exact hwf

/-- A receiver has the datagram `mkDatagram`, byte for byte. -/
theorem Delivered.received (hwf : h.Wf) :
    (received buf (h.padded + payload.length)).hdr = (mkDatagram h payload).hdr ∧
      (∀ i < h.padded + payload.length - hdrSize,
        (received buf (h.padded + payload.length)).opts i = (mkDatagram h payload).opts i) ∧ ∀ i < payload.length,
        (received buf (h.padded + payload.length)).body i = (mkDatagram h payload).body i := by
  refine ⟨hd.header hr, fun i hi => ?_, fun i hi => ?_⟩
  · have hopts := hd.opts hr
    have hpad : LiesAt buf (hdrSize + h.opts.length) (List.replicate (h.padded - h.size) 0) := by
      intro j hj
      simp only [List.length_replicate] at hj
      have hzero : buf (h.size + j) = 0 := hd.pad hr (Nat.le_add_right _ _) (by omega)
      rw [HdrBuf.size] at hzero
      rw [hzero]
      simp [List.getD_eq_getElem?_getD, hj]
    have hbody : LiesAt buf (hdrSize + (h.opts ++ List.replicate (h.padded - h.size) 0).length)
        payload := by
      have hend : hdrSize + (h.opts ++ List.replicate (h.padded - h.size) 0).length = h.padded := by
        simp only [List.length_append, List.length_replicate, HdrBuf.padded, HdrBuf.size]
        omega
      rw [hend]
      exact hd.body hr
    refine (hopts.append hpad).append hbody i ?_
    simp only [List.length_append, List.length_replicate, HdrBuf.padded, HdrBuf.size] at hi ⊢
    omega
  · change buf (Raw.getHeaderLen buf + i) = payload.getD i 0
    rw [hd.getHeaderLen hr hwf]
    exact hd.body hr i hi

/-- Walking over the options of the header. -/
theorem Delivered.walk {σ : Type} {visit : σ → UInt8 → UInt8 → ℕ → Except ParseFault σ}
    {step : σ → Opt → σ} {P : σ → Prop} (hc : h.Carries os)
    (hv : ∀ o ∈ os, ∀ s j, P s → LiesAt buf j o.value →
      visit s o.code (UInt8.ofNat (o.value.length + 2)) j = .ok (step s o) ∧ P (step s o))
    {s : σ} (hP : P s) :
    walkOptions buf visit ((optLen buf).toNat + 1) hdrSize (optLen buf) s = .ok (os.foldl step s) := by
  have hsize : h.size = hdrSize + (encodeOpts os).length := by rw [HdrBuf.size, hc.opts]
  have hoff : optLen buf = (h.padded : ℤ) - hdrSize := by
    rw [optLen, hd.getHeaderLen hr hc.wf]
  have hle : h.size ≤ h.padded := by
    rw [HdrBuf.padded]
    omega
  have hcount := length_le_encodeOpts os
  refine walkOptions_encode os hc.sized hv ?_ (by omega) (fun hlt => ?_) (by omega) hP
  · rw [← hc.opts]
    exact hd.opts hr
  · rw [← hsize]
    exact hd.pad hr (Nat.le_refl _) (by omega)

theorem Delivered.dtpGetOption (hc : h.Carries os) (b : ByteOrder) (hid : List UInt8) {deadline : Option UInt32}
    (hptr : deadline = none → ∀ o ∈ os, o.code ≠ optDeadline) :
    dtpGetOption b buf hid deadline = .ok (os.foldl (getStep b) (hid, deadline)) := by
  refine hd.walk hr hc (P := fun s => s.2.isSome = deadline.isSome) (fun o ho s j hs hvalue => ?_) rfl
  refine ⟨getVisit_opt b (hc.sized o ho) (fun hcode => ?_) hvalue, by simpa using hs⟩
  cases deadline with
  | none => simp [hptr rfl o ho] at hcode
  | some x => simpa using hs

theorem Delivered.dtpParseOption (hc : h.Carries os) (b : ByteOrder) (scale : UInt8) (port : UInt16) :
    dtpParseOption b buf scale port = .ok (os.foldl (parseStep b) (scale, port)) := by
  refine hd.walk hr hc (P := fun _ => True) (fun o ho s j _ hvalue => ?_) trivial
  exact ⟨parseVisit_opt b (hc.sized o ho) hvalue, trivial⟩

end Receive

/-! ## The composers -/

/-- The values that go into a header. -/
structure HeaderArgs where
  seq : UInt32
  ackSeq : UInt32
  fid : UInt32
  flags : Flags
  winSize : UInt32
  hostID : List UInt8
  /-- the word of the `int` in `tc_deadline` -/
  deadline : UInt32
  scale : UInt8
  port : UInt16
  isFirstPacketSent : Bool

/-- Who composes a header. -/
inductive Composer
  | dtpWriteAvail
  | dtpHandleKey
  | sendRSTPacket
  deriving DecidableEq, Repr

namespace Composer

/-- The header, in the buffer `p`, on a host of byte order `b`. -/
def compose (b : ByteOrder) (a : HeaderArgs) (p : ℕ → UInt8) : Composer → (ℕ → UInt8) × ℕ
  | dtpWriteAvail =>
    let r := Raw.dtpGenerateHeader p a.seq a.ackSeq a.fid a.flags a.winSize
    let r := if a.flags.syn then Raw.dtpAddOptionToHeader r.1 r.2 optHostId a.hostID else r
    let r := if a.flags.syn && decide (0 < i32 a.deadline)
      then Raw.dtpAddOptionToHeader r.1 r.2 optDeadline (b.bytes32 a.deadline) else r
    if !a.isFirstPacketSent && decide (0 < a.scale)
      then Raw.dtpAddOptionToHeader r.1 r.2 optWinScale [a.scale] else r
  | dtpHandleKey =>
    let r := Raw.dtpGenerateHeader p a.seq a.ackSeq a.fid a.flags a.winSize
    let r := Raw.dtpAddOptionToHeader r.1 r.2 optHostId a.hostID
    let r := if 0 < i32 a.deadline
      then Raw.dtpAddOptionToHeader r.1 r.2 optDeadline (b.bytes32 a.deadline) else r
    let r := if !a.isFirstPacketSent && decide (0 < a.scale)
      then Raw.dtpAddOptionToHeader r.1 r.2 optWinScale [a.scale] else r
    Raw.dtpAddOptionToHeader r.1 r.2 optPort (b.bytes16 a.port)
  | sendRSTPacket =>
    let r := Raw.dtpGenerateHeader p a.seq a.ackSeq a.fid a.flags a.winSize
    Raw.dtpAddOptionToHeader r.1 r.2 optHostId a.hostID

def hasHostID (a : HeaderArgs) : Composer → Bool
  | dtpWriteAvail => a.flags.syn
  | _ => true

def hasDeadline (a : HeaderArgs) : Composer → Bool
  | dtpWriteAvail => a.flags.syn && decide (0 < i32 a.deadline)
  | dtpHandleKey => decide (0 < i32 a.deadline)
  | sendRSTPacket => false

/-- The window scale is written. -/
def hasScale (a : HeaderArgs) : Composer → Bool
  | sendRSTPacket => false
  | _ => !a.isFirstPacketSent && decide (0 < a.scale)

def hasPort : Composer → Bool
  | dtpHandleKey => true
  | _ => false

def opts (b : ByteOrder) (a : HeaderArgs) (k : Composer) : List Opt :=
  (((([] : List Opt) ++ if k.hasHostID a then [⟨optHostId, a.hostID⟩] else []) ++
    if k.hasDeadline a then [⟨optDeadline, b.bytes32 a.deadline⟩] else []) ++
    if k.hasScale a then [⟨optWinScale, [a.scale]⟩] else []) ++ if k.hasPort then [⟨optPort, b.bytes16 a.port⟩] else []

/-- The header as a header under construction. -/
def hdrBuf (b : ByteOrder) (a : HeaderArgs) (k : Composer) : HdrBuf :=
  let h := Dtp.dtpGenerateHeader a.seq a.ackSeq a.fid a.flags a.winSize
  let h := if k.hasHostID a then Dtp.dtpAddOptionToHeader h optHostId a.hostID else h
  let h := if k.hasDeadline a then Dtp.dtpAddOptionToHeader h optDeadline (b.bytes32 a.deadline) else h
  let h := if k.hasScale a then Dtp.dtpAddOptionToHeader h optWinScale [a.scale] else h
  if k.hasPort then Dtp.dtpAddOptionToHeader h optPort (b.bytes16 a.port) else h

/-- A conditional option takes at most its own bytes. -/
theorem length_encodeOpts_if_le (c : Bool) (o : Opt) :
    (encodeOpts (if c then [o] else [])).length ≤ o.value.length + 2 := by
  cases c with
  | false => simp [encodeOpts]
  | true => simp [encodeOpts, Opt.bytes]

theorem foldl_if {σ : Type} (step : σ → Opt → σ) (s : σ) (c : Bool) (o : Opt) :
    (if c then [o] else []).foldl step s = if c then step s o else s := by
  cases c <;> simp

section Compose
variable {a : HeaderArgs} (hid : a.hostID.length = sha1DigestLength) (b : ByteOrder) (p : ℕ → UInt8)
  (k : Composer)
include hid

theorem represents_compose : Represents (k.compose b a p) (k.hdrBuf b a) := by
  have hgen := represents_dtpGenerateHeader p a.seq a.ackSeq a.fid a.flags a.winSize
  have hhost := hgen.addIf (k.hasHostID a) optHostId a.hostID (by rw [hid]; decide)
  have hdead := hhost.addIf (k.hasDeadline a) optDeadline (b.bytes32 a.deadline)
    (by rw [ByteOrder.length_bytes32]; decide)
  have hscale := hdead.addIf (k.hasScale a) optWinScale [a.scale] (by simp; decide)
  have hport := hscale.addIf k.hasPort optPort (b.bytes16 a.port)
    (by rw [ByteOrder.length_bytes16]; decide)
  cases k with
  | dtpWriteAvail => exact hport
  | dtpHandleKey => simpa [compose, hasHostID, hasDeadline, hasScale, hasPort, hdrBuf] using hport
  | sendRSTPacket => exact hport

theorem carries_hdrBuf : (k.hdrBuf b a).Carries (k.opts b a) ∧ (k.hdrBuf b a).padded ≤ 60 := by
  have h0 := length_encodeOpts_if_le (k.hasHostID a) ⟨optHostId, a.hostID⟩
  have h1 := length_encodeOpts_if_le (k.hasDeadline a) ⟨optDeadline, b.bytes32 a.deadline⟩
  have h2 := length_encodeOpts_if_le (k.hasScale a) ⟨optWinScale, [a.scale]⟩
  have h3 := length_encodeOpts_if_le k.hasPort ⟨optPort, b.bytes16 a.port⟩
  simp only [hid, sha1DigestLength, ByteOrder.length_bytes32, ByteOrder.length_bytes16,
    List.length_singleton] at h0 h1 h2 h3
  have hgen := carries_dtpGenerateHeader a.seq a.ackSeq a.fid a.flags a.winSize
  have hhost := hgen.addIf (k.hasHostID a) optHostId a.hostID (by decide)
    (by rw [hid]; decide)
  have hdead := hhost.addIf (k.hasDeadline a) optDeadline (b.bytes32 a.deadline) (by decide)
    (by simp only [List.nil_append, ByteOrder.length_bytes32]; omega)
  have hscale := hdead.addIf (k.hasScale a) optWinScale [a.scale] (by decide)
    (by simp only [List.nil_append, length_encodeOpts_append, List.length_singleton]; omega)
  have hport := hscale.addIf k.hasPort optPort (b.bytes16 a.port) (by decide)
    (by simp only [List.nil_append, length_encodeOpts_append, ByteOrder.length_bytes16]; omega)
  refine ⟨hport, ?_⟩
  rw [HdrBuf.padded, HdrBuf.size, hdrBuf, hport.opts, hdrSize]
  simp only [List.nil_append, length_encodeOpts_append]
  omega

omit hid

/-- The options do not change the fields of the header. -/
theorem hdr_hdrBuf : (k.hdrBuf b a).hdr =
    { (Dtp.dtpGenerateHeader a.seq a.ackSeq a.fid a.flags a.winSize).hdr with doff := (k.hdrBuf b a).hdr.doff } := by
  simp only [hdrBuf, Dtp.dtpAddOptionToHeader]
  split_ifs <;> rfl

theorem foldl_getStep_opts (hid : a.hostID.length = sha1DigestLength) (own : List UInt8)
    (deadline : Option UInt32) :
    (k.opts b a).foldl (getStep b) (own, deadline) = (if k.hasHostID a then a.hostID else own,
        if k.hasDeadline a then deadline.map fun _ => a.deadline else deadline) := by
  have hword : b.word32 (fun i => (b.bytes32 a.deadline).getD i 0) 0 = a.deadline :=
    ByteOrder.word32_bytes32 fun j hj => by simp
  have hhost : ∀ s, getStep b s ⟨optHostId, a.hostID⟩ = (a.hostID, s.2) := by
    intro s
    simp [getStep, hid]
  have hdead : ∀ s, getStep b s ⟨optDeadline, b.bytes32 a.deadline⟩ = (s.1, s.2.map fun _ => a.deadline) := by
    intro s
    simp only [getStep, ByteOrder.length_bytes32, hword]
    rfl
  have hskip : ∀ s v, getStep b s ⟨optWinScale, v⟩ = s ∧ getStep b s ⟨optPort, v⟩ = s := by
    intro s v
    simp [getStep, optHostId, optWinScale, optPort, optDeadline]
  simp only [opts, List.nil_append, List.foldl_append, foldl_if, hhost, hdead, hskip, ite_self]
  split_ifs <;> rfl

theorem foldl_parseStep_opts (hscale : a.scale ≤ maxWinscaleShift) (scale : UInt8) (port : UInt16) :
    (k.opts b a).foldl (parseStep b) (scale, port) =
      (if k.hasScale a then a.scale else scale, if k.hasPort then a.port else port) := by
  have hword : b.word16 (fun i => (b.bytes16 a.port).getD i 0) 0 = a.port :=
    ByteOrder.word16_bytes16 fun j hj => by simp
  have hshift : ∀ s, parseStep b s ⟨optWinScale, [a.scale]⟩ = (a.scale, s.2) := by
    intro s
    simp [parseStep, hscale]
  have hport : ∀ s, parseStep b s ⟨optPort, b.bytes16 a.port⟩ = (s.1, a.port) := by
    intro s
    simp only [parseStep, ByteOrder.length_bytes16, hword]
    rfl
  have hskip : ∀ s v, parseStep b s ⟨optHostId, v⟩ = s ∧ parseStep b s ⟨optDeadline, v⟩ = s := by
    intro s v
    simp [parseStep, optHostId, optWinScale, optPort, optDeadline]
  simp only [opts, List.nil_append, List.foldl_append, foldl_if, hshift, hport, hskip, ite_self]
  split_ifs <;> rfl

/-- The window scale of a first packet, written or not. -/
theorem scale_of_first (hk : k ≠ sendRSTPacket) (hfirst : a.isFirstPacketSent = false) :
    (if k.hasScale a then a.scale else 0) = a.scale := by
  have hzero : ¬0 < a.scale → a.scale = 0 := by
    intro hpos
    apply UInt8.toNat_inj.mp
    rw [UInt8.lt_iff_toNat_lt] at hpos
    simpa using hpos
  cases k with
  | sendRSTPacket => simp at hk
  | dtpWriteAvail =>
    by_cases hpos : 0 < a.scale <;> simp [hasScale, hfirst, hpos, hzero]
  | dtpHandleKey =>
    by_cases hpos : 0 < a.scale <;> simp [hasScale, hfirst, hpos, hzero]

theorem not_deadline_of_mem (hnone : k.hasDeadline a = false) : ∀ o ∈ k.opts b a, o.code ≠ optDeadline := by
  intro o ho
  simp only [opts, hnone, List.nil_append, Bool.false_eq_true, if_false, List.append_nil, List.mem_append] at ho
  rcases ho with (ho | ho) | ho <;>
  · split_ifs at ho
    · rw [List.mem_singleton.mp ho]
      simp [optHostId, optWinScale, optPort, optDeadline]
    · simp at ho

end Compose

/-- What the receiver of a header gets back: `n` is the size of the header with its padding, and the
payload follows it. -/
structure Recovered (b : ByteOrder) (a : HeaderArgs) (payload : List UInt8) (n : ℕ) (buf : ℕ → UInt8)
    (k : Composer) : Prop where
  fits : n ≤ 60
  headerLen : getHeaderLen buf = n
  flowID : getFlowID buf = a.fid
  seqNum : getSeqNum buf = a.seq
  ackNum : getAckNum buf = a.ackSeq
  flags : getFlags buf = a.flags
  window : getRcvdWindow buf = if a.winSize > 0x7FFF then 0x7FFF else a.winSize.toUInt16
  /-- with a pointer for the deadline, which keeps its value if there is none -/
  getOption : ∀ own deadline, dtpGetOption b buf own (some deadline) = .ok (if k.hasHostID a then a.hostID else own,
      some (if k.hasDeadline a then a.deadline else deadline))
  /-- without one -/
  getOptionNull : k.hasDeadline a = false → ∀ own, dtpGetOption b buf own none =
    .ok (if k.hasHostID a then a.hostID else own, none)
  parseOption : ∀ scale port, dtpParseOption b buf scale port =
    .ok (if k.hasScale a then a.scale else scale, if k.hasPort then a.port else port)
  /-- a scale of `0` is not written: a context that has not heard of one has it already -/
  parseOptionFresh : k ≠ sendRSTPacket → a.isFirstPacketSent = false → ∀ port,
    dtpParseOption b buf 0 port = .ok (a.scale, if k.hasPort then a.port else port)
  payloadLen : getPayloadLen buf (n + payload.length) = payload.length
  payload : peek buf (getHeaderLen buf) payload.length = payload

/-- The round trip: on two hosts of one byte order, whatever the packet buffer held before and the
receive buffer holds behind the datagram, the receiver gets back what the sender wrote. -/
theorem header_round_trip (b : ByteOrder) (k : Composer) (a : HeaderArgs)
    (hid : a.hostID.length = sha1DigestLength) (hscale : a.scale ≤ maxWinscaleShift) (p buf : ℕ → UInt8)
    (payload : List UInt8) (hd : Delivered (k.compose b a p) payload buf) :
    k.Recovered b a payload (((k.compose b a p).2 + 3) / 4 * 4) buf := by
  have hr := represents_compose hid b p k
  obtain ⟨hc, hfits⟩ := carries_hdrBuf hid b k
  have hlen := hd.getHeaderLen hr hc.wf
  have hhdr := (hd.header hr).trans (hdr_hdrBuf b k)
  rw [hr.padded]
  refine
    { fits := hfits
      headerLen := hlen
      flowID := congrArg DtpHdr.fid hhdr
      seqNum := congrArg DtpHdr.seq hhdr
      ackNum := congrArg DtpHdr.ackSeq hhdr
      flags := congrArg DtpHdr.toFlags hhdr
      window := congrArg DtpHdr.windowSize hhdr
      getOption := ?_
      getOptionNull := ?_
      parseOption := ?_
      parseOptionFresh := ?_
      payloadLen := ?_
      payload := ?_ }
  · intro own deadline
    rw [hd.dtpGetOption hr hc b own (by simp), foldl_getStep_opts b k hid]
    split_ifs <;> rfl
  · intro hnone own
    rw [hd.dtpGetOption hr hc b own (fun _ => not_deadline_of_mem b k hnone), foldl_getStep_opts b k hid]
    simp
  · intro scale port
    rw [hd.dtpParseOption hr hc b scale port, foldl_parseStep_opts b k hscale]
  · intro hk hfirst port
    rw [hd.dtpParseOption hr hc b 0 port, foldl_parseStep_opts b k hscale, scale_of_first k hk hfirst]
  · rw [getPayloadLen, hlen]
    push_cast
    ring
  · rw [hlen]
    exact (hd.body hr).peek

/-- A SYN+ACK with every option. -/
def sampleArgs : HeaderArgs where
  seq := 0xFFFFFFFE
  ackSeq := 7
  fid := 0x01020304
  flags := { syn := true, ack := true }
  winSize := 70000
  hostID := List.replicate 20 9
  deadline := 3600
  scale := 14
  port := 9000
  isFirstPacketSent := false

/-- It is composed over old bytes on a host of big byte order. -/
theorem header_round_trip_key :
    dtpHandleKey.Recovered .big sampleArgs [1, 2, 3] 56
      (sent (dtpHandleKey.compose .big sampleArgs fun _ => 255).1 56 [1, 2, 3]) :=
  header_round_trip .big dtpHandleKey sampleArgs rfl (by decide) (fun _ => 255) _ [1, 2, 3]
    fun _ _ => rfl

/-! ## The headers of a context -/

/-- The values a context writes into its headers. -/
def argsOf (c : DtpContext) (flags : Flags) : HeaderArgs where
  seq := c.lastByteSent
  ackSeq := c.nextByteExpected
  fid := c.flowID
  flags := flags
  winSize := c.advertisedWindow
  hostID := c.localID
  deadline := u32 c.deadline
  scale := c.recvWindowScale
  port := c.localPort
  isFirstPacketSent := c.isFirstPacketSent

/-- With an `int` in `tc_deadline`, the headers of the context are the ones composed here. -/
theorem hdrBuf_argsOf {c : DtpContext} (hint : i32 (u32 c.deadline) = c.deadline) (flags : Flags) :
    dtpWriteAvail.hdrBuf .little (argsOf c flags) = c.writeHeader flags ∧
      dtpHandleKey.hdrBuf .little (argsOf c { syn := true, ack := true }) = c.keyHeader := by
  constructor
  · simp only [hdrBuf, argsOf, hasHostID, hasDeadline, hasScale, hasPort, hint, DtpContext.writeHeader]
    rfl
  · simp only [hdrBuf, argsOf, hasHostID, hasDeadline, hasScale, hasPort, hint, DtpContext.keyHeader, decide_eq_true_eq]
    rfl

/-- **The bytes of the code are the packets of the model.**  Whatever the packet buffer held before and the receive
buffer holds behind it, the header that `DTPWriteAvail` composes for a context arrives with its payload as the
datagram `mkDatagram`, and the parsers of the datagram are those that walk over the bytes. -/
theorem data_packet_received {c : DtpContext} (hint : i32 (u32 c.deadline) = c.deadline)
    (hid : c.localID.length = sha1DigestLength) (flags : Flags) {payload : List UInt8} {p buf : ℕ → UInt8}
    (hd : Delivered (dtpWriteAvail.compose .little (argsOf c flags) p) payload buf) :
    let n := (c.writeHeader flags).padded + payload.length
    let d := mkDatagram (c.writeHeader flags) payload
    (received buf n).hdr = d.hdr ∧ (∀ i < n - hdrSize, (received buf n).opts i = d.opts i) ∧
      (∀ i < payload.length, (received buf n).body i = d.body i) ∧
      (∀ own deadline, dtpGetOption .little buf own deadline = Dtp.dtpGetOption (received buf n) own deadline) ∧
      ∀ scale port, dtpParseOption .little buf scale port = Dtp.dtpParseOption (received buf n) scale port := by
  have hr := represents_compose (a := argsOf c flags) hid .little p dtpWriteAvail
  have hwf := (carries_hdrBuf (a := argsOf c flags) hid .little dtpWriteAvail).1.wf
  rw [(hdrBuf_argsOf hint flags).1] at hr hwf
  obtain ⟨hhdr, hopts, hbody⟩ := hd.received hr hwf
  exact ⟨hhdr, hopts, hbody, fun own deadline => (dtpGetOption_received own deadline).symm,
    fun scale port => (dtpParseOption_received scale port).symm⟩

theorem data_packet_received_first :
    let c := DtpContext.dtpCreateContext
    let r := dtpWriteAvail.compose .little (argsOf c { syn := true }) fun _ => 255
    (received (sent r.1 ((r.2 + 3) / 4 * 4) [1, 2, 3]) ((c.writeHeader { syn := true }).padded + 3)).hdr =
      (c.writeHeader { syn := true }).hdr := by
  have hd : Delivered (dtpWriteAvail.compose .little (argsOf DtpContext.dtpCreateContext { syn := true }) fun _ => 255)
    [1, 2, 3] _ := fun _ _ => rfl
  exact (data_packet_received (by decide) (by decide) { syn := true } hd).1

end Composer

end Cedos.Dtp.Raw
