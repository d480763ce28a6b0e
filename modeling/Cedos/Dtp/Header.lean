import Cedos.Lib.Bytes
import Cedos.Lib.CInt

/-!
# DTP headers, options and datagrams

`struct dtp_hdr` with its fields in host byte order, the option list that follows
it (`DTPAddOptionToHeader`), and the two parsers that walk that list
(`DTPGetOption`, `DTPParseOption`).

A received datagram is seen the way the handlers see it: a header, the memory
from the end of the fixed header on (where options are parsed), the memory from
`GetHeaderLen` on (where the payload is read), and the number of bytes `recvfrom`
returned. The two memories are functions, so reading past the datagram reads
whatever lies there; no statement below assumes anything about it.

An option whose size byte is `0` moves neither the pointer nor the remaining
length, so the parser never leaves its loop; `ParseFault.spin` is that outcome.
-/

namespace Cedos.Dtp

/-! ## Constants -/

/-- `sizeof (struct dtp_hdr)`. -/
def hdrSize : ℕ := 20
/-- `DTP_MTU`. -/
def mtu : ℕ := 1472
/-- `MAX_PAYLOAD`, that is `DTP_MTU - DTPHDRSIZE`. -/
def maxPayload : ℕ := 1452
def sha1DigestLength : ℕ := 20
def maxWinscaleShift : UInt8 := 14
def rsaLen : ℕ := 256

/-! ## Addresses, headers, datagrams -/

/-- `struct sockaddr_in`, in host byte order. -/
structure SockAddr where
  ip : UInt32
  port : UInt16
  deriving DecidableEq, Repr, Inhabited

/-- The flag bits of a header (`DTP_FLAG_*`). -/
structure Flags where
  chg : Bool := false
  rsp : Bool := false
  auth : Bool := false
  ack : Bool := false
  rst : Bool := false
  syn : Bool := false
  fin : Bool := false
  deriving DecidableEq, Repr, Inhabited

/-- The data offset has four bits. -/
instance neZeroSixteen : NeZero 16 := ⟨by decide⟩

/-- `struct dtp_hdr`. The reserved, urgent, push and checksum fields are neither
written nor read. -/
structure DtpHdr extends Flags where
  fid : UInt32
  seq : UInt32
  ackSeq : UInt32
  doff : Fin 16
  windowSize : UInt16
  deriving DecidableEq, Repr, Inhabited

/-- A datagram in a receive buffer. -/
structure Datagram where
  hdr : DtpHdr
  /-- bytes returned by `recvfrom` -/
  len : ℕ
  /-- memory from the end of the fixed header on -/
  opts : ℕ → UInt8
  /-- memory from `GetHeaderLen` on -/
  body : ℕ → UInt8

/-- `GetHeaderLen`. -/
def getHeaderLen (d : Datagram) : ℕ := 4 * d.hdr.doff.val

/-- `GetPayloadLen`: negative when the data offset points past the datagram. -/
def getPayloadLen (d : Datagram) : ℤ := (d.len : ℤ) - getHeaderLen d

def Datagram.payload (d : Datagram) : List UInt8 := peek d.body 0 (getPayloadLen d).toNat

/-! ## Building headers -/

/-- A header under construction in `tp_header`: the fixed part and the option
bytes written so far, without the padding that the next option overwrites. -/
structure HdrBuf where
  hdr : DtpHdr
  opts : List UInt8
  deriving DecidableEq, Repr, Inhabited

def HdrBuf.size (h : HdrBuf) : ℕ := hdrSize + h.opts.length

/-- `(hdr_size + 3) & ~0x3`. -/
def HdrBuf.padded (h : HdrBuf) : ℕ := (h.size + 3) / 4 * 4

/-- `DTPGenerateHeader`. The advertised window is clamped to `0x7FFF`. -/
def dtpGenerateHeader (seq ackSeq fid : UInt32) (flags : Flags) (winSize : UInt32) : HdrBuf where
  hdr := { toFlags := flags, fid := fid, seq := seq, ackSeq := ackSeq, doff := 5,
           windowSize := if winSize > 0x7FFF then 0x7FFF else winSize.toUInt16 }
  opts := []

/-- `DTPAddOptionToHeader`: code, size, value; the data offset is recomputed. -/
def dtpAddOptionToHeader (h : HdrBuf) (opcode : UInt8) (value : List UInt8) : HdrBuf :=
  let opts := h.opts ++ opcode :: UInt8.ofNat (value.length + 2) :: value
  { hdr := { h.hdr with doff := Fin.ofNat 16 ((hdrSize + opts.length + 3) / 4) }, opts := opts }

/-- The datagram `sendmsg` hands to the network for a header and a payload. -/
def mkDatagram (h : HdrBuf) (payload : List UInt8) : Datagram where
  hdr := h.hdr
  len := h.padded + payload.length
  opts := fun i => (h.opts ++ List.replicate (h.padded - h.size) 0 ++ payload).getD i 0
  body := fun i => payload.getD i 0

/-! ## Option codes and values -/

/-- `DTPOPT_EOL` … `DTPOPT_DEADLINE`. -/
def optEol : UInt8 := 0
def optNop : UInt8 := 1
def optWinScale : UInt8 := 3
def optHostId : UInt8 := 7
def optPort : UInt8 := 8
def optDeadline : UInt8 := 9

/-- `DTPOLEN_*`: the size byte, which counts the code and itself. -/
def olenWinScale : UInt8 := 3
def olenHostId : UInt8 := 22
def olenPort : UInt8 := 4
def olenDeadline : UInt8 := 6

/-- The two bytes of a `u_short` in memory (little endian). -/
def bytes16 (x : UInt16) : List UInt8 := [x.toUInt8, (x >>> 8).toUInt8]

/-- The four bytes of an `int` in memory (little endian). -/
def bytes32 (x : UInt32) : List UInt8 :=
  [x.toUInt8, (x >>> 8).toUInt8, (x >>> 16).toUInt8, (x >>> 24).toUInt8]

/-- `memcpy` of two bytes at offset `i` into a `u_short`. -/
def word16 (m : ℕ → UInt8) (i : ℕ) : UInt16 :=
  (m i).toUInt16 ||| ((m (i + 1)).toUInt16 <<< 8)

/-- `memcpy` of four bytes at offset `i` into an `int`. -/
def word32 (m : ℕ → UInt8) (i : ℕ) : UInt32 :=
  (m i).toUInt32 ||| ((m (i + 1)).toUInt32 <<< 8) ||| ((m (i + 2)).toUInt32 <<< 16) |||
    ((m (i + 3)).toUInt32 <<< 24)

/-! ## Parsing options -/

/-- How a parser can fail to return. -/
inductive ParseFault
  /-- A size byte of `0`: the loop repeats for ever. -/
  | spin
  /-- A value copied through the `NULL` deadline pointer of `HandleRSTPacket`. -/
  | nullWrite
  deriving DecidableEq, Repr

/-- The length of the option list according to the data offset. -/
def optLen (d : Datagram) : ℤ := (getHeaderLen d : ℤ) - hdrSize

/-- The loop of `DTPGetOption` at offset `i` with `len` bytes left. `hid` is the
content of the caller's host-ID buffer, `deadline` is `none` for a null pointer. -/
def getOptionLoop (opts : ℕ → UInt8) :
    ℕ → ℕ → ℤ → List UInt8 → Option UInt32 → Except ParseFault (List UInt8 × Option UInt32)
  | 0, _, _, _, _ => .error .spin
  | fuel + 1, i, len, hid, deadline =>
    if len ≤ 0 then .ok (hid, deadline)
    else if opts i = optEol then .ok (hid, deadline)
    else if opts i = optNop then getOptionLoop opts fuel (i + 1) (len - 1) hid deadline
    else
      let opsize := opts (i + 1)
      let next := getOptionLoop opts fuel (i + opsize.toNat) (len - opsize.toNat)
      if opts i = optHostId ∧ opsize = olenHostId then
        next (peek opts (i + 2) sha1DigestLength) deadline
      else if opts i = optDeadline ∧ opsize = olenDeadline then
        match deadline with
        | none => .error .nullWrite
        | some _ => next hid (some (word32 opts (i + 2)))
      else next hid deadline

/-- `DTPGetOption` with a host-ID buffer. The remaining length falls with every
option of non-zero size, so `optLen + 1` rounds suffice when the loop ends at all. -/
def dtpGetOption (d : Datagram) (hid : List UInt8) (deadline : Option UInt32) :
    Except ParseFault (List UInt8 × Option UInt32) :=
  getOptionLoop d.opts ((optLen d).toNat + 1) 0 (optLen d) hid deadline

/-- The loop of `DTPParseOption`; the pair is the context's `tc_sendWindowScale`
and the port of its `tc_peerAddr`. -/
def parseOptionLoop (opts : ℕ → UInt8) :
    ℕ → ℕ → ℤ → UInt8 → UInt16 → Except ParseFault (UInt8 × UInt16)
  | 0, _, _, _, _ => .error .spin
  | fuel + 1, i, len, scale, port =>
    if len ≤ 0 then .ok (scale, port)
    else if opts i = optEol then .ok (scale, port)
    else if opts i = optNop then parseOptionLoop opts fuel (i + 1) (len - 1) scale port
    else
      let opsize := opts (i + 1)
      let next := parseOptionLoop opts fuel (i + opsize.toNat) (len - opsize.toNat)
      if opts i = optWinScale ∧ opsize = olenWinScale then
        -- a scale above the maximum is ignored, not clamped
        next (if opts (i + 2) ≤ maxWinscaleShift then opts (i + 2) else scale) port
      else if opts i = optPort ∧ opsize = olenPort then
        next scale (word16 opts (i + 2))
      else next scale port

/-- `DTPParseOption`. -/
def dtpParseOption (d : Datagram) (scale : UInt8) (port : UInt16) :
    Except ParseFault (UInt8 × UInt16) :=
  parseOptionLoop d.opts ((optLen d).toNat + 1) 0 (optLen d) scale port

end Cedos.Dtp
