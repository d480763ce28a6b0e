import Cedos.Dtp.Challenge

/-!
# Opening a connection

`dtp_connect` puts the client's RSA public key into the write buffer, so that the SYN
carries it as its payload. `HandleSYNPacket` creates the server's context and answers
with a SYN+ACK whose payload is a fresh HMAC key under that public key, and
`HandleSYNACKPacket` takes the key out of it.

`DTPHandleKey` serves both the first SYN and its repetitions. It generates a new key
every time, and the SYN+ACK goes straight to the network: it is not in the
retransmission queue, and its payload is never in the write buffer.

The RSA operations are the fields of `Rsa`. Random choices (the HMAC key, the padding)
and the content of the uninitialised host-ID buffers are arguments.
-/

namespace Cedos.Dtp

/-- RSA with OAEP padding. A public key is its modulus and exponent as byte strings; the
private key is the one of the host that calls `decrypt`. `none` is an error. -/
structure Rsa where
  /-- `RSA_public_encrypt`: modulus, exponent, message, padding randomness -/
  encrypt : List UInt8 → List UInt8 → List UInt8 → ℕ → Option (List UInt8)
  /-- `RSA_private_decrypt` -/
  decrypt : List UInt8 → Option (List UInt8)

/-- The cryptography of a connection: RSA in the opening, the keyed hash after it. -/
structure Crypto extends Rsa where
  /-- key and message -/
  hmac : List UInt8 → List UInt8 → List UInt8

/-- The public key as `dtp_connect` lays it out: each part after its length. -/
def publicKeyBytes (n e : List UInt8) : List UInt8 :=
  bytes32 (UInt32.ofNat n.length) ++ n ++ bytes32 (UInt32.ofNat e.length) ++ e

/-- `n_len` in `DTPHandleKey`. -/
def modulusLen (d : Datagram) : ℤ := i32 (word32 d.body 0)

def modulus (d : Datagram) : List UInt8 := peek d.body 4 (modulusLen d).toNat

/-- `e_len` in `DTPHandleKey`. -/
def exponentLen (d : Datagram) : ℤ := i32 (word32 d.body (4 + (modulusLen d).toNat))

def exponent (d : Datagram) : List UInt8 :=
  peek d.body (8 + (modulusLen d).toNat) (exponentLen d).toNat

/-- Both parts of the public key fit the buffer `temp_buf` they are copied to. -/
def keyFits (d : Datagram) : Bool :=
  decide (0 ≤ modulusLen d ∧ modulusLen d ≤ rsaLen ∧ 0 ≤ exponentLen d ∧ exponentLen d ≤ rsaLen)

/-- `8 + n_len + e_len`. -/
def keyFieldLen (d : Datagram) : ℤ := 8 + modulusLen d + exponentLen d

namespace DtpContext

/-! ## The client opens -/

/-- The fields `dtp_connect` sets before it sends. -/
def startConnect (c : DtpContext) (addr : SockAddr) (fid : UInt32) (n e : List UInt8) :
    DtpContext :=
  let key := publicKeyBytes n e
  { c with
    peerAddr := addr
    state := .synSent
    sendSYN := true
    seqNum := 0
    lastByteAcked := 0
    lastByteSent := 0
    lastByteWritten := u32 key.length
    flowID := fid
    keyLen := key.length
    writeBuf := blit c.writeBuf 0 (fun i => key.getD i 0) key.length }

/-- `dtp_connect` with the host's public key; `fid` is what `DTPGenerateFlowID` returns. -/
def dtpConnect (c : DtpContext) (addr : SockAddr) (fid : UInt32) (n e : List UInt8) : DtpContext :=
  (c.startConnect addr fid n e).dtpWriteAvail

/-! ## The server answers -/

/-- The public key in a SYN occupies sequence numbers but is never read. -/
def skipKey (c : DtpContext) (len : ℤ) : DtpContext :=
  { c with
    nextByteExpected := c.nextByteExpected + u32 len
    lastByteRcvd := c.lastByteRcvd + u32 len
    lastByteRead := c.lastByteRead + u32 len }

/-- `spc_keygen`. -/
def setKey (c : DtpContext) (key : List UInt8) : DtpContext := { c with key := key }

/-- A SYN+ACK that is sent again reuses the sequence numbers below `tc_lastByteSent`. -/
def rewindSent (c : DtpContext) (len : ℕ) : DtpContext :=
  { c with lastByteSent := c.lastByteSent - UInt32.ofNat len }

/-- The header of a SYN+ACK: host ID, deadline, window scale if no packet has been sent
before, and the port of the new socket. -/
def keyHeader (c : DtpContext) : HdrBuf :=
  let h := dtpGenerateHeader c.lastByteSent c.nextByteExpected c.flowID { syn := true, ack := true }
    c.advertisedWindow
  let h := dtpAddOptionToHeader h optHostId c.localID
  let h := if 0 < c.deadline then dtpAddOptionToHeader h optDeadline (bytes32 (u32 c.deadline)) else h
  let h := if !c.isFirstPacketSent && decide (0 < c.recvWindowScale)
    then dtpAddOptionToHeader h optWinScale [c.recvWindowScale] else h
  dtpAddOptionToHeader h optPort (bytes16 c.localPort)

/-- Send the SYN+ACK with the encrypted key, and count its payload as sent and written. -/
def sendKey (c : DtpContext) (cipher : List UInt8) : DtpContext :=
  { c with
    wire := c.wire ++ [(c.peerAddr, mkDatagram c.keyHeader cipher)]
    isFirstPacketSent := true
    lastByteSent := c.lastByteSent + UInt32.ofNat cipher.length
    lastByteWritten := c.lastByteSent + UInt32.ofNat cipher.length }

/-- `DTPHandleKey`. On an encryption error the new key is already in place. -/
def dtpHandleKey (rsa : Rsa) (c : DtpContext) (d : Datagram) (key : List UInt8) (pad : ℕ)
    (isResend : Bool) : DtpContext :=
  let c := c.assert (keyFits d)
  let c := if isResend then c else c.skipKey (keyFieldLen d)
  let c := c.setKey key
  match rsa.encrypt (modulus d) (exponent d) key pad with
  | none => c.assert false
  | some cipher =>
    let c := if isResend then c.rewindSent cipher.length else c
    c.sendKey cipher

/-- The context `HandleSYNPacket` sets up, before its key; `fresh` is what
`DTPCreateContext` returns, `scale` and `port` are what `DTPParseOption` finds. -/
def acceptSYN (fresh : DtpContext) (d : Datagram) (addr : SockAddr) (hid : List UInt8)
    (deadline : UInt32) (scale : UInt8) (port : UInt16) : DtpContext :=
  { fresh with
    flowID := d.hdr.fid
    peerAddr := { addr with port := port }
    state := .synRcvd
    onFlowIDMap := true
    hostID := hid
    lastByteSent := 0
    lastByteAcked := 0
    nextByteExpected := d.hdr.seq
    lastByteRcvd := d.hdr.seq
    lastByteRead := d.hdr.seq
    deadline := i32 deadline
    isDeadlineSet := true
    sendWindowScale := scale
    pendingRead := true }

/-- Take the address a SYN came from for the peer's. -/
def rebind (c : DtpContext) (addr : SockAddr) : DtpContext := { c with peerAddr := addr }

/-- `HandleSYNPacket` for a flow that has a context, with the host ID the SYN names: the
same host is answered again, another one is refused. -/
def repeatSYN (rsa : Rsa) (c : DtpContext) (d : Datagram) (addr : SockAddr) (hid : List UInt8)
    (key : List UInt8) (pad : ℕ) : DtpContext :=
  if c.hostID = hid then (c.rebind addr).dtpHandleKey rsa d key pad true
  else c.sendRSTPacket d.hdr.fid addr

/-- What the server's host contributes to the handling of a SYN. -/
structure SynEnv where
  /-- the context `DTPCreateContext` returns -/
  fresh : DtpContext
  /-- the content of the host-ID buffer before the options are parsed -/
  hid : List UInt8
  /-- the result of `spc_keygen` -/
  key : List UInt8
  /-- the randomness of the padding -/
  pad : ℕ
  /-- the listening socket exists and its connection queue has room -/
  room : Bool

/-- The outcomes of `HandleSYNPacket`. -/
inductive SynOutcome
  /-- the flow has a context, and this is what became of it; `NULL` is returned -/
  | known (c : DtpContext)
  /-- a new context -/
  | created (c : DtpContext)
  /-- an RST is sent from the listening socket; `NULL` is returned -/
  | refused

/-- `HandleSYNPacket`, with the context the flow ID maps to. -/
def handleSYNPacket (rsa : Rsa) (env : SynEnv) (flow : Option DtpContext) (d : Datagram)
    (addr : SockAddr) : Except ParseFault SynOutcome := do
  let (hid, deadline) ← dtpGetOption d env.hid (some 0)
  match flow with
  | some c => return .known (c.repeatSYN rsa d addr hid env.key env.pad)
  | none =>
    if env.room then
      let (scale, port) ← dtpParseOption d env.fresh.sendWindowScale addr.port
      return .created ((acceptSYN env.fresh d addr hid (deadline.getD 0) scale port).dtpHandleKey
        rsa d env.key env.pad false)
    else return .refused

/-! ## The client is answered -/

/-- Take over host ID, key, offsets and address of the server. -/
def adoptSYNACK (c : DtpContext) (d : Datagram) (addr : SockAddr) (hid key : List UInt8)
    (scale : UInt8) (port : UInt16) : DtpContext :=
  { c with
    hostID := hid
    key := key
    state := .established
    nextByteExpected := d.hdr.seq + 256
    lastByteRcvd := d.hdr.seq + 256
    lastByteRead := d.hdr.seq + 256
    peerAddr := { addr with port := port }
    sendWindowScale := scale
    pendingRead := false }

/-- Take over the host ID alone: the key could not be decrypted. -/
def noteHostID (c : DtpContext) (hid : List UInt8) : DtpContext := { c with hostID := hid }

/-- `HandleSYNACKPacket`; the flag is `false` when it returns `NULL`. `hid` is the content
of the host-ID buffer before the options are parsed. -/
def handleSYNACKPacket (rsa : Rsa) (c : DtpContext) (d : Datagram) (addr : SockAddr)
    (hid : List UInt8) : Except ParseFault (DtpContext × Bool) :=
  if c.state = .synSent then do
    let (hid, _) ← dtpGetOption d hid (some 0)
    match rsa.decrypt (peek d.body 0 rsaLen) with
    | none => return (c.noteHostID hid, false)
    | some key =>
      let (scale, port) ← dtpParseOption d c.sendWindowScale addr.port
      return ((c.adoptSYNACK d addr hid key scale port).dtpSendACKPacket, true)
  else return (c.dtpSendACKPacket, true)

/-! ## Refusals -/

/-- The branch of `HandleRSTPacket` for a flow ID that is taken: send the SYN again under
a new one. -/
def retryConnect (c : DtpContext) (fid : UInt32) : DtpContext :=
  match c.packetQ with
  | [] => c.assert false
  | p :: q =>
    ({ c with
      packetQ := q
      flowID := fid
      lastByteSent := c.lastByteSent - u32 p.payloadLen
      segSent := 0 } : DtpContext).dtpWriteAvail

/-- The branch of `HandleRSTPacket` for `LAST_ACK`. -/
def dropLastAck (c : DtpContext) : DtpContext :=
  match c.packetQ with
  | [] => c.assert false
  | _ :: q => { c with packetQ := q, state := .closed }

/-- `HandleRSTPacket`; `fid` is the flow ID it would generate. -/
def handleRSTPacket (c : DtpContext) (d : Datagram) (hid : List UInt8) (fid : UInt32) :
    Except ParseFault DtpContext := do
  let (hid, _) ← dtpGetOption d hid none
  if c.hostID ≠ hid then return c
  else if c.state = .synSent then return c.retryConnect fid
  else if c.state = .established then return c.resetConnection
  else if c.state = .lastAck then return c.dropLastAck
  else return c

end DtpContext
end Cedos.Dtp
