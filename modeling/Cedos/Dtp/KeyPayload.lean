import Cedos.Dtp.KeyAgreement

/-!
# The public key in a SYN

`DTPHandleKey` copies two byte strings from the payload of a SYN into an array of `RSA_LEN` bytes on its
stack. Both lengths come from the payload, and the second lies where the first says; neither is compared
with the size of the array or with what has been received, and none is refused. A negative length is
converted to `size_t`.

What `dtp_connect` encodes is decoded as it was, and takes as many sequence numbers at the server as the
client counts.
-/

namespace Cedos.Dtp

open DtpContext

/-- A copy of `len` bytes from this place of the datagram to an object of `cap` bytes. -/
structure KeyCopy where
  src : ℤ
  len : ℕ
  cap : ℕ

/-- It reads the datagram and writes the object only. -/
def KeyCopy.Inside (x : KeyCopy) (d : Datagram) : Prop :=
  0 ≤ x.src ∧ x.src + x.len ≤ d.len ∧ x.len ≤ x.cap

/-- An `int` as a `size_t`. -/
def sizeOfInt (n : ℤ) : ℕ := (n % 2 ^ 64).toNat

/-- The copies of `DTPHandleKey`: `n_len`, the modulus, `e_len`, the exponent. -/
def keyCopies (d : Datagram) : List KeyCopy :=
  [⟨getHeaderLen d, 4, 4⟩, ⟨getHeaderLen d + 4, sizeOfInt (modulusLen d), rsaLen⟩,
    ⟨getHeaderLen d + 4 + modulusLen d, 4, 4⟩, ⟨getHeaderLen d + 8 + modulusLen d, sizeOfInt (exponentLen d), rsaLen⟩]

/-- Both parts fit the array, and the payload is as long as they say. -/
def KeyLengthsFit (d : Datagram) : Prop :=
  keyFits d = true ∧ keyFieldLen d ≤ getPayloadLen d

theorem sizeOfInt_i32_le (x : UInt32) : sizeOfInt (i32 x) ≤ rsaLen ↔ 0 ≤ i32 x ∧ i32 x ≤ rsaLen := by
  have hb := i32_bounds x
  simp only [sizeOfInt, rsaLen]
  omega

theorem sizeOfInt_of_nonneg {n : ℤ} (h0 : 0 ≤ n) (h1 : n ≤ rsaLen) : (sizeOfInt n : ℤ) = n := by
  simp only [sizeOfInt, rsaLen] at h1 ⊢
  omega

/-- The copies stay inside if and only if the lengths fit. -/
theorem keyCopies_inside_iff (d : Datagram) : (∀ x ∈ keyCopies d, x.Inside d) ↔ KeyLengthsFit d := by
  have hmod : sizeOfInt (modulusLen d) ≤ rsaLen ↔ 0 ≤ modulusLen d ∧ modulusLen d ≤ rsaLen :=
    sizeOfInt_i32_le _
  have hexp : sizeOfInt (exponentLen d) ≤ rsaLen ↔ 0 ≤ exponentLen d ∧ exponentLen d ≤ rsaLen :=
    sizeOfInt_i32_le _
  have hpay : getPayloadLen d = (d.len : ℤ) - getHeaderLen d := rfl
  simp only [keyCopies, List.forall_mem_cons, List.not_mem_nil, false_imp_iff, implies_true, and_true,
    KeyCopy.Inside, KeyLengthsFit, keyFits, keyFieldLen, decide_eq_true_eq]
  constructor
  · rintro ⟨-, ⟨-, -, hn⟩, -, ⟨-, hsrc, he⟩⟩
    obtain ⟨hn0, hn1⟩ := hmod.mp hn
    obtain ⟨he0, he1⟩ := hexp.mp he
    rw [sizeOfInt_of_nonneg he0 he1] at hsrc
    exact ⟨⟨hn0, hn1, he0, he1⟩, by omega⟩
  · rintro ⟨⟨hn0, hn1, he0, he1⟩, hlen⟩
    have hn := sizeOfInt_of_nonneg hn0 hn1
    have he := sizeOfInt_of_nonneg he0 he1
    refine ⟨⟨by omega, by omega, le_rfl⟩, ⟨by omega, by omega, hmod.mpr ⟨hn0, hn1⟩⟩,
      ⟨by omega, by omega, le_rfl⟩, ⟨by omega, by omega, hexp.mpr ⟨he0, he1⟩⟩⟩

/-! ## What `dtp_connect` sends -/

section Connect
variable {c : DtpContext} {addr : SockAddr} {fid : UInt32} {n e : List UInt8}

/-- The loop of `DTPWriteAvail` sends at most one packet in `SYN_SENT`. -/
theorem writeFlush_synSent (hs : c.state = .synSent) :
    c.writeFlush (fun _ => true) = (c, false) ∨ c.writeFlush (fun _ => true) = (c.beginWrite, true) ∨
      c.writeFlush (fun _ => true) = (c.beginWrite.writeOne c.writeFlags c.sendLen, true) := by
  have hstate : c.beginWrite.state = .synSent := hs
  simp only [DtpContext.writeFlush]
  split_ifs with h0 h1
  · exact Or.inl rfl
  · exact Or.inl rfl
  · cases c.sendLen.toNat with
    | zero => exact Or.inr (Or.inl rfl)
    | succ fuel =>
      simp only [DtpContext.writeLoop, hstate, Bool.not_true, Bool.false_eq_true, if_false, if_true]
      split_ifs
      · exact Or.inr (Or.inl rfl)
      · exact Or.inr (Or.inr rfl)

/-- `DTPWriteAvail` in `SYN_SENT`, on a socket that is not to be closed. -/
theorem dtpWriteAvail_synSent (hs : c.state = .synSent) (hclose : c.closeCalled = false) : c.dtpWriteAvail = c ∨
    c.dtpWriteAvail = c.beginWrite ∨ c.dtpWriteAvail = c.beginWrite.writeOne c.writeFlags c.sendLen := by
  have hfin : ∀ c' : DtpContext, c'.closeCalled = c.closeCalled → c'.wantsFIN = false := by
    intro c' hc
    simp [DtpContext.wantsFIN, hc, hclose]
  rw [DtpContext.dtpWriteAvail, DtpContext.dtpWriteAvailOn]
  obtain heq | heq | heq := writeFlush_synSent hs
  · exact Or.inl (by simp [heq])
  · exact Or.inr (Or.inl (by simp [heq, hfin c.beginWrite rfl]))
  · have hno := hfin (c.beginWrite.writeOne c.writeFlags c.sendLen) rfl
    exact Or.inr (Or.inr (by simp [heq, hno]))

def connectSYN (c : DtpContext) (addr : SockAddr) (fid : UInt32) (n e : List UInt8) : Datagram :=
  let s := c.startConnect addr fid n e
  mkDatagram (s.beginWrite.writeHeader s.writeFlags) (publicKeyBytes n e)

theorem writeDatagram_startConnect :
    (c.startConnect addr fid n e).beginWrite.writeDatagram (c.startConnect addr fid n e).writeFlags
      (c.startConnect addr fid n e).sendLen = connectSYN c addr fid n e := by
  have hlen : (c.startConnect addr fid n e).beginWrite.writeLen (c.startConnect addr fid n e).writeFlags
      (c.startConnect addr fid n e).sendLen = (publicKeyBytes n e).length := rfl
  have hoff : (c.startConnect addr fid n e).beginWrite.getWriteBufLastByteSentOff = 0 := by
    change ((0 : UInt32) - 0).toNat = 0
    decide
  have hbuf : (c.startConnect addr fid n e).beginWrite.writeBuf = (c.startConnect addr fid n e).writeBuf := rfl
  rw [DtpContext.writeDatagram, hlen, hoff, Int.toNat_natCast, hbuf, payload_startConnect]
  rfl

theorem liesAt_connectSYN : LiesAt (connectSYN c addr fid n e).body 0 (publicKeyBytes n e) := by
  intro j hj
  simp [connectSYN, mkDatagram]

theorem length_publicKeyBytes : (publicKeyBytes n e).length = 8 + n.length + e.length := by
  simp [publicKeyBytes, bytes32]
  omega

theorem getPayloadLen_connectSYN (hid : c.localID.length = sha1DigestLength) :
    getPayloadLen (connectSYN c addr fid n e) = (publicKeyBytes n e).length := by
  have hid' : (c.startConnect addr fid n e).beginWrite.localID.length = sha1DigestLength := hid
  exact getPayloadLen_mkDatagram (writeHeader_wf _ _ hid') _

/-- `dtp_connect` sends its SYN and counts the key as sent, or it sends nothing: the network is away, the
windows are closed or there has been a SYN before. -/
theorem dtpConnect_cases (addr : SockAddr) (fid : UInt32) (n e : List UInt8) (hclose : c.closeCalled = false) :
    ((c.dtpConnect addr fid n e).wire = c.wire ∧ (c.dtpConnect addr fid n e).lastByteSent = 0) ∨
      ((c.dtpConnect addr fid n e).wire = c.wire ++ [(addr, connectSYN c addr fid n e)] ∧
        (c.dtpConnect addr fid n e).lastByteSent = u32 (c.dtpConnect addr fid n e).keyLen ∧
        (c.dtpConnect addr fid n e).keyLen = (publicKeyBytes n e).length) := by
  rw [DtpContext.dtpConnect]
  obtain heq | heq | heq := dtpWriteAvail_synSent (c := c.startConnect addr fid n e) rfl hclose
  · rw [heq]
    exact Or.inl ⟨rfl, rfl⟩
  · rw [heq]
    exact Or.inl ⟨rfl, rfl⟩
  · rw [heq]
    refine Or.inr ⟨?_, ?_, rfl⟩
    · rw [← writeDatagram_startConnect]
      rfl
    · exact UInt32.zero_add _

end Connect

/-- The server takes the key `(n, e)` from the datagram and skips as many sequence numbers as the client
has counted. -/
structure KeyDelivered (n e : List UInt8) (client : DtpContext) (d : Datagram) : Prop where
  fits : KeyLengthsFit d
  modulus : modulus d = n
  exponent : exponent d = e
  counted : client.lastByteSent = u32 client.keyLen
  expected : ∀ rsa (c : DtpContext) key pad, (c.dtpHandleKey rsa d key pad false).nextByteExpected =
    c.nextByteExpected + u32 client.keyLen
  rcvd : ∀ rsa (c : DtpContext) key pad, (c.dtpHandleKey rsa d key pad false).lastByteRcvd =
    c.lastByteRcvd + u32 client.keyLen
  read : ∀ rsa (c : DtpContext) key pad, (c.dtpHandleKey rsa d key pad false).lastByteRead =
    c.lastByteRead + u32 client.keyLen

section Delivered
variable {n e : List UInt8} {client : DtpContext} {d : Datagram}

/-- `DTPHandleKey` for the first SYN moves the receive side by the length of the fields. -/
theorem recvSide_dtpHandleKey (rsa : Rsa) (c : DtpContext) (d : Datagram) (key : List UInt8) (pad : ℕ) :
    (c.dtpHandleKey rsa d key pad false).toRecvSide = (c.skipKey (keyFieldLen d)).toRecvSide := by
  simp only [DtpContext.dtpHandleKey, Bool.false_eq_true, if_false]
  split <;> rfl

theorem keyDelivered_of_liesAt (h : LiesAt d.body 0 (publicKeyBytes n e)) (hn : n.length ≤ rsaLen)
    (he : e.length ≤ rsaLen) (hpay : getPayloadLen d = (publicKeyBytes n e).length)
    (hkey : client.keyLen = (publicKeyBytes n e).length)
    (hsent : client.lastByteSent = u32 client.keyLen) : KeyDelivered n e client d := by
  have hmod := modulusLen_of_liesAt h hn
  have hexp := exponentLen_of_liesAt h hn he
  have hfield : keyFieldLen d = client.keyLen := by
    rw [keyFieldLen, hmod, hexp, hkey, length_publicKeyBytes]
    push_cast
    ring
  have hmove := fun rsa c key pad => recvSide_dtpHandleKey rsa c d key pad
  rw [hfield] at hmove
  have hfits : KeyLengthsFit d := by
    refine ⟨?_, ?_⟩
    · rw [keyFits, hmod, hexp]
      exact decide_eq_true ⟨by omega, by exact_mod_cast hn, by omega, by exact_mod_cast he⟩
    · rw [hfield, hkey, hpay]
  exact ⟨hfits, modulus_of_liesAt h hn, exponent_of_liesAt h hn he, hsent,
    fun rsa c key pad => congrArg RecvSide.nextByteExpected (hmove rsa c key pad),
    fun rsa c key pad => congrArg RecvSide.lastByteRcvd (hmove rsa c key pad),
    fun rsa c key pad => congrArg RecvSide.lastByteRead (hmove rsa c key pad)⟩

/-- The copies of `DTPHandleKey` stay inside its array and inside the datagram if and only if the lengths
in the datagram fit; and every key that `dtp_connect` can encode is delivered by the SYN it sends, if it
sends one. -/
theorem key_payload_iff (d : Datagram) (c : DtpContext) (addr : SockAddr) (fid : UInt32) (n e : List UInt8) :
    ((∀ x ∈ keyCopies d, x.Inside d) ↔ KeyLengthsFit d) ∧
    (c.localID.length = sha1DigestLength → c.closeCalled = false → n.length ≤ rsaLen → e.length ≤ rsaLen →
      ((c.dtpConnect addr fid n e).wire = c.wire ∧ (c.dtpConnect addr fid n e).lastByteSent = 0) ∨
      ∃ d, (c.dtpConnect addr fid n e).wire = c.wire ++ [(addr, d)] ∧
        KeyDelivered n e (c.dtpConnect addr fid n e) d) := by
  refine ⟨keyCopies_inside_iff d, fun hid hclose hn he => ?_⟩
  obtain hnone | ⟨hwire, hsent, hkey⟩ := dtpConnect_cases addr fid n e hclose
  · exact Or.inl hnone
  · exact Or.inr ⟨_, hwire, keyDelivered_of_liesAt liesAt_connectSYN hn he (getPayloadLen_connectSYN hid)
      hkey hsent⟩

end Delivered

/-- A client on a fresh context, with a modulus of four bytes and an exponent of three. -/
def sampleKeyClient : DtpContext := dtpCreateContext.dtpConnect ⟨1, 2⟩ 7 [9, 8, 7, 6] [1, 0, 1]

/-- Its SYN goes out and delivers the key. -/
theorem key_payload_sample : ∃ d, sampleKeyClient.wire = [(⟨1, 2⟩, d)] ∧
    KeyDelivered [9, 8, 7, 6] [1, 0, 1] sampleKeyClient d := by
  obtain ⟨-, hsent⟩ | hsent := (key_payload_iff (connectSYN dtpCreateContext ⟨1, 2⟩ 7 [9, 8, 7, 6] [1, 0, 1])
    dtpCreateContext ⟨1, 2⟩ 7 [9, 8, 7, 6] [1, 0, 1]).2
    rfl rfl (by decide) (by decide)
  · have hlen : sampleKeyClient.lastByteSent = 15 := by decide +kernel
    exact absurd (hlen.symm.trans hsent) (by decide)
  · exact hsent

/-- A SYN of full size whose first length is `1000`. -/
def longKeySYN : Datagram where
  hdr := { syn := true, fid := 7, seq := 0, ackSeq := 0, doff := 5, windowSize := 0 }
  len := 1472
  opts := fun _ => 0
  body := fun i => if i = 0 then 232 else if i = 1 then 3 else 0

/-- A thousand bytes are copied into the array, and the SYN is taken nevertheless. -/
theorem key_payload_overflows :
    (∃ x ∈ keyCopies longKeySYN, x.len = 1000 ∧ x.cap = 256 ∧ ¬x.Inside longKeySYN) ∧
    (dtpCreateContext.dtpHandleKey ⟨fun _ _ _ _ => some [], fun _ => none⟩ longKeySYN [] 0
      false).nextByteExpected = 1008 ∧
    (dtpCreateContext.dtpHandleKey ⟨fun _ _ _ _ => some [], fun _ => none⟩ longKeySYN [] 0
      false).wire.length = 1 := by
  have hlen : modulusLen longKeySYN = 1000 := by decide +kernel
  refine ⟨⟨⟨getHeaderLen longKeySYN + 4, sizeOfInt (modulusLen longKeySYN), rsaLen⟩, ?_, ?_, rfl, ?_⟩, ?_, ?_⟩
  · simp [keyCopies]
  · rw [hlen]
    rfl
  · rw [hlen]
    rintro ⟨-, -, hcap⟩
    exact absurd hcap (by decide)
  · decide +kernel
  · decide +kernel

end Cedos.Dtp
