import Cedos.Dtp.Agreement
import Cedos.Dtp.Options

/-!
# Do both ends have the same key?

The server makes up a new key for every SYN it handles, also for a repeated one, and sends
it in the SYN+ACK. The client takes the key of the first SYN+ACK that reaches it. So the
keys agree as long as the SYN+ACK the client takes is the last one the server has sent for
the flow, and the server handles no further SYN of the flow afterwards.
-/

namespace Cedos.Dtp

open DtpContext

/-- RSA under the public key `(n, e)`: a key of twenty bytes can be encrypted, the result is
as long as the modulus, and decryption gives the key back. -/
def Rsa.Works (rsa : Rsa) (n e : List UInt8) : Prop :=
  ∀ key pad, key.length = 20 → ∃ cipher, rsa.encrypt n e key pad = some cipher ∧
    cipher.length = rsaLen ∧ rsa.decrypt cipher = some key

/-! ## The public key in the SYN -/

section PublicKey
variable {d : Datagram} {n e : List UInt8} (h : LiesAt d.body 0 (publicKeyBytes n e))
include h

variable (hn : n.length ≤ rsaLen)
include hn

theorem modulusLen_of_liesAt : modulusLen d = n.length := by
  simp only [publicKeyBytes, List.append_assoc] at h
  simp only [rsaLen] at hn
  have hsmall : (UInt32.ofNat n.length).toNat = n.length := toNat_ofNat_word (by omega)
  rw [modulusLen, word32_bytes32 h.left, i32_of_lt (by omega), hsmall]

theorem modulus_of_liesAt : modulus d = n := by
  rw [modulus, modulusLen_of_liesAt h hn]
  simp only [publicKeyBytes, List.append_assoc] at h
  exact h.right.left.peek

theorem exponentLen_of_liesAt (he : e.length ≤ rsaLen) : exponentLen d = e.length := by
  have hlen := modulusLen_of_liesAt h hn
  simp only [publicKeyBytes, List.append_assoc] at h
  simp only [rsaLen] at he
  have hsmall : (UInt32.ofNat e.length).toNat = e.length := toNat_ofNat_word (by omega)
  have hword : word32 d.body (4 + n.length) = UInt32.ofNat e.length :=
    word32_bytes32 (by simpa [bytes32] using h.right.right.left)
  rw [exponentLen, hlen, Int.toNat_natCast, hword, i32_of_lt (by omega), hsmall]

theorem exponent_of_liesAt (he : e.length ≤ rsaLen) : exponent d = e := by
  have hoff : 8 + n.length = 0 + (bytes32 (UInt32.ofNat n.length)).length + n.length +
      (bytes32 (UInt32.ofNat e.length)).length := by
    simp only [bytes32, List.length_cons, List.length_nil]
    omega
  rw [exponent, modulusLen_of_liesAt h hn, exponentLen_of_liesAt h hn he, Int.toNat_natCast, Int.toNat_natCast, hoff]
  simp only [publicKeyBytes, List.append_assoc] at h
  exact h.right.right.right.peek

end PublicKey

namespace Caller
variable (a : Caller)

theorem liesAt_syn : LiesAt a.syn.body 0 a.key := by
  intro j hj
  simp [syn, mkDatagram]

theorem modulus_syn : modulus a.syn = a.n := modulus_of_liesAt a.liesAt_syn a.hn

theorem exponent_syn : exponent a.syn = a.e := exponent_of_liesAt a.liesAt_syn a.hn a.he

/-- The options of the SYN: the host, and the window scale if there is one. -/
def synOpts (a : Caller) : List Opt :=
  [⟨optHostId, a.id⟩] ++ if 0 < a.recvScale then [⟨optWinScale, [a.recvScale]⟩] else []

theorem carries_synHeader : a.synHeader.Carries a.synOpts := by
  have hlen : a.id.length = 20 := a.hid
  have hhost := (carries_dtpGenerateHeader a.start.beginWrite.lastByteSent
    a.start.beginWrite.nextByteExpected a.start.beginWrite.flowID a.start.writeFlags
    a.start.beginWrite.advertisedWindow).add optHostId a.id (by decide) (by simp [encodeOpts, hlen])
  have hscale := hhost.addIf (0 < a.recvScale) optWinScale [a.recvScale] (by decide)
    (by simp [hlen])
  have hheader : a.synHeader = if 0 < a.recvScale
      then dtpAddOptionToHeader (dtpAddOptionToHeader (dtpGenerateHeader
        a.start.beginWrite.lastByteSent a.start.beginWrite.nextByteExpected
        a.start.beginWrite.flowID a.start.writeFlags a.start.beginWrite.advertisedWindow)
        optHostId a.id) optWinScale [a.recvScale]
      else dtpAddOptionToHeader (dtpGenerateHeader a.start.beginWrite.lastByteSent
        a.start.beginWrite.nextByteExpected a.start.beginWrite.flowID a.start.writeFlags
        a.start.beginWrite.advertisedWindow) optHostId a.id := by
    have hsyn : a.start.writeFlags.syn = true := rfl
    have hdead : a.start.beginWrite.deadline = 0 := rfl
    have hfirst : a.start.beginWrite.isFirstPacketSent = false := rfl
    have hrecv : a.start.beginWrite.recvWindowScale = a.recvScale := rfl
    have hid : a.start.beginWrite.localID = a.id := rfl
    simp only [synHeader, DtpContext.writeHeader, hsyn, hdead, hfirst, hrecv, hid, if_true,
      lt_self_iff_false, decide_false, Bool.and_false, Bool.false_eq_true, if_false, Bool.not_false,
      Bool.true_and, decide_eq_true_eq]
  rw [hheader]
  exact hscale

/-- The SYN names the client's host and no deadline. -/
theorem dtpGetOption_syn (hid : List UInt8) : dtpGetOption a.syn hid (some 0) = .ok (a.id, some 0) := by
  have hlen : a.id.length = 20 := a.hid
  have hget : a.synOpts.foldl (getStep .little) (hid, some 0) = (a.id, some 0) := by
    simp only [synOpts]
    split_ifs <;> simp [getStep, hlen, sha1DigestLength, optHostId, optWinScale, optDeadline]
  rw [syn, (parsers_mkDatagram a.carries_synHeader a.key hid 0 0 0).1, hget]

/-- The SYN announces the client's window scale. -/
theorem dtpParseOption_syn (port : UInt16) : dtpParseOption a.syn 0 port = .ok (a.recvScale, port) := by
  have hle : a.recvScale ≤ maxWinscaleShift := by
    simp only [recvScale]
    split_ifs with hlt
    · exact UInt8.le_refl _
    · exact UInt8.not_lt.mp hlt
  have hparse : a.synOpts.foldl (parseStep .little) (0, port) = (a.recvScale, port) := by
    simp only [synOpts]
    split_ifs with hpos
    · simp [parseStep, optHostId, optWinScale, optPort, hle]
    · have hzero : a.recvScale = 0 := by
        apply UInt8.toNat_inj.mp
        rw [UInt8.lt_iff_toNat_lt] at hpos
        simpa using hpos
      simp [parseStep, optHostId, optWinScale, optPort, hzero]
  rw [syn, (parsers_mkDatagram a.carries_synHeader a.key [] 0 0 port).2, hparse]

end Caller

/-! ## `DTPHandleKey` -/

/-- The options of a SYN+ACK. -/
def DtpContext.keyOpts (c : DtpContext) : List Opt :=
  [⟨optHostId, c.localID⟩] ++ (if 0 < c.deadline then [⟨optDeadline, bytes32 (u32 c.deadline)⟩] else []) ++
    (if !c.isFirstPacketSent && decide (0 < c.recvWindowScale)
      then [⟨optWinScale, [c.recvWindowScale]⟩] else []) ++
    [⟨optPort, bytes16 c.localPort⟩]

/-- The context after `DTPHandleKey` has sent a SYN+ACK with a new key. -/
structure Rekeyed (rsa : Rsa) (new : List UInt8) (c c' : DtpContext) : Prop where
  lifecycle : c'.toLifecycle = c.toLifecycle
  sendSYN : c'.sendSYN = c.sendSYN
  packetQ : c'.packetQ = c.packetQ
  key : c'.key = new
  sendScale : c'.sendWindowScale = c.sendWindowScale
  recvScale : c'.recvWindowScale = c.recvWindowScale
  localID : c'.localID = c.localID
  deadline : c'.deadline = c.deadline
  first : c'.isFirstPacketSent = true
  reply : ∃ addr h cipher, c'.synsSent = c.synsSent ++ [(addr, mkDatagram h cipher)] ∧
    (c.localID.length = sha1DigestLength → h.Carries c.keyOpts) ∧ cipher.length = rsaLen ∧ rsa.decrypt cipher = some new

theorem keyHeader_syn (c : DtpContext) : c.keyHeader.hdr.syn = true := by
  simp only [DtpContext.keyHeader]
  split_ifs <;> rfl

theorem carries_keyHeader {c : DtpContext} (hid : c.localID.length = sha1DigestLength) :
    c.keyHeader.Carries c.keyOpts := by
  have hif : ∀ (P : Prop) [Decidable P] (o : Opt) (n : ℕ), o.value.length + 2 = n →
      (encodeOpts (if P then [o] else [])).length ≤ n := by
    intro P _ o n hn
    split_ifs
    · exact (length_encodeOpts_singleton o.code o.value).trans hn |>.le
    · exact Nat.zero_le n
  have h0 := hif (0 < c.deadline) ⟨optDeadline, bytes32 (u32 c.deadline)⟩ 6 rfl
  have h1 := hif ((!c.isFirstPacketSent && decide (0 < c.recvWindowScale)) = true)
    ⟨optWinScale, [c.recvWindowScale]⟩ 3 rfl
  have hlen : c.localID.length = 20 := hid
  have hhost := (carries_dtpGenerateHeader c.lastByteSent c.nextByteExpected c.flowID
    { syn := true, ack := true } c.advertisedWindow).add optHostId c.localID (by decide)
    (by simp [encodeOpts, hlen])
  have hdead := hhost.addIf (0 < c.deadline) optDeadline (bytes32 (u32 c.deadline)) (by decide)
    (by simp [hlen, bytes32])
  have hscale := hdead.addIf ((!c.isFirstPacketSent && decide (0 < c.recvWindowScale)) = true)
    optWinScale [c.recvWindowScale] (by decide)
    (by simp only [List.nil_append, length_encodeOpts_append, length_encodeOpts_singleton, hlen,
          List.length_singleton]; omega)
  exact hscale.add optPort (bytes16 c.localPort) (by decide)
    (by simp only [List.nil_append, length_encodeOpts_append, length_encodeOpts_singleton, hlen,
          bytes16, List.length_cons, List.length_nil]; omega)

theorem rekeyed_sendKey {rsa : Rsa} {c b : DtpContext} {new cipher : List UInt8} (hlife : b.toLifecycle = c.toLifecycle)
    (hopen : b.toOpening = c.toOpening) (hq : b.packetQ = c.packetQ) (hkey : b.key = new)
    (hpeer : b.sendWindowScale = c.sendWindowScale) (hctl : b.recvWindowScale = c.recvWindowScale)
    (hid : b.localID = c.localID) (hport : b.localPort = c.localPort) (hwire : b.wire = c.wire)
    (hlen : cipher.length = rsaLen) (hdec : rsa.decrypt cipher = some new) : Rekeyed rsa new c (b.sendKey cipher) where
  lifecycle := hlife
  sendSYN := by
    have hsyn : b.sendSYN = c.sendSYN := congrArg Opening.sendSYN hopen
    exact hsyn
  packetQ := hq
  key := hkey
  sendScale := hpeer
  recvScale := hctl
  localID := hid
  deadline := by
    have hdead : b.deadline = c.deadline := congrArg Opening.deadline hopen
    exact hdead
  first := rfl
  reply := by
    refine ⟨b.peerAddr, b.keyHeader, cipher, ?_, ?_, hlen, hdec⟩
    · have hsyn : (mkDatagram b.keyHeader cipher).hdr.syn = true := keyHeader_syn b
      simp [DtpContext.synsSent, DtpContext.sendKey, hwire, hsyn]
    · intro hlocal
      have hopts : c.keyOpts = b.keyOpts := by
        have h0 : b.deadline = c.deadline := congrArg Opening.deadline hopen
        have h1 : b.isFirstPacketSent = c.isFirstPacketSent :=
          congrArg Opening.isFirstPacketSent hopen
        simp only [DtpContext.keyOpts, h0, h1, hctl, hid, hport]
      rw [hopts]
      exact carries_keyHeader (hid ▸ hlocal)

theorem rekeyed_dtpHandleKey {rsa : Rsa} {a : Caller} (hrsa : rsa.Works a.n a.e) (c : DtpContext)
    {key : List UInt8} (hkey : key.length = 20) (pad : ℕ) (isResend : Bool) :
    Rekeyed rsa key c (c.dtpHandleKey rsa a.syn key pad isResend) := by
  obtain ⟨cipher, henc, hlen, hdec⟩ := hrsa key pad hkey
  simp only [DtpContext.dtpHandleKey, a.modulus_syn, a.exponent_syn, henc]
  cases isResend with
  | true => exact rekeyed_sendKey rfl rfl rfl rfl rfl rfl rfl rfl rfl hlen hdec
  | false => exact rekeyed_sendKey rfl rfl rfl rfl rfl rfl rfl rfl rfl hlen hdec

/-! ## The server's answers -/

/-- A context of the server whose latest SYN+ACK carries its key. -/
structure Answered (rsa : Rsa) (c : DtpContext) : Prop where
  started : c.state ≠ .synSent
  noSYN : c.NoSYN
  last : ∃ d, (c.synsSent.map Prod.snd).getLast? = some d ∧ rsa.decrypt (peek d.body 0 rsaLen) = some c.key

namespace Answered
variable {rsa : Rsa} {c c' : DtpContext}

theorem onward (h : Answered rsa c) (ho : Onward c c') : Answered rsa c' := by
  obtain ⟨hno, hsyns⟩ := ho.noSYN h.noSYN
  have hkey : c'.key = c.key := congrArg Settled.key ho.settled
  refine ⟨?_, hno, ?_⟩
  · intro hs'
    exact h.started (SockState.leads_synSent (hs' ▸ ho.state))
  · rw [hsyns, hkey]
    exact h.last

theorem of_rekeyed {key : List UInt8} (hs : c.state ≠ .synSent) (hno : c.NoSYN)
    (hr : Rekeyed rsa key c c') : Answered rsa c' := by
  obtain ⟨addr, h, cipher, hsyns, -, hlen, hdec⟩ := hr.reply
  refine ⟨?_, ⟨hr.sendSYN.trans hno.1, ?_⟩, mkDatagram h cipher, ?_, ?_⟩
  · have hstate : c'.state = c.state := congrArg Lifecycle.state hr.lifecycle
    rw [hstate]
    exact hs
  · rw [hr.packetQ]
    exact hno.2
  · simp [hsyns]
  · have hbody : peek (mkDatagram h cipher).body 0 rsaLen = cipher := by
      rw [← hlen]
      exact peek_getD cipher 0
    rw [hbody, hr.key]
    exact hdec

/-- A repeated SYN is answered with a new key, or refused. -/
theorem repeatSYN {a : Caller} (hrsa : rsa.Works a.n a.e) (h : Answered rsa c) (addr : SockAddr) (hid : List UInt8)
    {key : List UInt8} (hkey : key.length = 20) (pad : ℕ) : Answered rsa (c.repeatSYN rsa a.syn addr hid key pad) := by
  simp only [DtpContext.repeatSYN]
  split_ifs
  · exact of_rekeyed (c := c.rebind addr) h.started h.noSYN
      (rekeyed_dtpHandleKey hrsa _ hkey pad true)
  · exact h.onward (.of_moves (.of_act (.rst c _ addr) (by decide) (by decide)))

theorem acceptSYN {a : Caller} (hrsa : rsa.Works a.n a.e) {fresh : DtpContext}
    (hfresh : ∃ scale id port, id.length = sha1DigestLength ∧ fresh = hostContext scale id port)
    (addr : SockAddr) (hid : List UInt8) (deadline : UInt32) (scale : UInt8) (port : UInt16)
    {key : List UInt8} (hkey : key.length = 20) (pad : ℕ) :
    Answered rsa ((DtpContext.acceptSYN fresh a.syn addr hid deadline scale port).dtpHandleKey
      rsa a.syn key pad false) := by
  obtain ⟨scale', id, port', -, rfl⟩ := hfresh
  refine of_rekeyed ?_ ⟨rfl, ?_⟩ (rekeyed_dtpHandleKey hrsa _ hkey pad false)
  · simp [DtpContext.acceptSYN]
  · intro p hp
    exact absurd hp List.not_mem_nil

end Answered

namespace Caller
variable (a : Caller) {rsa : Rsa} {env : SynEnv} (addr : SockAddr)

theorem handleSYNPacket_new (hroom : env.room = true) (hscale : env.fresh.sendWindowScale = 0) :
    handleSYNPacket rsa env none a.syn addr =
      .ok (.created ((acceptSYN env.fresh a.syn addr a.id 0 a.recvScale addr.port).dtpHandleKey rsa
        a.syn env.key env.pad false)) := by
  simp [handleSYNPacket, a.dtpGetOption_syn, hroom, hscale, a.dtpParseOption_syn, bind, Except.bind, pure, Except.pure]

theorem handleSYNPacket_known (c : DtpContext) : handleSYNPacket rsa env (some c) a.syn addr =
    .ok (.known (c.repeatSYN rsa a.syn addr a.id env.key env.pad)) := by
  simp [handleSYNPacket, a.dtpGetOption_syn, bind, Except.bind, pure, Except.pure]

end Caller

/-! ## Runs -/

/-- The client's key is that of the context the server has, or last had, for the flow. -/
def Parties.Agree (s : Parties) : Prop :=
  ∀ c, s.flows s.client.flowID = some c → c.key = s.client.key

/-- The server handles no SYN of the client's flow once the client has left `SYN_SENT`, and
the SYN+ACK that takes the client out of it is the last one the server's context has sent. -/
def LatestAnswer (s : Parties) : PartyEvent → Prop
  | .syn d _ _ => d.hdr.fid = s.client.flowID → s.client.state = .synSent
  | .synAck d _ _ => s.client.state = .synSent → ∀ c, s.flows s.client.flowID = some c →
      (c.synsSent.map Prod.snd).getLast? = some d
  | _ => True

theorem key_rule {k : Crypto} {a : Caller} (hrsa : k.toRsa.Works a.n a.e) :
    AgreementRule k a LatestAnswer (Answered k.toRsa) fun cl c => c.key = cl.key where
  onward hs h ho := h.onward ho
  known addr hid key pad hs h hkey := h.repeatSYN hrsa addr hid hkey pad
  created scale id port addr hid deadline scale' port' key pad hid' _ hkey :=
    Answered.acceptSYN hrsa ⟨scale, id, port, hid', rfl⟩ addr hid deadline scale' port' hkey pad
  adopt := by
    intro s d addr hid hid' key scale port c _ hs hl hc h hdec _
    obtain ⟨d', hlast, hdec'⟩ := h.last
    have heq : d' = d := Option.some.inj (hlast.symm.trans (hl hs c hc))
    rw [heq] at hdec'
    exact Option.some.inj (hdec'.symm.trans hdec)
  later := by
    intro s d addr env hs hl hfid
    exact absurd (hl hfid) hs

/-- Once the client is established, its key is the server's for the rest of the run, if
every step of the run meets the condition. -/
theorem keys_agree {k : Crypto} {a : Caller} (hrsa : k.toRsa.Works a.n a.e) {s : Parties}
    (hs : ((opening k a).restrict LatestAnswer).Reachable s) (hest : s.client.state = .established)
    {es : List PartyEvent} (hes : ((opening k a).restrict LatestAnswer).Admits s es) :
    (((opening k a).restrict LatestAnswer).run s es).Agree :=
  (key_rule hrsa).agree hs hest hes

/-! ## A run -/

theorem Parties.client_handleSYN (rsa : Rsa) (s : Parties) (d : Datagram) (addr : SockAddr)
    (env : SynEnv) : (s.handleSYN rsa d addr env).client = s.client := by
  simp only [Parties.handleSYN]
  split <;> rfl

/-- Padding instead of encryption. -/
def toyCrypto : Crypto where
  encrypt _ _ key _ := some ((key ++ List.replicate rsaLen 0).take rsaLen)
  decrypt cipher := some (cipher.take 20)
  hmac key msg := key ++ msg

theorem toyCrypto_length (n e key : List UInt8) (pad : ℕ) {cipher : List UInt8}
    (h : toyCrypto.encrypt n e key pad = some cipher) : cipher.length = rsaLen := by
  rw [← Option.some.inj h, List.length_take, List.length_append, List.length_replicate]
  omega

theorem toyCrypto_works (n e : List UInt8) : toyCrypto.toRsa.Works n e := by
  intro key pad hkey
  refine ⟨_, rfl, toyCrypto_length n e key pad rfl, ?_⟩
  have hle : 20 ≤ rsaLen := by decide
  have htake : (key ++ List.replicate rsaLen 0).take 20 = key := by
    rw [← hkey, List.take_left']
    rfl
  simp only [toyCrypto, List.take_take, Nat.min_eq_left hle, htake]

/-- A client with window scale `4`. -/
def sampleCaller : Caller where
  scale := 4
  id := List.replicate 20 7
  port := 5000
  addr := ⟨1, 80⟩
  fid := 9
  n := [35]
  e := [5]
  hid := by decide
  hn := by decide
  he := by decide

/-- A server with window scale `4` that draws this key. -/
def sampleSynEnv (key : UInt8) : SynEnv where
  fresh := hostContext 4 (List.replicate 20 9) 6000
  hid := []
  key := List.replicate 20 key
  pad := 0
  room := true

/-- The client's SYN arrives, and the server draws a key. -/
def sampleSYN (key : UInt8) : PartyEvent :=
  .syn sampleCaller.syn ⟨2, 5000⟩ (sampleSynEnv key)

/-- The client has called, nothing has arrived. -/
def sampleStart : Parties := ⟨sampleCaller.context, fun _ => none, []⟩

def sampleAnswered : Parties := (sampleSYN 1).apply toyCrypto sampleStart

theorem sampleAnswered_ne_nil : sampleAnswered.synAcksOf 9 ≠ [] := by
  have hlen : (sampleAnswered.synAcksOf 9).length = 1 := by decide +kernel
  intro hnil
  simp [hnil] at hlen

/-- The first SYN+ACK arrives at the client. -/
def sampleReply : PartyEvent :=
  .synAck ((sampleAnswered.synAcksOf 9).head sampleAnswered_ne_nil) ⟨1, 80⟩ []

/-- The client answers a SYN+ACK with an ACK only. -/
theorem synsSent_synAck (k : Crypto) (c : DtpContext) (d : Datagram) (addr : SockAddr)
    (hid : List UInt8) : ((Event.synAck d addr hid).apply k c).synsSent = c.synsSent := by
  have hack : ∀ c : DtpContext, c.dtpSendACKPacket.synsSent = c.synsSent := by
    intro c
    simp [DtpContext.synsSent, DtpContext.dtpSendACKPacket, DtpContext.send, mkDatagram, dtpGenerateHeader]
  simp only [Event.apply]
  split
  · rename_i r hr
    rcases handleSYNACKPacket_cases hr with ⟨-, rfl⟩ | ⟨-, hid', rfl⟩ | ⟨-, hid', key, scale, port, -, -, rfl⟩
    · exact hack c
    · rfl
    · exact hack _
  · rfl

theorem offered_sampleSYN {s : Parties} (hs : s.client.synsSent = sampleCaller.context.synsSent)
    (key : UInt8) : (sampleSYN key).offered s := by
  refine ⟨?_, by simp [sampleSynEnv], 4, List.replicate 20 9, 6000, by simp [sha1DigestLength], rfl⟩
  rw [hs]
  exact sampleCaller.syn_mem

theorem offered_sampleReply : sampleReply.offered sampleAnswered :=
  Or.inr ⟨9, List.head_mem _⟩

/-- The client takes the only SYN+ACK there is and then reads. -/
theorem keys_agree_single_syn :
    (((opening toyCrypto sampleCaller).restrict LatestAnswer).run
      (sampleReply.apply toyCrypto sampleAnswered) [.client (.recv 10 false)]).Agree := by
  have h0 : ((opening toyCrypto sampleCaller).restrict LatestAnswer).Reachable sampleStart :=
    .init rfl
  have h1 : ((opening toyCrypto sampleCaller).restrict LatestAnswer).Reachable sampleAnswered := by
    refine Machine.Reachable.step (e := sampleSYN 1) h0 ⟨offered_sampleSYN rfl 1, ?_⟩
    exact fun _ => sampleCaller.state_context
  have hlast : ∀ c, sampleAnswered.flows 9 = some c → (c.synsSent.map Prod.snd).getLast? =
        some ((sampleAnswered.synAcksOf 9).head sampleAnswered_ne_nil) := by
    intro c hc
    have hlen : (sampleAnswered.synAcksOf 9).length = 1 := by decide +kernel
    obtain ⟨d, hd⟩ := List.length_eq_one_iff.mp hlen
    have heq : c.synsSent.map Prod.snd = [d] := by
      rw [← hd]
      simp [Parties.synAcksOf, hc]
    simp [heq, hd]
  have h2 : ((opening toyCrypto sampleCaller).restrict LatestAnswer).Reachable
      (sampleReply.apply toyCrypto sampleAnswered) := by
    refine Machine.Reachable.step (e := sampleReply) h1 ⟨offered_sampleReply, fun _ c hc => hlast c ?_⟩
    have hfid : sampleAnswered.client.flowID = 9 := by decide +kernel
    rwa [hfid] at hc
  exact keys_agree (toyCrypto_works _ _) h2 (by decide +kernel) ⟨⟨⟨trivial, rfl⟩, trivial⟩, trivial⟩

def sampleSplit : Parties :=
  (opening toyCrypto sampleCaller).run sampleStart [sampleSYN 1, sampleReply, sampleSYN 2]

/-- The SYN arrives a second time after the client has been established with the first key. -/
theorem repeated_syn_splits_keys :
    ∃ s es, (opening toyCrypto sampleCaller).init s ∧ (opening toyCrypto sampleCaller).Admits s es ∧
      ((opening toyCrypto sampleCaller).run s es).client.state = .established ∧
      ¬((opening toyCrypto sampleCaller).run s es).Agree := by
  refine ⟨sampleStart, [sampleSYN 1, sampleReply, sampleSYN 2], rfl, ?_, ?_, ?_⟩
  · refine ⟨offered_sampleSYN rfl 1, offered_sampleReply, offered_sampleSYN ?_ 2, trivial⟩
    exact (synsSent_synAck ..).trans (congrArg _ (Parties.client_handleSYN ..))
  · decide +kernel
  · intro hagree
    have hserver : (sampleSplit.flows 9).map (fun c => c.key) = some (List.replicate 20 2) := by
      decide +kernel
    have hclient : sampleSplit.client.key = List.replicate 20 1 := by decide +kernel
    have hfid : sampleSplit.client.flowID = 9 := by decide +kernel
    obtain ⟨c, hc, hkey⟩ := Option.map_eq_some_iff.mp hserver
    have heq : c.key = sampleSplit.client.key := hagree c (hfid ▸ hc)
    rw [hkey, hclient] at heq
    exact absurd heq (by decide)

end Cedos.Dtp
