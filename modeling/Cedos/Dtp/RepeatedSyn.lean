import Cedos.Dtp.KeyAgreement

/-!
# A SYN that arrives again

When a SYN of a known flow comes in from the same host, `DTPHandleKey` takes the length of
the ciphertext off `tc_lastByteSent`, sends the SYN+ACK from there, adds it again, and sets
`tc_lastByteWritten` to the result. As long as the SYN+ACK is all that has been sent and
nothing waits to be sent, this changes nothing.
-/

namespace Cedos.Dtp

open DtpContext

/-- What can happen to a context of the server. -/
inductive ServerEvent
  | own (e : Event)
  /-- a SYN of the flow -/
  | syn (d : Datagram) (addr : SockAddr) (env : SynEnv)

namespace ServerEvent

/-- When it can happen. -/
def offered (c : DtpContext) : ServerEvent → Prop
  | .own e => e.offered c ∧ e.isSynAck = false
  | .syn d _ _ => c.onFlowIDMap = true ∧ d.hdr.fid = c.flowID

/-- What it does. -/
def apply (k : Crypto) (c : DtpContext) : ServerEvent → DtpContext
  | .own e => e.apply k c
  | .syn d addr env =>
    match handleSYNPacket k.toRsa env (some c) d addr with
    | .ok (.known c') => c'
    | _ => c

end ServerEvent

/-- The runs of a context that `HandleSYNPacket` has created. -/
def answering (k : Crypto) (c₀ : DtpContext) : Machine DtpContext ServerEvent where
  init c := c = c₀
  allowed c e := e.offered c
  apply c e := e.apply k c

/-- The stream is as it was, and a SYN+ACK begins where the stream did. -/
structure Undisturbed (isn : UInt32) (c c' : DtpContext) : Prop where
  acked : c'.lastByteAcked = c.lastByteAcked
  sent : c'.lastByteSent = c.lastByteSent
  written : c'.lastByteWritten = c.lastByteWritten
  expected : c'.nextByteExpected = c.nextByteExpected
  read : c'.lastByteRead = c.lastByteRead
  writeBuf : c'.writeBuf = c.writeBuf
  packetQ : c'.packetQ = c.packetQ
  reply : ∀ x, c'.synsSent = c.synsSent ++ [x] → x.2.hdr.seq = isn

/-! ## The host of a context -/

theorem hostID_dtpHandleKey (rsa : Rsa) (c : DtpContext) (d : Datagram) (key : List UInt8) (pad : ℕ)
    (isResend : Bool) : (c.dtpHandleKey rsa d key pad isResend).hostID = c.hostID := by
  simp only [DtpContext.dtpHandleKey]
  cases rsa.encrypt (modulus d) (exponent d) key pad <;> cases isResend <;> rfl

/-- No event changes the host a context belongs to. -/
theorem hostID_of_reachable {k : Crypto} {c₀ c : DtpContext} (hs : c₀.state ≠ .synSent)
    (hc : (answering k c₀).Reachable c) : c.hostID = c₀.hostID ∧ c.state ≠ .synSent := by
  refine Machine.Reachable.invariant
    (P := fun c => c.hostID = c₀.hostID ∧ c.state ≠ .synSent) ?_ ?_ hc
  · rintro c rfl
    exact ⟨rfl, hs⟩
  · rintro c e ⟨hid, hst⟩ he
    cases e with
    | own e =>
      have ho : Onward c (e.apply k c) := Onward.apply k (Or.inl hst)
      refine ⟨(congrArg Settled.hostID ho.settled).trans hid, ?_⟩
      intro hst'
      exact hst (SockState.leads_synSent (hst' ▸ ho.state))
    | syn d addr env =>
      change ((ServerEvent.syn d addr env).apply k c).hostID = c₀.hostID ∧
        ((ServerEvent.syn d addr env).apply k c).state ≠ .synSent
      simp only [ServerEvent.apply]
      split
      · rename_i c' hr
        rcases handleSYNPacket_cases hr with ⟨c₁, hid', dl, hflow, -, hout⟩ | ⟨hflow, -⟩ | ⟨hflow, -⟩
        · obtain rfl := Option.some.inj hflow
          obtain rfl := SynOutcome.known.inj hout
          simp only [DtpContext.repeatSYN]
          split_ifs
          · rw [hostID_dtpHandleKey, state_dtpHandleKey]
            exact ⟨hid, hst⟩
          · exact ⟨hid, hst⟩
        · simp at hflow
        · simp at hflow
      · exact ⟨hid, hst⟩

/-! ## The repetition -/

theorem keyHeader_seq (c : DtpContext) : c.keyHeader.hdr.seq = c.lastByteSent := by
  simp only [DtpContext.keyHeader]
  split_ifs <;> rfl

theorem synsSent_sendKey (c : DtpContext) (cipher : List UInt8) :
    (c.sendKey cipher).synsSent = c.synsSent ++ [(c.peerAddr, mkDatagram c.keyHeader cipher)] := by
  have hsyn : (mkDatagram c.keyHeader cipher).hdr.syn = true := keyHeader_syn c
  simp [DtpContext.synsSent, DtpContext.sendKey, hsyn]

/-- The first SYN+ACK of a context begins at `0`. -/
theorem seq_of_created {rsa : Rsa} {env : SynEnv} {d : Datagram} {addr : SockAddr} {c₀ : DtpContext}
    (hfresh : env.fresh.synsSent = [])
    (h : handleSYNPacket rsa env none d addr = .ok (.created c₀)) :
    c₀.state = .synRcvd ∧ ∀ x ∈ c₀.synsSent, x.2.hdr.seq = 0 := by
  rcases handleSYNPacket_cases h with ⟨c, -, -, hflow, -⟩ |
    ⟨-, hid, deadline, scale, port, -, -, hout⟩ | ⟨-, hout⟩
  · simp at hflow
  · obtain rfl := SynOutcome.created.inj hout
    refine ⟨?_, ?_⟩
    · rw [state_dtpHandleKey]
      rfl
    · intro x hx
      simp only [DtpContext.dtpHandleKey] at hx
      cases henc : rsa.encrypt (modulus d) (exponent d) env.key env.pad with
      | none =>
        simp only [henc] at hx
        have hnil : x ∈ env.fresh.synsSent := hx
        simp [hfresh] at hnil
      | some cipher =>
        simp only [henc, synsSent_sendKey, List.mem_append, List.mem_singleton] at hx
        rcases hx with hx | rfl
        · have hnil : x ∈ env.fresh.synsSent := hx
          simp [hfresh] at hnil
        · exact keyHeader_seq _
  · simp at hout

section Repetition
variable {rsa : Rsa} {c : DtpContext} {d : Datagram} {addr : SockAddr} {hid key cipher : List UInt8}
  {pad : ℕ}

/-- The context from which the SYN+ACK is sent again. -/
def DtpContext.rewound (c : DtpContext) (d : Datagram) (addr : SockAddr) (key : List UInt8) (len : ℕ) :
    DtpContext :=
  (((c.rebind addr).assert (keyFits d)).setKey key).rewindSent len

theorem repeatSYN_same (hhost : c.hostID = hid) (henc : rsa.encrypt (modulus d) (exponent d) key pad = some cipher) :
    c.repeatSYN rsa d addr hid key pad = (c.rewound d addr key cipher.length).sendKey cipher := by
  simp [DtpContext.repeatSYN, hhost, DtpContext.dtpHandleKey, henc, DtpContext.rewound]

theorem repeatSYN_other (hhost : c.hostID ≠ hid) :
    c.repeatSYN rsa d addr hid key pad = c.sendRSTPacket d.hdr.fid addr := by
  simp [DtpContext.repeatSYN, hhost]

/-- What is taken off is added again. -/
theorem sent_rewound (len : ℕ) : (c.rewound d addr key len).lastByteSent + UInt32.ofNat len = c.lastByteSent := by
  simp [DtpContext.rewound, DtpContext.rewindSent, DtpContext.setKey, DtpContext.assert, DtpContext.rebind]

/-- One repetition, on any context. -/
theorem undisturbed_repeatSYN_iff (henc : rsa.encrypt (modulus d) (exponent d) key pad = some cipher)
    (hlen : cipher.length = rsaLen) : Undisturbed 0 c (c.repeatSYN rsa d addr hid key pad) ↔
    (c.hostID = hid → c.lastByteWritten = c.lastByteSent ∧ c.lastByteSent = 256) := by
  by_cases hhost : c.hostID = hid
  · have hback : (c.rewound d addr key cipher.length).lastByteSent + UInt32.ofNat cipher.length =
        c.lastByteSent := sent_rewound _
    have hsize : UInt32.ofNat cipher.length = 256 := by
      rw [hlen]
      rfl
    have hseq : (mkDatagram (c.rewound d addr key cipher.length).keyHeader cipher).hdr.seq =
        (c.rewound d addr key cipher.length).lastByteSent := keyHeader_seq _
    have hwritten : ((c.rewound d addr key cipher.length).sendKey cipher).lastByteWritten = c.lastByteSent := hback
    have hsyns : ((c.rewound d addr key cipher.length).sendKey cipher).synsSent = c.synsSent ++
        [(_, mkDatagram (c.rewound d addr key cipher.length).keyHeader cipher)] :=
      synsSent_sendKey _ _
    rw [repeatSYN_same hhost henc]
    constructor
    · intro hu _
      have hzero := hu.reply _ hsyns
      refine ⟨hu.written.symm.trans hwritten, ?_⟩
      rw [← hback, ← hseq, hzero, hsize]
      rfl
    · intro hquiet
      obtain ⟨hw, hs⟩ := hquiet hhost
      refine ⟨rfl, hback, hwritten.trans hw.symm, rfl, rfl, rfl, rfl, ?_⟩
      intro x hx
      have hlast := List.append_cancel_left (hsyns.symm.trans hx)
      rw [← List.head_eq_of_cons_eq hlast, hseq]
      have hzero : (c.rewound d addr key cipher.length).lastByteSent = c.lastByteSent - 256 := by
        rw [← hback, hsize, UInt32.add_sub_cancel]
      rw [hzero, hs]
      rfl
  · rw [repeatSYN_other hhost]
    constructor
    · intro _ hsame
      exact absurd hsame hhost
    · intro _
      refine ⟨rfl, rfl, rfl, rfl, rfl, rfl, rfl, ?_⟩
      intro x hx
      have hrst : (c.sendRSTPacket d.hdr.fid addr).synsSent = c.synsSent := by
        simp [DtpContext.synsSent, DtpContext.sendRSTPacket, DtpContext.send, rstDatagram, mkDatagram,
          dtpAddOptionToHeader, dtpGenerateHeader]
      have hlen' := congrArg List.length (hrst.symm.trans hx)
      simp at hlen'

end Repetition

/-- A copy of a SYN that arrives at any point of any run leaves the stream undisturbed if and
only if it is refused, or nothing but the SYN+ACK has been sent and nothing waits. -/
theorem repeated_syn_iff {k : Crypto}
    (hrsa : ∀ n e key pad cipher, k.encrypt n e key pad = some cipher → cipher.length = rsaLen)
    {env₀ env : SynEnv} {d : Datagram} {addr₀ addr : SockAddr} {c₀ c c' : DtpContext}
    (hfresh : env₀.fresh.synsSent = [])
    (h₀ : handleSYNPacket k.toRsa env₀ none d addr₀ = .ok (.created c₀))
    {x₀ : SockAddr × Datagram} (hx₀ : x₀ ∈ c₀.synsSent) (hc : (answering k c₀).Reachable c)
    {hid : List UInt8} {deadline : Option UInt32}
    (hhid : dtpGetOption d env.hid (some 0) = .ok (hid, deadline))
    (henc : (k.encrypt (modulus d) (exponent d) env.key env.pad).isSome)
    (hc' : handleSYNPacket k.toRsa env (some c) d addr = .ok (.known c')) :
    Undisturbed x₀.2.hdr.seq c c' ↔ (c₀.hostID = hid → c.lastByteWritten = c.lastByteSent ∧ c.lastByteSent = 256) := by
  obtain ⟨hstate, hseq⟩ := seq_of_created hfresh h₀
  obtain ⟨cipher, hcipher⟩ := Option.isSome_iff_exists.mp henc
  have hhost := (hostID_of_reachable (by simp [hstate]) hc).1
  rcases handleSYNPacket_cases hc' with ⟨c₁, hid', dl, hflow, hopt, hout⟩ | ⟨hflow, -⟩ | ⟨hflow, -⟩
  · obtain rfl := Option.some.inj hflow
    obtain rfl := SynOutcome.known.inj hout
    have hsame : hid' = hid := congrArg Prod.fst (Except.ok.inj (hopt.symm.trans hhid))
    rw [hseq x₀ hx₀, hsame, ← hhost]
    exact undisturbed_repeatSYN_iff hcipher (hrsa _ _ _ _ _ hcipher)
  · simp at hflow
  · simp at hflow

/-- The context after the first SYN. -/
def sampleServer : DtpContext :=
  (acceptSYN (hostContext 4 (List.replicate 20 9) 6000) sampleCaller.syn ⟨2, 5000⟩ sampleCaller.id 0
    sampleCaller.recvScale 5000).dtpHandleKey toyCrypto.toRsa sampleCaller.syn
    (List.replicate 20 1) 0 false

theorem created_sampleServer :
    handleSYNPacket toyCrypto.toRsa (sampleSynEnv 1) none sampleCaller.syn ⟨2, 5000⟩ =
      .ok (.created sampleServer) := sampleCaller.handleSYNPacket_new _ rfl rfl

/-- A copy of the SYN right after the first. -/
theorem repeated_syn_at_once :
    ∃ x₀ ∈ sampleServer.synsSent, Undisturbed x₀.2.hdr.seq sampleServer
      (sampleServer.repeatSYN toyCrypto.toRsa sampleCaller.syn ⟨2, 5000⟩ sampleCaller.id
        (List.replicate 20 2) 0) := by
  have hfirst : sampleServer.lastByteWritten = sampleServer.lastByteSent ∧
      sampleServer.lastByteSent = 256 := by decide +kernel
  have hlen : 0 < sampleServer.synsSent.length := by decide +kernel
  obtain ⟨x₀, hx₀⟩ := List.exists_mem_of_length_pos hlen
  have hknown : handleSYNPacket toyCrypto.toRsa (sampleSynEnv 2) (some sampleServer)
      sampleCaller.syn ⟨2, 5000⟩ = .ok (.known _) := sampleCaller.handleSYNPacket_known _ _
  exact ⟨x₀, hx₀, (repeated_syn_iff (fun n e key pad _ h => toyCrypto_length n e key pad h) rfl
    created_sampleServer hx₀ (.init rfl) (sampleCaller.dtpGetOption_syn _) rfl hknown).mpr
    fun _ => hfirst⟩

/-- The server's application has sent one byte when a copy of the SYN arrives. -/
theorem repeated_syn_skips_byte :
    ∃ c c', (answering toyCrypto sampleServer).Reachable c ∧
      handleSYNPacket toyCrypto.toRsa (sampleSynEnv 2) (some c) sampleCaller.syn ⟨2, 5000⟩ =
        .ok (.known c') ∧ ¬Undisturbed 0 c c' := by
  have h0 : (answering toyCrypto sampleServer).Reachable sampleServer := .init rfl
  have h1 : (answering toyCrypto sampleServer).Reachable
      ((answering toyCrypto sampleServer).apply sampleServer (.own (.send [42]))) :=
    .step (e := ServerEvent.own (.send [42])) h0 ⟨trivial, rfl⟩
  refine ⟨_, _, h1, sampleCaller.handleSYNPacket_known _ _, ?_⟩
  have hhost : ((answering toyCrypto sampleServer).apply sampleServer (.own (.send [42]))).hostID =
      sampleCaller.id := by decide +kernel
  have hsent : ((answering toyCrypto sampleServer).apply sampleServer
      (.own (.send [42]))).lastByteSent = 257 := by decide +kernel
  intro hu
  have hquiet := (undisturbed_repeatSYN_iff rfl (toyCrypto_length [] [] _ 0 rfl)).mp hu hhost
  rw [hsent] at hquiet
  exact absurd hquiet.2 (by decide)

end Cedos.Dtp
