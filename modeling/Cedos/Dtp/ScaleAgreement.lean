import Cedos.Dtp.KeyAgreement

/-!
# The window scales at both ends

Each end announces its window scale in an option of its first packet and reads the other's
there. The client's first packet is its SYN, which is sent again as it is. The server's is
its first SYN+ACK; the later ones are composed anew and do not have the option, and a client
that takes one of those is left with the scale `0`.
-/

namespace Cedos.Dtp

open DtpContext

/-- Reading the options of a SYN+ACK gives this scale. -/
def Datagram.SaysScale (d : Datagram) (scale : UInt8) : Prop :=
  ∀ port, ∃ port', dtpParseOption d 0 port = .ok (scale, port')

/-- A context of the server: it knows the client's scale, and its first SYN+ACK says its own. -/
structure Announces (a : Caller) (c : DtpContext) : Prop where
  noSYN : c.NoSYN
  localID : c.localID.length = sha1DigestLength
  learned : c.sendWindowScale = a.recvScale
  first : ∃ d, (c.synsSent.map Prod.snd).head? = some d ∧ d.SaysScale c.recvWindowScale
  /-- without a scale all of them say the same -/
  zero : c.recvWindowScale = 0 → ∀ d ∈ c.synsSent.map Prod.snd, d.SaysScale 0

/-- Only one option is about the scale. -/
theorem fst_parse {code : UInt8} (h : code ≠ optWinScale) (value : List UInt8)
    (r : UInt8 × UInt16) : (parseStep .little r ⟨code, value⟩).1 = r.1 := by
  simp only [parseStep, h, false_and, if_false]
  split_ifs <;> rfl

/-- The scale is in the options of the first packet. -/
theorem foldl_parse_keyOpts {c : DtpContext} (hle : c.recvWindowScale ≤ maxWinscaleShift)
    (port : UInt16) :
    (c.keyOpts.foldl (parseStep .little) (0, port)).1 = if c.isFirstPacketSent then 0 else c.recvWindowScale := by
  simp only [keyOpts, List.foldl_append, List.foldl_cons, List.foldl_nil]
  rw [fst_parse (by decide : optPort ≠ optWinScale)]
  have hhost : (parseStep .little (0, port) ⟨optHostId, c.localID⟩).1 = 0 :=
    fst_parse (by decide : optHostId ≠ optWinScale) _ _
  have hbefore : (List.foldl (parseStep .little) (parseStep .little (0, port) ⟨optHostId, c.localID⟩)
      (if 0 < c.deadline then [⟨optDeadline, bytes32 (u32 c.deadline)⟩] else [])).1 = 0 := by
    split_ifs
    · simp only [List.foldl_cons, List.foldl_nil]
      rw [fst_parse (by decide : optDeadline ≠ optWinScale), hhost]
    · simpa using hhost
  by_cases hf : c.isFirstPacketSent = true
  · simpa [hf] using hbefore
  · by_cases hr : 0 < c.recvWindowScale
    · simp [hf, hr, hle, parseStep]
    · have hzero : c.recvWindowScale = 0 := by
        rw [UInt8.lt_iff_toNat_lt] at hr
        apply UInt8.toNat_inj.mp
        simpa using hr
      simpa [hf, hzero] using hbefore

theorem saysScale_of_carries {c : DtpContext} {h : HdrBuf} (hc : h.Carries c.keyOpts)
    (hle : c.recvWindowScale ≤ maxWinscaleShift) (cipher : List UInt8) :
    (mkDatagram h cipher).SaysScale (if c.isFirstPacketSent then 0 else c.recvWindowScale) := by
  intro port
  refine ⟨(c.keyOpts.foldl (parseStep .little) (0, port)).2, ?_⟩
  rw [(parsers_mkDatagram hc cipher [] 0 0 port).2, ← foldl_parse_keyOpts hle port]

namespace Announces
variable {a : Caller} {c c' : DtpContext}

theorem onward (h : Announces a c) (ho : Onward c c') : Announces a c' := by
  obtain ⟨hno, hsyns⟩ := ho.noSYN h.noSYN
  have hlocal : c'.localID = c.localID := congrArg Settled.localID ho.settled
  have hsend : c'.sendWindowScale = c.sendWindowScale := congrArg Settled.sendWindowScale ho.settled
  have hrecv : c'.recvWindowScale = c.recvWindowScale := congrArg Settled.recvWindowScale ho.settled
  constructor
  · exact hno
  · simpa [hlocal] using h.localID
  · simpa [hsend] using h.learned
  · simpa [hsyns, hrecv] using h.first
  · simpa [hsyns, hrecv] using h.zero

/-- Another SYN+ACK behind the first. -/
theorem of_rekeyed {rsa : Rsa} {key : List UInt8} (h : Announces a c) (hr : Rekeyed rsa key c c') : Announces a c' := by
  obtain ⟨addr, hdr, cipher, hsyns, hcarries, -, -⟩ := hr.reply
  obtain ⟨d, hhead, hsays⟩ := h.first
  constructor
  · refine ⟨hr.sendSYN.trans h.noSYN.1, ?_⟩
    rw [hr.packetQ]
    exact h.noSYN.2
  · simpa [hr.localID] using h.localID
  · simpa [hr.sendScale] using h.learned
  · refine ⟨d, ?_, by simpa [hr.recvScale] using hsays⟩
    rw [hsyns, List.map_append, List.head?_append, hhead]
    simp
  · intro hz d' hd'
    rw [hr.recvScale] at hz
    rw [hsyns, List.map_append, List.mem_append] at hd'
    rcases hd' with hold | hnew
    · exact h.zero hz d' hold
    · have hsays' := saysScale_of_carries (hcarries h.localID) (by simp [hz]) cipher
      simp only [hz, ite_self] at hsays'
      simp only [List.map_cons, List.map_nil, List.mem_singleton] at hnew
      rwa [hnew]

theorem repeatSYN {rsa : Rsa} (hrsa : rsa.Works a.n a.e) (h : Announces a c) (addr : SockAddr) (hid : List UInt8)
    {key : List UInt8} (hkey : key.length = 20) (pad : ℕ) : Announces a (c.repeatSYN rsa a.syn addr hid key pad) := by
  simp only [DtpContext.repeatSYN]
  split_ifs
  · have hbound : Announces a (c.rebind addr) := ⟨h.noSYN, h.localID, h.learned, h.first, h.zero⟩
    exact hbound.of_rekeyed (rekeyed_dtpHandleKey hrsa _ hkey pad true)
  · exact h.onward (.of_moves (.of_act (.rst c _ addr) (by decide) (by decide)))

theorem acceptSYN {rsa : Rsa} (hrsa : rsa.Works a.n a.e) (scale : UInt8) {id : List UInt8}
    (port : UInt16) (addr : SockAddr) (hid : List UInt8) (deadline : UInt32) {scale' : UInt8}
    {port' : UInt16} {key : List UInt8} (pad : ℕ) (hid' : id.length = sha1DigestLength)
    (hparse : dtpParseOption a.syn 0 addr.port = .ok (scale', port')) (hkey : key.length = 20) :
    Announces a ((DtpContext.acceptSYN (hostContext scale id port) a.syn addr hid deadline scale'
      port').dtpHandleKey rsa a.syn key pad false) := by
  have hscale : scale' = a.recvScale := by
    have heq := (a.dtpParseOption_syn addr.port).symm.trans hparse
    exact (congrArg Prod.fst (Except.ok.inj heq)).symm
  have hr := rekeyed_dtpHandleKey hrsa (DtpContext.acceptSYN (hostContext scale id port) a.syn addr
    hid deadline scale' port') hkey pad false
  generalize hc' : (DtpContext.acceptSYN (hostContext scale id port) a.syn addr hid deadline scale'
    port').dtpHandleKey rsa a.syn key pad false = c' at hr
  obtain ⟨addr', hdr, cipher, hsyns, hcarries, -, -⟩ := hr.reply
  have hnone : (DtpContext.acceptSYN (hostContext scale id port) a.syn addr hid deadline scale'
      port').synsSent = [] := rfl
  have hle : (DtpContext.acceptSYN (hostContext scale id port) a.syn addr hid deadline scale'
      port').recvWindowScale ≤ maxWinscaleShift := by
    change (if scale > maxWinscaleShift then maxWinscaleShift else scale) ≤ maxWinscaleShift
    split_ifs with hlt
    · exact UInt8.le_refl _
    · exact UInt8.not_lt.mp hlt
  have hsays := saysScale_of_carries (hcarries hid') hle cipher
  rw [hnone, List.nil_append] at hsyns
  constructor
  · refine ⟨hr.sendSYN, ?_⟩
    rw [hr.packetQ]
    intro p hp
    exact absurd hp List.not_mem_nil
  · rw [hr.localID]
    exact hid'
  · rw [hr.sendScale]
    exact hscale
  · refine ⟨mkDatagram hdr cipher, by simp [hsyns], ?_⟩
    rw [hr.recvScale]
    exact hsays
  · intro hz d hd
    rw [hr.recvScale] at hz
    simp only [hsyns, List.map_cons, List.map_nil, List.mem_singleton] at hd
    simp only [hz, ite_self] at hsays
    rwa [hd]

end Announces

/-! ## Runs -/

/-- The client's scales are those of the context the server has, or last had, for the flow. -/
def Parties.ScalesAgree (s : Parties) : Prop :=
  ∀ c, s.flows s.client.flowID = some c →
    s.client.sendWindowScale = c.recvWindowScale ∧ c.sendWindowScale = s.client.recvWindowScale

/-- The SYN+ACK that takes the client out of `SYN_SENT` is the first one the server's context
has sent, or one of a context without a scale; and no SYN makes the server set up another
context for the client's flow after that. -/
def FirstAnswer (s : Parties) : PartyEvent → Prop
  | .syn d _ _ => d.hdr.fid = s.client.flowID → s.client.state ≠ .synSent → (s.server d.hdr.fid).isSome
  | .synAck d _ _ => s.client.state = .synSent → ∀ c, s.flows s.client.flowID = some c →
      (c.synsSent.map Prod.snd).head? = some d ∨ (c.recvWindowScale = 0 ∧ d ∈ c.synsSent.map Prod.snd)
  | _ => True

theorem scales_repeatSYN (rsa : Rsa) (c : DtpContext) (d : Datagram) (addr : SockAddr) (hid key : List UInt8)
    (pad : ℕ) : (c.repeatSYN rsa d addr hid key pad).sendWindowScale = c.sendWindowScale ∧
    (c.repeatSYN rsa d addr hid key pad).recvWindowScale = c.recvWindowScale := by
  simp only [DtpContext.repeatSYN, DtpContext.dtpHandleKey]
  split_ifs
  · cases rsa.encrypt (modulus d) (exponent d) key pad with
    | none => exact ⟨rfl, rfl⟩
    | some cipher => exact ⟨rfl, rfl⟩
  · exact ⟨rfl, rfl⟩

theorem scale_rule {k : Crypto} {a : Caller} (hrsa : k.toRsa.Works a.n a.e) :
    AgreementRule k a FirstAnswer (Announces a) fun cl c =>
      cl.sendWindowScale = c.recvWindowScale ∧ c.sendWindowScale = cl.recvWindowScale where
  onward hs h ho := h.onward ho
  known addr hid key pad hs h hkey := h.repeatSYN hrsa addr hid hkey pad
  created scale id port addr hid deadline scale' port' key pad hid' hparse hkey :=
    Announces.acceptSYN hrsa scale port addr hid deadline pad hid' hparse hkey
  adopt := by
    intro s d addr hid hid' key scale port c hcall hs hl hc h _ hparse
    have hsays : d.SaysScale c.recvWindowScale := by
      rcases hl hs c hc with hfirst | ⟨hz, hmem⟩
      · obtain ⟨d', hhead, hsays⟩ := h.first
        rwa [← Option.some.inj (hhead.symm.trans hfirst)]
      · rw [hz]
        exact h.zero hz d hmem
    obtain ⟨port', hport⟩ := hsays addr.port
    have heq := congrArg Prod.fst (Except.ok.inj (hparse.symm.trans hport))
    exact ⟨heq, h.learned.trans hcall.recvScale.symm⟩
  later := by
    intro s d addr env hs hl hfid
    obtain ⟨c, hc⟩ := Option.isSome_iff_exists.mp (hl hfid hs)
    refine ⟨c, hc, ?_⟩
    rintro hid ⟨hsend, hrecv⟩
    obtain ⟨hsend', hrecv'⟩ := scales_repeatSYN k.toRsa c d addr hid env.key env.pad
    exact ⟨hsend.trans hrecv'.symm, hsend'.trans hrecv⟩

/-- Once the client is established, both scales agree for the rest of the run, if every step
of the run meets the condition. -/
theorem scales_agree {k : Crypto} {a : Caller} (hrsa : k.toRsa.Works a.n a.e) {s : Parties}
    (hs : ((opening k a).restrict FirstAnswer).Reachable s) (hest : s.client.state = .established)
    {es : List PartyEvent} (hes : ((opening k a).restrict FirstAnswer).Admits s es) :
    (((opening k a).restrict FirstAnswer).run s es).ScalesAgree :=
  (scale_rule hrsa).agree hs hest hes

/-! ## A run -/

/-- The client takes the first SYN+ACK; then a copy of its SYN arrives. -/
theorem scales_agree_late_copy :
    (((opening toyCrypto sampleCaller).restrict FirstAnswer).run
      (sampleReply.apply toyCrypto sampleAnswered) [sampleSYN 2]).ScalesAgree := by
  have h0 : ((opening toyCrypto sampleCaller).restrict FirstAnswer).Reachable sampleStart :=
    .init rfl
  have h1 : ((opening toyCrypto sampleCaller).restrict FirstAnswer).Reachable sampleAnswered := by
    refine Machine.Reachable.step (e := sampleSYN 1) h0 ⟨offered_sampleSYN rfl 1, ?_⟩
    exact fun _ hs => absurd sampleCaller.state_context hs
  have hfid : sampleAnswered.client.flowID = 9 := by decide +kernel
  have h2 : ((opening toyCrypto sampleCaller).restrict FirstAnswer).Reachable
      (sampleReply.apply toyCrypto sampleAnswered) := by
    refine Machine.Reachable.step (e := sampleReply) h1 ⟨offered_sampleReply, ?_⟩
    intro _ c hc
    rw [hfid] at hc
    have hall : sampleAnswered.synAcksOf 9 = c.synsSent.map Prod.snd := by
      simp [Parties.synAcksOf, hc]
    left
    rw [← hall, List.head?_eq_some_head]
  refine scales_agree (toyCrypto_works _ _) h2 (by decide +kernel) ⟨⟨offered_sampleSYN ?_ 2, ?_⟩, trivial⟩
  · exact (synsSent_synAck ..).trans (congrArg _ (Parties.client_handleSYN ..))
  · intro _ _
    decide +kernel

def sampleTwice : Parties := (sampleSYN 2).apply toyCrypto sampleAnswered

theorem sampleTwice_ne_nil : sampleTwice.synAcksOf 9 ≠ [] := by
  have hlen : (sampleTwice.synAcksOf 9).length = 2 := by decide +kernel
  intro hnil
  simp [hnil] at hlen

/-- The second SYN+ACK arrives at the client, then the client's ACK at the server. -/
def sampleSecond : List PartyEvent :=
  [.synAck ((sampleTwice.synAcksOf 9).getLast sampleTwice_ne_nil) ⟨1, 80⟩ [], .server 9 (.batch ⟨some (256, 2048), []⟩)]

def sampleLost : Parties :=
  (opening toyCrypto sampleCaller).run sampleStart ([sampleSYN 1, sampleSYN 2] ++ sampleSecond)

/-- Both ends are established, and the client takes the server's scale `4` for `0`. -/
theorem second_synack_loses_scale :
    ∃ s es, (opening toyCrypto sampleCaller).init s ∧ (opening toyCrypto sampleCaller).Admits s es ∧
      ((opening toyCrypto sampleCaller).run s es).client.state = .established ∧
      (∃ c, ((opening toyCrypto sampleCaller).run s es).flows 9 = some c ∧ c.state = .established) ∧
      ¬((opening toyCrypto sampleCaller).run s es).ScalesAgree := by
  refine ⟨sampleStart, [sampleSYN 1, sampleSYN 2] ++ sampleSecond, rfl, ?_, ?_, ?_, ?_⟩
  · have hsyns : sampleAnswered.client.synsSent = sampleCaller.context.synsSent :=
      congrArg _ (Parties.client_handleSYN ..)
    refine ⟨offered_sampleSYN rfl 1, offered_sampleSYN hsyns 2, Or.inr ⟨9, List.getLast_mem _⟩, ?_, trivial⟩
    have hstate : (((opening toyCrypto sampleCaller).run sampleStart
        ([sampleSYN 1, sampleSYN 2] ++ sampleSecond.take 1)).flows 9).map (fun c => c.state) =
        some .synRcvd := by decide +kernel
    obtain ⟨c, hc, hs⟩ := Option.map_eq_some_iff.mp hstate
    exact ⟨c, hc, by simp [Event.offered, hs], rfl⟩
  · decide +kernel
  · have hstate : (sampleLost.flows 9).map (fun c => c.state) = some .established := by decide +kernel
    exact Option.map_eq_some_iff.mp hstate
  · intro hagree
    have hserver : (sampleLost.flows 9).map (fun c => c.recvWindowScale) = some 4 := by decide +kernel
    have hclient : sampleLost.client.sendWindowScale = 0 := by decide +kernel
    have hfid : sampleLost.client.flowID = 9 := by decide +kernel
    obtain ⟨c, hc, hscale⟩ := Option.map_eq_some_iff.mp hserver
    have heq : sampleLost.client.sendWindowScale = c.recvWindowScale := (hagree c (hfid ▸ hc)).1
    rw [hscale, hclient] at heq
    exact absurd heq (by decide)

end Cedos.Dtp
