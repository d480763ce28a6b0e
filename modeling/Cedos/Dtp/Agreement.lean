import Cedos.Dtp.Parties

/-!
# What two ends agree on

Every event of the two ends is one of a few kinds of steps. From that follows a rule for
anything that a client takes over from a SYN+ACK and that is to be the same at both ends
from then on: it is enough to look at a SYN, at its repetition, and at the SYN+ACK that the
client takes.
-/

namespace Cedos.Dtp

open DtpContext

/-! ## What a step can do -/

/-- A step that is neither `SYN_SENT` to `ESTABLISHED` nor back. -/
theorem leads_cases : ∀ {s s' : SockState}, s.leads s' = true → s ≠ .synRcvd → s ≠ .listen →
    s' ≠ .synRcvd ∧ s' ≠ .listen ∧ (s' = .synSent → s = .synSent) ∧ (s' = .established → s = .established) := by
  decide

/-- Both ends keep to their roles. -/
structure Parties.Roles (a : Caller) (s : Parties) : Prop where
  started : ∀ fid c, s.flows fid = some c → c.state ≠ .synSent
  role : s.client.state ≠ .synRcvd ∧ s.client.state ≠ .listen
  calling : s.client.state = .synSent → Calling a s.client

/-- What an event does to both ends. -/
inductive PartyStep (k : Crypto) (a : Caller) (s : Parties) : PartyEvent → Parties → Prop
  | same (e : PartyEvent) : PartyStep k a s e s
  /-- the client moves on by itself -/
  | onward {e : PartyEvent} {c : DtpContext} (ho : Onward s.client c)
      (hc : s.client.state = .synSent → Calling a c) : PartyStep k a s e { s with client := c }
  /-- the client stays in `SYN_SENT`, perhaps under another flow ID -/
  | retry {e : PartyEvent} {c : DtpContext} (hs : s.client.state = .synSent) (hc : Calling a c)
      (hsc : c.state = .synSent) : PartyStep k a s e { s with client := c }
  /-- the client takes a SYN+ACK -/
  | adopt {d : Datagram} {addr : SockAddr} {hid hid' key : List UInt8} {scale : UInt8} {port : UInt16}
      (hs : s.client.state = .synSent) (hd : s.InFlight d)
      (hdec : k.decrypt (peek d.body 0 rsaLen) = some key)
      (hparse : dtpParseOption d s.client.sendWindowScale addr.port = .ok (scale, port)) :
      PartyStep k a s (.synAck d addr hid)
        { s with client := (s.client.adoptSYNACK d addr hid' key scale port).dtpSendACKPacket }
  /-- a context of the server moves on by itself -/
  | server {fid : UInt32} {e : Event} {c c' : DtpContext} (hc : s.flows fid = some c)
      (ho : Onward c c') : PartyStep k a s (.server fid e) (s.setFlow fid c')
  /-- a SYN of a flow that has a context -/
  | known {d : Datagram} {addr : SockAddr} {env : SynEnv} {hid : List UInt8} {c : DtpContext}
      (he : (PartyEvent.syn d addr env).offered s) (hc : s.server d.hdr.fid = some c)
      (hd : s.client.state = .synSent → d = a.syn) :
      PartyStep k a s (.syn d addr env)
        (s.setFlow d.hdr.fid (c.repeatSYN k.toRsa d addr hid env.key env.pad))
  /-- a SYN of a flow that has none -/
  | created {d : Datagram} {addr : SockAddr} {env : SynEnv} {hid : List UInt8} {deadline : UInt32}
      {scale : UInt8} {port : UInt16} (he : (PartyEvent.syn d addr env).offered s)
      (hno : s.server d.hdr.fid = none) (hd : s.client.state = .synSent → d = a.syn)
      (hparse : dtpParseOption d env.fresh.sendWindowScale addr.port = .ok (scale, port)) :
      PartyStep k a s (.syn d addr env)
        { s.setFlow d.hdr.fid ((acceptSYN env.fresh d addr hid deadline scale port).dtpHandleKey
            k.toRsa d env.key env.pad false) with
          past := s.past ++ s.synAcksOf d.hdr.fid }

namespace Parties.Roles
variable {k : Crypto} {a : Caller} {s s' : Parties} {e : PartyEvent} (h : s.Roles a)
include h

theorem client_step {e : Event} (he : e.offered s.client) (hno : e.isSynAck = false) :
    PartyStep k a s (.client e) { s with client := e.apply k s.client } := by
  by_cases hout : s.client.state ≠ .synSent ∨ e.answersSYN = false
  · exact .onward (Onward.apply k hout) fun hs => (h.calling hs).apply k hs he hno
  · -- what is left is an RST in `SYN_SENT`
    simp only [not_or, not_not, Bool.not_eq_false] at hout
    rcases hout with ⟨hs, hans⟩
    have hcall := h.calling hs
    cases e with
    | rst d hid fid =>
      simp only [Event.apply]
      split
      · rename_i r hr
        rcases handleRSTPacket_cases hr with rfl | ⟨-, rfl⟩ | ⟨hs', -⟩ | ⟨hs', -⟩
        · exact .same _
        · exact .retry hs (hcall.retryConnect hs fid).1 (hcall.retryConnect hs fid).2
        · simp [hs] at hs'
        · simp [hs] at hs'
      · exact .same _
    | synAck d addr hid => simp [Event.isSynAck] at hno
    | _ => simp [Event.answersSYN] at hans

theorem synAck_step {d : Datagram} (addr : SockAddr) (hid : List UInt8) (hd : s.InFlight d) :
    PartyStep k a s (.synAck d addr hid) { s with client := (Event.synAck d addr hid).apply k s.client } := by
  by_cases hs : s.client.state = .synSent
  · simp only [Event.apply]
    split
    · rename_i r hr
      rcases handleSYNACKPacket_cases hr with ⟨hs', -⟩ | ⟨-, hid', rfl⟩ |
        ⟨-, hid', key, scale, port, hdec, hparse, rfl⟩
      · simp [hs] at hs'
      · exact .retry hs ((h.calling hs).of_same rfl rfl rfl) hs
      · exact .adopt hs hd hdec hparse
    · exact .same _
  · exact .onward (Onward.apply k (Or.inl hs)) fun hs' => absurd hs' hs

theorem syn_step {d : Datagram} {addr : SockAddr} {env : SynEnv}
    (he : (PartyEvent.syn d addr env).offered s) :
    PartyStep k a s (.syn d addr env) (s.handleSYN k.toRsa d addr env) := by
  -- in `SYN_SENT` there is only one SYN
  have hsyn : s.client.state = .synSent → d = a.syn := by
    intro hs
    obtain ⟨x, hx, rfl⟩ := List.mem_map.mp he.1
    exact (h.calling hs).wire x hx
  cases hr : handleSYNPacket k.toRsa env (s.server d.hdr.fid) d addr with
  | error e => simpa only [Parties.handleSYN, hr] using PartyStep.same _
  | ok r =>
    rcases handleSYNPacket_cases hr with ⟨c, hid, dl, hflow, -, rfl⟩ |
      ⟨hflow, hid, deadline, scale, port, -, hparse, rfl⟩ | ⟨-, rfl⟩
    · simp only [Parties.handleSYN, hr]
      exact .known he hflow hsyn
    · simp only [Parties.handleSYN, hr]
      exact .created he hflow hsyn hparse
    · simpa only [Parties.handleSYN, hr] using PartyStep.same _

theorem step (he : e.offered s) : PartyStep k a s e (e.apply k s) := by
  cases e with
  | client e => exact h.client_step he.1 he.2
  | server fid e =>
    rcases he with ⟨c, hc, -⟩
    have ho : Onward c (e.apply k c) := Onward.apply k (Or.inl (h.started fid c hc))
    simp only [PartyEvent.apply, hc, Option.map_some]
    exact .server hc ho
  | syn d addr env => exact h.syn_step he
  | synAck d addr hid => exact h.synAck_step addr hid he

theorem setFlow (fid : UInt32) {c : DtpContext} (hc : c.state ≠ .synSent)
    (past : List Datagram) : Parties.Roles a { s.setFlow fid c with past := past } := by
  refine ⟨?_, h.role, h.calling⟩
  intro f c' hc'
  by_cases hf : f = fid
  · simp only [Parties.setFlow, hf, Function.update_self, Option.some.injEq] at hc'
    rwa [← hc']
  · simp only [Parties.setFlow, Function.update_of_ne hf] at hc'
    exact h.started f c' hc'

theorem of_step (hstep : PartyStep k a s e s') : s'.Roles a := by
  cases hstep with
  | same => exact h
  | onward ho hc =>
    obtain ⟨hr0, hr1, hsyn, -⟩ := leads_cases ho.state h.role.1 h.role.2
    exact ⟨h.started, ⟨hr0, hr1⟩, fun hs => hc (hsyn hs)⟩
  | retry hs hc hsc => exact ⟨h.started, by simp [hsc], fun _ => hc⟩
  | adopt hs hd hdec hparse =>
    refine ⟨h.started, ?_, ?_⟩
    · simp [DtpContext.dtpSendACKPacket, DtpContext.send, DtpContext.adoptSYNACK]
    · simp [DtpContext.dtpSendACKPacket, DtpContext.send, DtpContext.adoptSYNACK]
  | server hc ho =>
    refine h.setFlow _ ?_ s.past
    intro hs'
    exact h.started _ _ hc (SockState.leads_synSent (hs' ▸ ho.state))
  | @known d addr env hid c he hc hd =>
    refine h.setFlow _ ?_ s.past
    rw [state_repeatSYN]
    exact h.started _ _ (Option.filter_eq_some_iff.mp hc).1
  | created he hno hd hparse =>
    refine h.setFlow _ ?_ _
    rw [state_dtpHandleKey]
    simp [DtpContext.acceptSYN]

/-- Only a SYN+ACK takes the client to `ESTABLISHED`. -/
theorem established_of_step (hstep : PartyStep k a s e s') (hs : s.client.state ≠ .synSent)
    (hest : s'.client.state = .established) : s.client.state = .established := by
  cases hstep with
  | onward ho hc => exact (leads_cases ho.state h.role.1 h.role.2).2.2.2 hest
  | retry hs' => exact absurd hs' hs
  | adopt hs' => exact absurd hs' hs
  | _ => exact hest

end Parties.Roles

/-! ## The rule -/

/-- What the opening has settled at both ends of the client's flow is in the relation `R`. -/
def Parties.Settles (R : Settled → Settled → Prop) (s : Parties) : Prop :=
  ∀ c, s.flows s.client.flowID = some c → R s.client.settled c.settled

namespace Parties.Settles
variable {R : Settled → Settled → Prop} {s : Parties}

theorem client_onward (h : s.Settles R) {c : DtpContext} (ho : Onward s.client c) :
    Parties.Settles R { s with client := c } := by
  have hfid : c.flowID = s.client.flowID := congrArg Settled.flowID ho.settled
  intro c' hc'
  simp only [hfid] at hc'
  simp only [ho.settled]
  exact h c' hc'

theorem setFlow (h : s.Settles R) {fid : UInt32} {c : DtpContext}
    (hc : fid = s.client.flowID → R s.client.settled c.settled) (past : List Datagram) :
    Parties.Settles R { s.setFlow fid c with past := past } := by
  intro c' hc'
  simp only [Parties.setFlow] at hc' ⊢
  by_cases hf : s.client.flowID = fid
  · subst hf
    simp only [Function.update_self, Option.some.injEq] at hc'
    rw [← hc']
    exact hc rfl
  · rw [Function.update_of_ne hf] at hc'
    exact h c' hc'

end Parties.Settles

/-- Why both ends agree on `R` in the runs whose steps meet `C`: the server's contexts
satisfy `Q` while the client waits, the SYN+ACK that the client takes establishes `R`, and a
SYN that comes later does not break it. -/
structure AgreementRule (k : Crypto) (a : Caller) (C : Parties → PartyEvent → Prop)
    (Q : DtpContext → Prop) (R : Settled → Settled → Prop) : Prop where
  onward : ∀ {c c' : DtpContext}, c.state ≠ .synSent → Q c → Onward c c' → Q c'
  known : ∀ {c : DtpContext} (addr : SockAddr) (hid : List UInt8) {key : List UInt8} (pad : ℕ),
    c.state ≠ .synSent → Q c → key.length = 20 → Q (c.repeatSYN k.toRsa a.syn addr hid key pad)
  created : ∀ (scale : UInt8) {id : List UInt8} (port : UInt16) (addr : SockAddr) (hid : List UInt8)
    (deadline : UInt32) {scale' : UInt8} {port' : UInt16} {key : List UInt8} (pad : ℕ),
    id.length = sha1DigestLength → dtpParseOption a.syn 0 addr.port = .ok (scale', port') →
    key.length = 20 →
    Q ((acceptSYN (hostContext scale id port) a.syn addr hid deadline scale' port').dtpHandleKey
      k.toRsa a.syn key pad false)
  adopt : ∀ {s : Parties} {d : Datagram} {addr : SockAddr} {hid hid' key : List UInt8}
    {scale : UInt8} {port : UInt16} {c : DtpContext}, Calling a s.client →
    s.client.state = .synSent → C s (.synAck d addr hid) → s.flows s.client.flowID = some c → Q c →
    k.decrypt (peek d.body 0 rsaLen) = some key → dtpParseOption d 0 addr.port = .ok (scale, port) →
    R (s.client.adoptSYNACK d addr hid' key scale port).settled c.settled
  later : ∀ {s : Parties} {d : Datagram} {addr : SockAddr} {env : SynEnv},
    s.client.state ≠ .synSent → C s (.syn d addr env) → d.hdr.fid = s.client.flowID →
    ∃ c, s.server d.hdr.fid = some c ∧ ∀ hid, R s.client.settled c.settled →
      R s.client.settled (c.repeatSYN k.toRsa d addr hid env.key env.pad).settled

/-- What holds in every such run. -/
structure Agreeing (a : Caller) (Q : DtpContext → Prop) (R : Settled → Settled → Prop)
    (s : Parties) : Prop extends s.Roles a where
  answered : s.client.state = .synSent → ∀ fid c, s.flows fid = some c → Q c
  agree : s.client.state = .established → s.Settles R

namespace Agreeing
variable {a : Caller} {Q : DtpContext → Prop} {R : Settled → Settled → Prop} {s : Parties}

theorem init {c : DtpContext} (hc : Calling a c) (hs : c.state = .synSent) : Agreeing a Q R ⟨c, fun _ => none, []⟩ where
  started _ _ h := by simp at h
  role := by simp [hs]
  calling _ := hc
  answered _ _ _ h := by simp at h
  agree h := by simp [hs] at h

/-- The contexts of the server while the client waits. -/
theorem answered_setFlow (h : Agreeing a Q R s) {fid : UInt32} {c : DtpContext}
    (hc : s.client.state = .synSent → Q c) :
    s.client.state = .synSent → ∀ f c', (s.setFlow fid c).flows f = some c' → Q c' := by
  intro hs f c' hc'
  by_cases hf : f = fid
  · simp only [Parties.setFlow, hf, Function.update_self, Option.some.injEq] at hc'
    rw [← hc']
    exact hc hs
  · simp only [Parties.setFlow, Function.update_of_ne hf] at hc'
    exact h.answered hs f c' hc'

end Agreeing

namespace AgreementRule
variable {k : Crypto} {a : Caller} {C : Parties → PartyEvent → Prop} {Q : DtpContext → Prop}
  {R : Settled → Settled → Prop} {s s' : Parties} {e : PartyEvent}

/-- Once the client has left `SYN_SENT`, what both ends agree on stays. -/
theorem step_settles (rule : AgreementRule k a C Q R) (hs : s.client.state ≠ .synSent) (hagree : s.Settles R)
    (hC : C s e) (hstep : PartyStep k a s e s') : s'.client.state ≠ .synSent ∧ s'.Settles R := by
  cases hstep with
  | same => exact ⟨hs, hagree⟩
  | onward ho hc =>
    refine ⟨?_, hagree.client_onward ho⟩
    intro hs'
    exact hs (SockState.leads_synSent (hs' ▸ ho.state))
  | retry hs' => exact absurd hs' hs
  | adopt hs' => exact absurd hs' hs
  | @server fid e c c' hc ho =>
    refine ⟨hs, hagree.setFlow ?_ s.past⟩
    rintro rfl
    rw [ho.settled]
    exact hagree c hc
  | @known d addr env hid c he hc hd =>
    refine ⟨hs, hagree.setFlow ?_ s.past⟩
    intro hfid
    obtain ⟨c₁, hc₁, hkeep⟩ := rule.later hs hC hfid
    obtain rfl := Option.some.inj (hc₁.symm.trans hc)
    refine hkeep hid (hagree c₁ ?_)
    rw [← hfid]
    exact (Option.filter_eq_some_iff.mp hc).1
  | created he hno hd hparse =>
    refine ⟨hs, hagree.setFlow ?_ _⟩
    intro hfid
    obtain ⟨c₁, hc₁, -⟩ := rule.later hs hC hfid
    simp [hno] at hc₁

theorem of_step (rule : AgreementRule k a C Q R) (h : Agreeing a Q R s) (hC : C s e)
    (hstep : PartyStep k a s e s') : Agreeing a Q R s' := by
  refine ⟨h.toRoles.of_step hstep, ?_, ?_⟩
  · cases hstep with
    | same => exact h.answered
    | onward ho hc =>
      intro hs
      exact h.answered ((leads_cases ho.state h.role.1 h.role.2).2.2.1 hs)
    | retry hs hc hsc => exact fun _ => h.answered hs
    | adopt hs hd hdec hparse =>
      simp [DtpContext.dtpSendACKPacket, DtpContext.send, DtpContext.adoptSYNACK]
    | server hc ho =>
      exact h.answered_setFlow fun hs => rule.onward (h.started _ _ hc) (h.answered hs _ _ hc) ho
    | @known d addr env hid c he hc hd =>
      have hflow : s.flows d.hdr.fid = some c := (Option.filter_eq_some_iff.mp hc).1
      refine h.answered_setFlow fun hs => ?_
      rw [hd hs]
      exact rule.known addr hid env.pad (h.started _ c hflow) (h.answered hs _ c hflow) he.2.1
    | @created d addr env hid deadline scale port he hno hd hparse =>
      refine h.answered_setFlow fun hs => ?_
      obtain ⟨hmem, hkey, scale', id, port', hid', hfresh⟩ := he
      rw [hfresh] at hparse ⊢
      rw [hd hs] at hparse ⊢
      exact rule.created scale' port' addr hid deadline env.pad hid' hparse hkey
  · intro hest
    by_cases hs : s.client.state = .synSent
    · cases hstep with
      | @adopt d addr hid hid' key scale port _ hd hdec hparse =>
        intro c hc
        rw [(h.calling hs).sendScale] at hparse
        exact rule.adopt (h.calling hs) hs hC hc (h.answered hs _ c hc) hdec hparse
      | onward ho hc =>
        have hold := (leads_cases ho.state h.role.1 h.role.2).2.2.2 hest
        simp [hs] at hold
      | retry _ hc hsc => simp [hsc] at hest
      | same => simp [hs] at hest
      | server _ _ => exact absurd (hs.symm.trans hest) (by simp)
      | known _ _ _ => exact absurd (hs.symm.trans hest) (by simp)
      | created _ _ _ _ => exact absurd (hs.symm.trans hest) (by simp)
    · have hold := h.established_of_step hstep hs hest
      exact (rule.step_settles hs (h.agree hold) hC hstep).2

/-- From the state on in which the client is established, both ends agree. -/
theorem agree (rule : AgreementRule k a C Q R) (hs : ((opening k a).restrict C).Reachable s)
    (hest : s.client.state = .established) {es : List PartyEvent} (hes : ((opening k a).restrict C).Admits s es) :
    (((opening k a).restrict C).run s es).Settles R := by
  have hinv : Agreeing a Q R s := by
    refine hs.invariant ?_ ?_
    · rintro s rfl
      exact Agreeing.init a.calling a.state_context
    · rintro s e h ⟨he, hC⟩
      exact rule.of_step h hC (h.step he)
  have hrun := Machine.Admits.invariant
    (P := fun s => s.client.state ≠ .synSent ∧ s.Settles R ∧ Agreeing a Q R s) ?_
    ⟨by simp [hest], hinv.agree hest, hinv⟩ hes
  · exact hrun.2.1
  · rintro s e ⟨hs, hagree, h⟩ ⟨he, hC⟩
    have hstep := h.step (k := k) he
    obtain ⟨hs', hagree'⟩ := rule.step_settles hs hagree hC hstep
    exact ⟨hs', hagree', rule.of_step h hC hstep⟩

end AgreementRule
end Cedos.Dtp
