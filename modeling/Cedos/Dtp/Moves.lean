import Cedos.Dtp.SendOrder

/-!
# What an event is made of

An event of a connection does many things, but to what the network and the peer see of it only a
few: it sends a control packet, a new data packet, the FIN, or a queued packet again; it takes
packets out of the queue; it moves the state on; and it ends the connection. `Atom` lists these,
and every event that is no part of a challenge is a sequence of them.
-/

namespace Cedos.Dtp

namespace SockState

/-- The states that can follow a state, once `SYN_SENT` has been left by its own handler. -/
def leads : SockState → SockState → Bool
  | .listen, s => s == .listen || s == .closed
  | .synSent, s => s == .synSent || s == .finWait1 || s == .finWait2 || s == .timeWait ||
      s == .closed
  | .synRcvd, s => s != .listen && s != .synSent
  | .established, s => s != .listen && s != .synSent && s != .synRcvd
  | .closeWait, s => s == .closeWait || s == .lastAck || s == .closed
  | .finWait1, s => s == .finWait1 || s == .finWait2 || s == .timeWait || s == .closed
  | .finWait2, s => s == .finWait2 || s == .timeWait || s == .closed
  | .lastAck, s => s == .lastAck || s == .closed
  | .timeWait, s => s == .timeWait || s == .closed
  | .closed, s => s == .closed

/-- How far a connection has come. -/
def rank : SockState → ℕ
  | .synSent | .synRcvd | .listen => 0
  | .established => 1
  | .closeWait | .finWait1 => 2
  | .lastAck | .finWait2 => 3
  | .timeWait => 4
  | .closed => 5

theorem leads_refl : ∀ s : SockState, s.leads s = true := by decide

theorem leads_closed : ∀ s : SockState, s.leads .closed = true := by decide

theorem leads_trans : ∀ {s s' s'' : SockState}, s.leads s' = true → s'.leads s'' = true →
    s.leads s'' = true := by decide

theorem rank_le_of_leads : ∀ {s s' : SockState}, s.leads s' = true → s.rank ≤ s'.rank := by decide

theorem leads_synSent : ∀ {s : SockState}, s.leads .synSent = true → s = .synSent := by decide

theorem leads_finState : ∀ s : SockState, s.leads (DtpContext.finState s) = true := by decide

end SockState

/-- What the opening of a connection settles. -/
structure Settled where
  key : List UInt8
  flowID : UInt32
  hostID : List UInt8
  sendWindowScale : UInt8
  recvWindowScale : UInt8
  localID : List UInt8

/-- What the opening has settled for a context. -/
def DtpContext.settled (c : DtpContext) : Settled where
  key := c.key
  flowID := c.flowID
  hostID := c.hostID
  sendWindowScale := c.sendWindowScale
  recvWindowScale := c.recvWindowScale
  localID := c.localID

/-- The events that have an effect of their own in `SYN_SENT`. -/
def Event.answersSYN : Event → Bool
  | .synAck _ _ _ | .rst _ _ _ => true
  | _ => false

def Event.isChallenge : Event → Bool
  | .chg _ _ | .rsp _ _ | .auth _ _ | .checkAddr _ _ => true
  | _ => false

/-- The fields that only the changes of `Atom` touch, apart from the state. -/
structure Core extends Settled where
  sendSYN : Bool
  packetQ : List DtpPkt
  wire : List (SockAddr × Datagram)
  peerAddr : SockAddr
  nonce : UInt32
  doingCHGRSP : Bool
  isActive : Bool
  closeCalled : Bool
  waitACK : Bool
  connReset : Bool
  connTimedOut : Bool
  onFlowIDMap : Bool

def DtpContext.core (c : DtpContext) : Core where
  toSettled := c.settled
  sendSYN := c.sendSYN
  packetQ := c.packetQ
  wire := c.wire
  peerAddr := c.peerAddr
  nonce := c.nonce
  doingCHGRSP := c.doingCHGRSP
  isActive := c.isActive
  closeCalled := c.closeCalled
  waitACK := c.waitACK
  connReset := c.connReset
  connTimedOut := c.connTimedOut
  onFlowIDMap := c.onFlowIDMap

/-- A packet of these flags is no part of an opening or a challenge. -/
structure Flags.Plain (f : Flags) : Prop where
  syn : f.syn = false
  chg : f.chg = false
  rsp : f.rsp = false

/-- A single change; the flag admits those that end a connection. -/
inductive Atom : Bool → DtpContext → DtpContext → Prop
  /-- to fields outside the core, and perhaps to the state -/
  | inner {b : Bool} {c c' : DtpContext} (hv : c'.core = c.core) (hs : c.state.leads c'.state = true)
      (hc : c'.state = .closed → c.state = .closed) : Atom b c c'
  /-- the SYN has been answered -/
  | opened {b : Bool} (c : DtpContext) : Atom b c { c with sendSYN := false }
  /-- the packets of `q` are packets of the queue, perhaps trimmed or marked -/
  | queue {b : Bool} {c : DtpContext} {q : List DtpPkt}
      (hq : ∀ p ∈ q, ∃ p' ∈ c.packetQ, p'.header.hdr.toFlags = p.header.hdr.toFlags) :
      Atom b c (c.setQueue q)
  /-- a control packet -/
  | control {b : Bool} (c : DtpContext) (addr : SockAddr) {d : Datagram} (hd : d.hdr.toFlags.Plain) :
      Atom b c (c.send addr d)
  /-- a queued packet once more -/
  | again {b : Bool} {c : DtpContext} {p p₀ : DtpPkt} (hp : p₀ ∈ c.packetQ)
      (hhdr : p₀.header = p.header) : Atom b c (c.send c.peerAddr (c.retransDatagram p))
  /-- a new packet -/
  | data {b : Bool} {c : DtpContext} {flags : Flags} (hsyn : flags.syn = true → c.sendSYN = true)
      (hchg : flags.chg = false) (hrsp : flags.rsp = false) (len : ℤ) :
      Atom b c (c.writeOne flags len)
  | fin {b : Bool} (c : DtpContext) : Atom b c c.dtpSendFINPacket
  /-- `dtp_close` -/
  | called (c : DtpContext) : Atom true c { c with closeCalled := true }
  /-- and its wait -/
  | waits (c : DtpContext) : Atom true c { c with waitACK := true }
  | closes (c : DtpContext) : Atom true c { c with state := .closed }
  | reset (c : DtpContext) : Atom true c c.resetConnection
  | timedOut (c : DtpContext) : Atom true c c.dtpCloseConnection
  | released (c : DtpContext) : Atom true c c.dtpCloseContext

/-- A sequence of changes. -/
def Moves (b : Bool) : DtpContext → DtpContext → Prop := Relation.ReflTransGen (Atom b)

namespace Moves
variable {b : Bool} {c c' c'' : DtpContext}

theorem refl (c : DtpContext) : Moves b c c := Relation.ReflTransGen.refl

theorem trans (h : Moves b c c') (h' : Moves b c' c'') : Moves b c c'' :=
  Relation.ReflTransGen.trans h h'

theorem of_atom (h : Atom b c c') : Moves b c c' := Relation.ReflTransGen.single h

theorem of_view (hv : c'.core = c.core) (hs : c.state.leads c'.state = true)
    (hc : c'.state = .closed → c.state = .closed) : Moves b c c' := of_atom (.inner hv hs hc)

theorem of_same (hv : c'.core = c.core) (hs : c'.state = c.state) : Moves b c c' := by
  refine of_view hv ?_ ?_
  · rw [hs]
    exact c.state.leads_refl
  · rw [hs]
    exact id

/-- Then a control packet is sent. -/
theorem send (h : Moves b c c') (addr : SockAddr) {d : Datagram} (hd : d.hdr.toFlags.Plain) :
    Moves b c (c'.send addr d) := h.trans (of_atom (.control c' addr hd))

theorem setQueue (h : Moves b c c') {q : List DtpPkt}
    (hq : ∀ p ∈ q, ∃ p' ∈ c'.packetQ, p'.header.hdr.toFlags = p.header.hdr.toFlags) :
    Moves b c (c'.setQueue q) := h.trans (of_atom (.queue hq))

theorem dtpSendACKPacket (c : DtpContext) : Moves b c c.dtpSendACKPacket := (refl c).send _ ⟨rfl, rfl, rfl⟩

theorem dtpReconnect (c : DtpContext) : Moves b c c.dtpReconnect := by
  have hconn : Moves b c { c with isNetConnected := true } := of_same rfl rfl
  simp only [DtpContext.dtpReconnect]
  cases hq : c.packetQ with
  | nil => exact hconn.trans (dtpSendACKPacket _)
  | cons p q => exact of_same rfl rfl

theorem dropPacket {l q : List DtpPkt} {p : DtpPkt} (hq : c.packetQ = l ++ p :: q) :
    Moves b c (c.setQueue (l ++ q)) := by
  refine (refl c).setQueue fun x hx => ⟨x, ?_, rfl⟩
  simp only [hq, List.mem_append, List.mem_cons] at hx ⊢
  tauto

theorem fallBack (c : DtpContext) (p : DtpPkt) : Moves b c (c.fallBack p) := by
  rw [DtpContext.fallBack, DtpContext.unsendFIN]
  split_ifs <;> exact of_same rfl rfl

theorem noteFIN (c : DtpContext) : Moves b c c.noteFIN := by
  by_cases hs : c.state = .established
  · have hstate : c.noteFIN.state = .closeWait := if_pos hs
    refine of_view rfl ?_ ?_
    · rw [hstate, hs]
      rfl
    · simp [hstate]
  · exact of_same rfl (if_neg hs)

/-! ## Acts -/

/-- The acts that are part of an opening or a challenge. -/
def foreign : List ActKind := [.woken, .challenge, .address, .adopted, .key, .retry]

/-- The acts that end a connection. -/
def ending : List ActKind := [.called, .waits, .closes, .reset, .timedOut, .released, .dropLast]

theorem of_act {k : ActKind} (h : Act k c c') (hk : k ∉ foreign) (hb : b = false → k ∉ ending) : Moves b c c' := by
  have hon (hmem : k ∈ ending) : b = true := Bool.of_not_eq_false fun hf => hb hf hmem
  cases h with
  | data _ _ hsyn _ hchg hrsp _ =>
    exact of_atom (.data (fun hs => (Bool.and_eq_true _ _ ▸ hsyn hs).1) hchg hrsp _)
  | fin => exact of_atom (.fin c)
  | ack => exact dtpSendACKPacket c
  | probe => exact (refl c).send _ ⟨rfl, rfl, rfl⟩
  | rst => exact (refl c).send _ ⟨rfl, rfl, rfl⟩
  | auth => exact ((refl c).send _ ⟨rfl, rfl, rfl⟩).trans (of_same rfl rfl)
  | acked _ a =>
    have hshift : Moves b c (c.shiftAcked a) := of_same rfl rfl
    have hq : Moves b c ((c.shiftAcked a).setQueue (cutQueue a c.packetQ).rest) :=
      hshift.setQueue fun p hp => (mem_cutQueue hp).imp fun _ h => ⟨h.1, h.2.2⟩
    exact hq.trans (of_same (by rw [DtpContext.core, DtpContext.packetQ_removePacket]; rfl) rfl)
  | again hp heq =>
    refine of_atom (.again hp ?_)
    cases heq with
    | inl heq => rw [heq]
    | inr heq => rw [heq]
  | mark hq =>
    rename_i kept q p
    refine (refl c).setQueue fun x hx => ?_
    simp only [List.mem_append, List.mem_cons] at hx
    obtain hmem | rfl | hmem := hx
    · exact ⟨x, by simp [hq, hmem], rfl⟩
    · exact ⟨p, by simp [hq], rfl⟩
    · exact ⟨x, by simp [hq, hmem], rfl⟩
  | prune hq _ => exact (dropPacket hq).trans (of_same rfl rfl)
  | fallBack => exact fallBack c _
  | reconnect => exact dtpReconnect c
  | switch _ _ x =>
    have hlimit : Moves b c { c with limitRcvBuf := x } := of_same rfl rfl
    exact hlimit.trans (dtpReconnect _)
  | dropFirst hs _ hq =>
    exact (dropPacket (l := []) hq).trans (of_view rfl (hs ▸ rfl) fun h => by cases h)
  | dropACK _ hq => exact (dropPacket (l := []) hq).trans (of_same rfl rfl)
  | dropLast _ hq =>
    obtain rfl := hon (by decide)
    have hclosed : Moves true c { c with state := .closed } := of_atom (.closes c)
    exact hclosed.trans (dropPacket (l := []) hq)
  | opened => exact of_atom (.opened c)
  | establish hs => exact of_view rfl (hs ▸ rfl) fun h => by cases h
  | finAcked hs => exact of_view rfl (hs ▸ rfl) fun h => by cases h
  | finHeard => exact noteFIN c
  | timeWait hs _ =>
    refine of_view rfl ?_ fun h => by cases h
    cases hst : c.state <;> simp_all [DtpContext.inFinWait, SockState.leads]
  | called =>
    obtain rfl := hon (by decide)
    exact of_atom (.called c)
  | waits =>
    obtain rfl := hon (by decide)
    exact of_atom (.waits c)
  | closes =>
    obtain rfl := hon (by decide)
    exact of_atom (.closes c)
  | reset =>
    obtain rfl := hon (by decide)
    exact of_atom (.reset c)
  | timedOut =>
    obtain rfl := hon (by decide)
    exact of_atom (.timedOut c)
  | released =>
    obtain rfl := hon (by decide)
    exact of_atom (.released c)
  | woken | challenge | respond | forget | adopt | rebind | adopted | named | setKey | sendKey | retry =>
    exact absurd (by decide) hk
  | _ => exact of_same rfl rfl

theorem of_acts {K : List ActKind} (h : Acts K c c') (hK : ∀ k ∈ K, k ∉ foreign := by decide)
    (hb : b = false → ∀ k ∈ K, k ∉ ending := by first | exact fun _ => by decide | decide) :
    Moves b c c' := by
  refine h.invariant (P := Moves b c) ?_ (refl c)
  intro k hk x y ha hx
  exact hx.trans (of_act ha (hK k hk) fun hf => hb hf k hk)

/-! ## Around a challenge -/

/-- A challenge is answered after an RST, perhaps, and the end of the connection. -/
theorem handleCHGPacket (c : DtpContext) (hmac : List UInt8 → List UInt8 → List UInt8) (d : Datagram)
    (addr : SockAddr) :
    ∃ y, Moves true c y ∧ c.handleCHGPacket hmac d addr = (y.storeNonce d).sendRSPPacket hmac := by
  refine ⟨_, ?_, rfl⟩
  split_ifs
  · exact ((refl c).send addr ⟨rfl, rfl, rfl⟩).trans (of_atom (.reset _))
  · exact refl c

/-- A wrong response is refused or ignored. -/
theorem handleRSPPacket_invalid {hmac : List UInt8 → List UInt8 → List UInt8} {d : Datagram}
    (h : c.validRSP hmac d = false) (addr : SockAddr) : Moves b c (c.handleRSPPacket hmac d addr) := by
  simp only [DtpContext.handleRSPPacket, h, Bool.not_false, if_true]
  split_ifs
  · exact (refl c).send addr ⟨rfl, rfl, rfl⟩
  · exact refl c

/-- A right one is followed by the AUTH packet and the transfer. -/
theorem handleRSPPacket_valid {hmac : List UInt8 → List UInt8 → List UInt8} {d : Datagram}
    (h : c.validRSP hmac d = true) (addr : SockAddr) :
    Moves b (c.adoptAddress addr) (c.handleRSPPacket hmac d addr) := by
  simp only [DtpContext.handleRSPPacket, h, Bool.not_true, Bool.false_eq_true, if_false]
  have hauth : Moves b (c.adoptAddress addr) (c.adoptAddress addr).sendAUTHPacket :=
    of_act (.auth _) (by decide) fun _ => by decide
  exact (hauth.trans (of_acts (.resumeTransfer _))).trans (of_acts (.retransmitHead _))

theorem handleAUTHPacket {addr : SockAddr} (h : c.peerAddr = addr) (rnd : UInt32) :
    Moves b c (c.handleAUTHPacket addr rnd) := by
  rw [DtpContext.handleAUTHPacket, if_neg (by simp [h])]
  exact of_acts (.resumeACKed c)

/-- Every event that is no part of a challenge, except an answer to the SYN in `SYN_SENT` and the
end of a lingering `dtp_close`. -/
theorem apply (k : Crypto) {e : Event} (hs : c.state ≠ .synSent ∨ e.answersSYN = false)
    (he : e.isChallenge = false) (hw : e ≠ .closeWake) : Moves true c (e.apply k c) := by
  cases e with
  | closeWake => exact absurd rfl hw
  | chg | rsp | auth | checkAddr => cases he
  | synAck d addr hid =>
    have hs' : c.state ≠ .synSent := by simpa [Event.answersSYN] using hs
    simp only [Event.apply]
    split
    · rename_i r hr
      rcases handleSYNACKPacket_cases hr with ⟨-, rfl⟩ | ⟨hs, -⟩ | ⟨hs, -⟩
      · exact dtpSendACKPacket c
      · exact absurd hs hs'
      · exact absurd hs hs'
    · exact refl c
  | rst d hid fid =>
    have hs' : c.state ≠ .synSent := by simpa [Event.answersSYN] using hs
    simp only [Event.apply]
    split
    · rename_i r hr
      exact of_acts (.handleRSTPacket_opened hs' hr)
    · exact refl c
  | _ =>
    refine of_acts (.apply k c _) ?_ ?_
    all_goals
      simp only [Event.kinds]
      decide

end Moves
end Cedos.Dtp
