import Cedos.Dtp.Onward
import Cedos.Dtp.Options
import Cedos.Dtp.CloseOrder

/-!
# What a response proves

Two ends of a connection that move about, and a network in the hands of an attacker: every packet
that has been sent can be delivered to either end, at any time, any number of times, from any
address.

`HandleRSPPacket` takes a response from anywhere for the answer of the peer at the address it
comes from. What it checks is the hash of `tc_nonce` alone. It looks at `tc_doingCHGRSP` only when
the hash is wrong, the nonce stays in place after a response, and the hash covers no address. So a
response proves something about an address only as far as the network is honest: `Faithful` says
that CHG and RSP packets arrive where they were sent, RSP packets from the address they were sent
from, and none so late that the challenger has taken another response meanwhile.
-/

namespace Cedos.Dtp

open DtpContext

/-! ## Both ends -/

/-- The two ends of a connection. -/
inductive Side
  | left | right
  deriving DecidableEq, Repr

def Side.other : Side → Side
  | .left => .right
  | .right => .left

theorem Side.other_other (x : Side) : x.other.other = x := by cases x <;> rfl

theorem Side.other_ne (x : Side) : x.other ≠ x := by cases x <;> simp [Side.other]

/-- A packet that has been sent: by which end, from where, to where, and what `tc_nonce` was. -/
structure Letter where
  side : Side
  src : SockAddr
  dst : SockAddr
  nonce : UInt32
  body : Datagram

/-- Both ends, where they are, everything they have sent, and what has been sent since an end last
took a response. -/
structure Roaming where
  ctx : Side → DtpContext
  home : Side → SockAddr
  sent : List Letter
  recent : Side → List Letter

/-- What can happen. -/
inductive RoamEvent
  | event (x : Side) (e : Event)
  /-- an end gets a new address -/
  | move (x : Side) (addr : SockAddr)
  /-- a SYN of the flow comes in again -/
  | syn (x : Side) (d : Datagram) (addr : SockAddr) (hid key : List UInt8) (pad : ℕ)

namespace Roaming

/-- The attacker has seen the packet. -/
def Seen (s : Roaming) (d : Datagram) : Prop := ∃ m ∈ s.sent, m.body = d

/-- One end takes a step; what it puts on the wire is sent from where it is. -/
def step (s : Roaming) (x : Side) (took : Bool) (c : DtpContext) : Roaming :=
  let new := (c.wire.drop (s.ctx x).wire.length).map fun p => ⟨x, s.home x, p.1, c.nonce, p.2⟩
  { s with
    ctx := Function.update s.ctx x c
    sent := s.sent ++ new
    recent := fun z => (if took && z = x then [] else s.recent z) ++ new }

end Roaming

/-- A response that passes. -/
def Event.takes (k : Crypto) (c : DtpContext) : Event → Bool
  | .rsp d _ => c.validRSP k.hmac d
  | _ => false

/-- CHG and RSP packets are packets that have been seen; a nonce is drawn from `1` up. Of the
other packets nothing is asked, so that they include those that have been seen. -/
def Event.Replays (s : Roaming) : Event → Prop
  | .chg d _ => d.hdr.chg = true ∧ s.Seen d
  | .rsp d _ => d.hdr.chg = false ∧ d.hdr.rsp = true ∧ s.Seen d
  | .auth _ rnd => rnd ≠ 0
  | .checkAddr _ rnd => rnd ≠ 0
  | _ => True

/-- The runs from two contexts `c` at the addresses `h`. -/
def roaming (k : Crypto) (c : Side → DtpContext) (h : Side → SockAddr) : Machine Roaming RoamEvent where
  init s := s = ⟨c, h, [], fun _ => []⟩
  allowed s
    | .event x e => e.offered (s.ctx x) ∧ e.Replays s
    | _ => True
  apply s
    | .event x e => s.step x (e.takes k (s.ctx x)) (e.apply k (s.ctx x))
    | .move x addr => { s with home := Function.update s.home x addr }
    | .syn x d addr hid key pad => s.step x false ((s.ctx x).repeatSYN k.toRsa d addr hid key pad)

/-- The response `d` from `addr` answers a challenge that is under way: this end has sent it to
`addr` since it last took a response, and the peer has answered it with this nonce, from `addr` to
where this end is. -/
structure Bound (s : Roaming) (x : Side) (d : Datagram) (addr : SockAddr) : Prop where
  underWay : (s.ctx x).doingCHGRSP = true
  challenged : ∃ m ∈ s.recent x, m.side = x ∧ m.dst = addr ∧ m.body.hdr.chg = true ∧
    m.nonce = (s.ctx x).nonce
  answered : ∃ m ∈ s.recent x, m.side = x.other ∧ m.src = addr ∧ m.dst = s.home x ∧
    m.nonce = (s.ctx x).nonce ∧ m.body = d

/-- The network is honest about challenges. A CHG packet arrives at the end and the address it was
sent to, and an RSP packet that passes and would change the address also comes from where it was
sent; neither comes after the challenger has taken another response. No SYN comes in again. -/
def Faithful (k : Crypto) (s : Roaming) : RoamEvent → Prop
  | .event x (.chg d _) =>
    ∃ m ∈ s.recent x.other, m.side = x.other ∧ m.dst = s.home x ∧ m.body = d
  | .event x (.rsp d addr) => (s.ctx x).validRSP k.hmac d = true → (s.ctx x).peerAddr ≠ addr →
    ∃ m ∈ s.recent x, m.side = x.other ∧ m.src = addr ∧ m.dst = s.home x ∧ m.body = d
  | .syn _ _ _ _ _ _ => False
  | _ => True

/-- The runs over an honest network. -/
def faithful (k : Crypto) (c : Side → DtpContext) (h : Side → SockAddr) : Machine Roaming RoamEvent :=
  (roaming k c h).restrict fun s e => Faithful k s e

/-- The keyed hash: twenty bytes, and different nonces have different hashes under one key. -/
structure IdealHmac (hmac : List UInt8 → List UInt8 → List UInt8) : Prop where
  length : ∀ key nonce, (hmac key (bytes32 nonce)).length = sha1DigestLength
  inj : ∀ key nonce nonce', hmac key (bytes32 nonce) = hmac key (bytes32 nonce') → nonce = nonce'

/-! ## Steps outside a challenge -/

def Flags.NoChallenge (f : Flags) : Prop := f.chg = false ∧ f.rsp = false

/-- No CHG or RSP packet is queued. -/
def DtpContext.PlainQueue (c : DtpContext) : Prop := ∀ p ∈ c.packetQ, p.header.hdr.toFlags.NoChallenge

/-- A step that concerns no challenge. -/
structure Unchallenged (c c' : DtpContext) : Prop where
  peerAddr : c'.peerAddr = c.peerAddr
  nonce : c'.nonce = c.nonce
  doing : c'.doingCHGRSP = c.doingCHGRSP
  plain : c.PlainQueue → c'.PlainQueue ∧ ∃ new, c'.wire = c.wire ++ new ∧ ∀ y ∈ new, y.2.hdr.toFlags.NoChallenge

namespace Unchallenged
variable {c c' c'' : DtpContext}

theorem refl (c : DtpContext) : Unchallenged c c :=
  ⟨rfl, rfl, rfl, fun h => ⟨h, [], by simp, by simp⟩⟩

theorem trans (h : Unchallenged c c') (h' : Unchallenged c' c'') : Unchallenged c c'' where
  peerAddr := h'.peerAddr.trans h.peerAddr
  nonce := h'.nonce.trans h.nonce
  doing := h'.doing.trans h.doing
  plain hp := by
    obtain ⟨hp', new, hw, hnew⟩ := h.plain hp
    obtain ⟨hp'', new', hw', hnew'⟩ := h'.plain hp'
    refine ⟨hp'', new ++ new', by rw [hw', hw, List.append_assoc], ?_⟩
    intro y hy
    rcases List.mem_append.mp hy with hy | hy
    · exact hnew y hy
    · exact hnew' y hy

theorem send (c : DtpContext) (addr : SockAddr) {d : Datagram}
    (hd : c.PlainQueue → d.hdr.toFlags.NoChallenge) : Unchallenged c (c.send addr d) where
  peerAddr := rfl
  nonce := rfl
  doing := rfl
  plain hp := by
    refine ⟨hp, [(addr, d)], rfl, ?_⟩
    simpa using hd hp

theorem of_quiet (hpeer : c'.peerAddr = c.peerAddr) (hnonce : c'.nonce = c.nonce)
    (hdoing : c'.doingCHGRSP = c.doingCHGRSP) (hq : c'.packetQ = c.packetQ) (hw : c'.wire = c.wire) :
    Unchallenged c c' := by
  refine ⟨hpeer, hnonce, hdoing, fun hp => ⟨?_, [], by simp [hw], by simp⟩⟩
  rwa [PlainQueue, hq]

/-- A packet is queued and sent. -/
theorem of_push {p : DtpPkt} {y : SockAddr × Datagram} (hpeer : c'.peerAddr = c.peerAddr)
    (hnonce : c'.nonce = c.nonce) (hdoing : c'.doingCHGRSP = c.doingCHGRSP)
    (hq : c'.packetQ = c.packetQ ++ [p]) (hw : c'.wire = c.wire ++ [y])
    (hflags : p.header.hdr.toFlags.NoChallenge) (hy : y.2.hdr.toFlags.NoChallenge) : Unchallenged c c' := by
  refine ⟨hpeer, hnonce, hdoing, fun hp => ⟨?_, [y], hw, by simpa using hy⟩⟩
  intro q hmem
  rw [hq, List.mem_append, List.mem_singleton] at hmem
  rcases hmem with hmem | rfl
  · exact hp q hmem
  · exact hflags

theorem dtpCloseContext (c : DtpContext) : Unchallenged c c.dtpCloseContext := by
  simp only [DtpContext.dtpCloseContext]
  split_ifs <;> exact of_quiet rfl rfl rfl rfl rfl

theorem dtpCloseWake (c : DtpContext) : Unchallenged c c.dtpCloseWake.1 := by
  have hwoken : Unchallenged c { c with waitACK := false } := of_quiet rfl rfl rfl rfl rfl
  simp only [DtpContext.dtpCloseWake]
  split_ifs
  · exact hwoken.trans (dtpCloseContext _)
  · exact hwoken

theorem of_atom {b : Bool} (h : Atom b c c') : Unchallenged c c' := by
  cases h with
  | inner hv hs hc =>
    obtain ⟨-, -, hq, hw, hpeer, hnonce, hdoing, -⟩ := Core.mk.inj hv
    exact of_quiet hpeer hnonce hdoing hq hw
  | opened => exact of_quiet rfl rfl rfl rfl rfl
  | queue hq =>
    refine ⟨rfl, rfl, rfl, fun hp => ⟨?_, [], (List.append_nil _).symm, by simp⟩⟩
    intro p hmem
    obtain ⟨p', hp', heq⟩ := hq p hmem
    rw [← heq]
    exact hp p' hp'
  | control _ addr hd => exact send c addr fun _ => ⟨hd.chg, hd.rsp⟩
  | again hp hhdr =>
    refine send c c.peerAddr fun hplain => ?_
    have hflags := hplain _ hp
    rw [hhdr] at hflags
    exact hflags
  | data hsyn hchg hrsp len =>
    rename_i flags
    have hflags : (c.writeHeader flags).hdr.toFlags.NoChallenge := by
      rw [writeHeader_flags]
      exact ⟨hchg, hrsp⟩
    exact of_push rfl rfl rfl rfl rfl hflags hflags
  | fin => exact of_push rfl rfl rfl rfl rfl ⟨rfl, rfl⟩ ⟨rfl, rfl⟩
  | called => exact of_quiet rfl rfl rfl rfl rfl
  | waits => exact of_quiet rfl rfl rfl rfl rfl
  | reset => exact of_quiet rfl rfl rfl rfl rfl
  | timedOut => exact of_quiet rfl rfl rfl rfl rfl
  | closes => exact of_quiet rfl rfl rfl rfl rfl
  | released => exact dtpCloseContext c

theorem of_moves (h : Moves true c c') : Unchallenged c c' := by
  induction h with
  | refl => exact refl c
  | tail _ hatom ih => exact ih.trans (of_atom hatom)

end Unchallenged

/-- A response that passes moves the connection to where it comes from; another one does not. -/
theorem peerAddr_handleRSPPacket (hmac : List UInt8 → List UInt8 → List UInt8) (c : DtpContext)
    (d : Datagram) (addr : SockAddr) :
    (c.handleRSPPacket hmac d addr).peerAddr = if c.validRSP hmac d then addr else c.peerAddr := by
  cases hv : c.validRSP hmac d with
  | false => exact (Unchallenged.of_moves (.handleRSPPacket_invalid hv addr)).peerAddr
  | true => exact (Unchallenged.of_moves (.handleRSPPacket_valid hv addr)).peerAddr

/-! ## What is on the way -/

/-- The packet carries the nonce it was sent with: a CHG packet as it is, an RSP packet hashed. -/
structure Letter.Honest (k : Crypto) (key : List UInt8) (m : Letter) : Prop where
  asks : m.body.hdr.chg = true → word32 m.body.body 0 = m.nonce
  answers : m.body.hdr.rsp = true → peek m.body.body 0 sha1DigestLength = k.hmac key (bytes32 m.nonce)

/-- The other end has asked for this answer, where it comes from. -/
def Letter.Asked (recent : List Letter) (m : Letter) : Prop :=
  m.body.hdr.rsp = true → ∃ q ∈ recent, q.side = m.side.other ∧ q.dst = m.src ∧
    q.body.hdr.chg = true ∧ q.nonce = m.nonce

/-- Both ends have the key, what is on the way is honest, a recent answer was asked for recently,
and who has asked recently has a challenge under way. -/
structure Binding (k : Crypto) (key : List UInt8) (s : Roaming) : Prop where
  shared : ∀ x, (s.ctx x).key = key
  opened : ∀ x, (s.ctx x).state ≠ .synSent
  plain : ∀ x, (s.ctx x).PlainQueue
  honest : ∀ x, ∀ m ∈ s.recent x, m.Honest k key
  asked : ∀ x, ∀ m ∈ s.recent x, m.side = x.other → m.Asked (s.recent x)
  underWay : ∀ x, ∀ m ∈ s.recent x, m.side = x → m.body.hdr.chg = true →
    (s.ctx x).doingCHGRSP = true

section Binding
variable {k : Crypto} {key : List UInt8} {s : Roaming} {x : Side} {c : DtpContext}

/-- What an end may send while it takes the step to `c`. -/
structure Sends (k : Crypto) (key : List UInt8) (s : Roaming) (x : Side) (c : DtpContext)
    (y : SockAddr × Datagram) : Prop where
  honest : Letter.Honest k key ⟨x, s.home x, y.1, c.nonce, y.2⟩
  asked : Letter.Asked (s.recent x.other) ⟨x, s.home x, y.1, c.nonce, y.2⟩
  underWay : y.2.hdr.chg = true → c.doingCHGRSP = true

/-- A packet outside a challenge is of no account. -/
theorem Sends.of_plain {y : SockAddr × Datagram} (h : y.2.hdr.toFlags.NoChallenge) :
    Sends k key s x c y := by
  obtain ⟨hchg, hrsp⟩ := h
  refine ⟨⟨fun h => ?_, fun h => ?_⟩, fun h => ?_, fun h => ?_⟩
  · simp [hchg] at h
  · simp [hrsp] at h
  · simp [hrsp] at h
  · simp [hchg] at h

/-- A recent packet was recent before, unless a response has just been taken, or it is new. -/
theorem Roaming.mem_recent_step {took : Bool} {new : List (SockAddr × Datagram)}
    (hw : c.wire = (s.ctx x).wire ++ new) {z : Side} {m : Letter} : m ∈ (s.step x took c).recent z ↔
      (m ∈ s.recent z ∧ ¬(took = true ∧ z = x)) ∨ ∃ y ∈ new, m = ⟨x, s.home x, y.1, c.nonce, y.2⟩ := by
  simp only [Roaming.step, hw, List.drop_left, List.mem_append, List.mem_map, Bool.and_eq_true,
    decide_eq_true_eq, eq_comm (a := m)]
  refine or_congr_left ?_
  split_ifs with hz
  · simp [hz]
  · exact (and_iff_left hz).symm

variable (h : Binding k key s)
include h

/-- One end takes a step onward and sends `new`. -/
theorem Binding.step {took : Bool} (ho : Onward (s.ctx x) c) (hplain : c.PlainQueue)
    {new : List (SockAddr × Datagram)} (hw : c.wire = (s.ctx x).wire ++ new)
    (hdoing : took = false → (s.ctx x).doingCHGRSP = true → c.doingCHGRSP = true)
    (hnew : ∀ y ∈ new, Sends k key s x c y) : Binding k key (s.step x took c) := by
  have hctx (P : DtpContext → Prop) (hc : P c) (hs : ∀ z, P (s.ctx z)) (z : Side) :
      P ((s.step x took c).ctx z) := by
    change P (Function.update s.ctx x c z)
    by_cases hz : z = x
    · subst hz
      simpa using hc
    · simpa [hz] using hs z
  refine ⟨?_, ?_, ?_, ?_, ?_, ?_⟩
  · exact hctx (·.key = key) ((congrArg Settled.key ho.settled).trans (h.shared x)) h.shared
  · refine hctx (·.state ≠ .synSent) (fun hs => h.opened x ?_) h.opened
    have hleads := ho.state
    rw [hs] at hleads
    exact SockState.leads_synSent hleads
  · exact hctx PlainQueue hplain h.plain
  · intro z m hm
    rcases (Roaming.mem_recent_step hw).mp hm with ⟨hm, -⟩ | ⟨y, hy, rfl⟩
    · exact h.honest z m hm
    · exact (hnew y hy).honest
  · intro z m hm hside hrsp
    rcases (Roaming.mem_recent_step hw).mp hm with ⟨hm, hz⟩ | ⟨y, hy, rfl⟩
    · obtain ⟨q, hq, hasked⟩ := h.asked z m hm hside hrsp
      exact ⟨q, (Roaming.mem_recent_step hw).mpr (.inl ⟨hq, hz⟩), hasked⟩
    · obtain rfl : z = x.other := by
        rw [show x = z.other from hside, Side.other_other]
      obtain ⟨q, hq, hasked⟩ := (hnew y hy).asked hrsp
      exact ⟨q, (Roaming.mem_recent_step hw).mpr (.inl ⟨hq, fun hz => x.other_ne hz.2⟩), hasked⟩
  · intro z m hm hside hchg
    change (Function.update s.ctx x c z).doingCHGRSP = true
    rcases (Roaming.mem_recent_step hw).mp hm with ⟨hm, hz⟩ | ⟨y, hy, rfl⟩
    · have hway := h.underWay z m hm hside hchg
      by_cases hx : z = x
      · subst hx
        have htook : took = false := by simpa using hz
        simpa using hdoing htook hway
      · simpa [hx] using hway
    · obtain rfl : x = z := hside
      simpa using (hnew y hy).underWay hchg

theorem Binding.unchallenged {took : Bool} (ho : Onward (s.ctx x) c)
    (hu : Unchallenged (s.ctx x) c) : Binding k key (s.step x took c) := by
  obtain ⟨hplain, new, hw, hnew⟩ := hu.plain (h.plain x)
  exact h.step ho hplain hw (fun _ hd => hu.doing.trans hd) fun y hy => .of_plain (hnew y hy)

theorem Binding.handleAddressChange (addr : SockAddr) (rnd : UInt32) :
    Binding k key (s.step x false ((s.ctx x).handleAddressChange addr rnd)) := by
  refine h.step (Onward.handleAddressChange _ addr rnd) (h.plain x) rfl (fun _ _ => rfl) ?_
  intro y hy
  obtain rfl := List.mem_singleton.mp hy
  refine ⟨⟨fun _ => word32_bytes32 fun i hi => ?_, fun hrsp => ?_⟩, fun hrsp => ?_, fun _ => rfl⟩
  · simp [mkDatagram]
    rfl
  · cases hrsp
  · cases hrsp

/-- A challenge that was sent here is answered. -/
theorem Binding.handleCHGPacket (hk : IdealHmac k.hmac) {d : Datagram} (hchg : d.hdr.chg = true)
    (hd : ∃ m ∈ s.recent x.other, m.side = x.other ∧ m.dst = s.home x ∧ m.body = d) (addr : SockAddr) :
    Binding k key (s.step x false ((s.ctx x).handleCHGPacket k.hmac d addr)) := by
  obtain ⟨b, hb, heq⟩ := Moves.handleCHGPacket (s.ctx x) k.hmac d addr
  have hu := Unchallenged.of_moves hb
  obtain ⟨hplain, new, hw, hnew⟩ := hu.plain (h.plain x)
  have hkey : b.key = key := (congrArg Settled.key (Onward.of_moves hb).settled).trans (h.shared x)
  have ho := Onward.handleCHGPacket (s.ctx x) k.hmac d addr
  rw [heq] at ho ⊢
  have hw' : (sendRSPPacket k.hmac (b.storeNonce d)).wire = (s.ctx x).wire ++ (new ++
      [(b.peerAddr, mkDatagram ((b.storeNonce d).challengeHeader { rsp := true })
        (k.hmac b.key (bytes32 (word32 d.body 0))))]) := by
    rw [← List.append_assoc, ← hw]
    rfl
  refine h.step ho hplain hw' (fun _ hd => hu.doing.trans hd) fun y hy => ?_
  rcases List.mem_append.mp hy with hy | hy
  · exact .of_plain (hnew y hy)
  obtain rfl := List.mem_singleton.mp hy
  refine ⟨⟨fun hc => ?_, fun _ => ?_⟩, fun _ => ?_, fun hc => ?_⟩
  · cases hc
  · have hlen := hk.length b.key (word32 d.body 0)
    rw [← hlen, hkey]
    exact peek_getD _ 0
  · obtain ⟨m, hm, hside, hdst, rfl⟩ := hd
    exact ⟨m, hm, hside, hdst, hchg, ((h.honest x.other m hm).asks hchg).symm⟩
  · cases hc

theorem Binding.apply (hk : IdealHmac k.hmac) {c₀ : Side → DtpContext} {home : Side → SockAddr}
    {e : RoamEvent} (he : (faithful k c₀ home).allowed s e) : Binding k key ((faithful k c₀ home).apply s e) := by
  obtain ⟨hallowed, hfaith⟩ := he
  cases e with
  | move x addr => exact ⟨h.shared, h.opened, h.plain, h.honest, h.asked, h.underWay⟩
  | syn x d addr hid key pad => cases hfaith
  | event x e =>
    have ho : Onward (s.ctx x) (e.apply k (s.ctx x)) := Onward.apply k (.inl (h.opened x))
    change Binding k key (s.step x (e.takes k (s.ctx x)) (e.apply k (s.ctx x)))
    cases hc : e.isChallenge with
    | false =>
      by_cases hwake : e = .closeWake
      · subst hwake
        exact h.unchallenged ho (.dtpCloseWake _)
      · exact h.unchallenged ho (.of_moves (.apply k (.inl (h.opened x)) hc hwake))
    | true =>
      cases e with
      | chg d addr => exact h.handleCHGPacket hk hallowed.2.1 hfaith addr
      | rsp d addr =>
        cases hv : (s.ctx x).validRSP k.hmac d with
        | false => exact h.unchallenged ho (.of_moves (.handleRSPPacket_invalid hv addr))
        | true =>
          obtain ⟨hplain, new, hw, hnew⟩ :=
            (Unchallenged.of_moves (.handleRSPPacket_valid hv addr)).plain (h.plain x)
          rw [Event.takes, hv]
          exact h.step ho hplain hw (fun hno => nomatch hno) fun y hy => .of_plain (hnew y hy)
      | auth addr rnd =>
        by_cases ha : (s.ctx x).peerAddr = addr
        · exact h.unchallenged ho (.of_moves (.handleAUTHPacket ha rnd))
        · simp only [Event.apply, handleAUTHPacket, ne_eq, ha, not_false_eq_true, if_true]
          exact h.handleAddressChange addr rnd
      | checkAddr addr rnd =>
        have hquiet (c : DtpContext) (hoc : Onward (s.ctx x) c) (hq : c.packetQ = (s.ctx x).packetQ)
            (hw : c.wire = (s.ctx x).wire) (hd : c.doingCHGRSP = (s.ctx x).doingCHGRSP) :
            Binding k key (s.step x false c) := by
          refine h.step hoc ?_ (hw.trans (List.append_nil _).symm) (fun _ h => hd.trans h) (by simp)
          rw [PlainQueue, hq]
          exact h.plain x
        simp only [Event.apply, checkAddress] at ho ⊢
        split_ifs at ho ⊢
        · exact hquiet _ ho rfl rfl rfl
        · exact hquiet _ ho rfl rfl rfl
        · exact h.handleAddressChange addr rnd
        · exact hquiet _ ho rfl rfl rfl
      | _ => cases hc

end Binding

/-! ## Runs -/

/-- Two ends after their opening: they share a key and have sent no challenge. -/
structure Connected (key : List UInt8) (c : Side → DtpContext) : Prop where
  shared : ∀ x, (c x).key = key
  opened : ∀ x, (c x).state ≠ .synSent
  plain : ∀ x, (c x).PlainQueue

section Runs
variable {k : Crypto} {key : List UInt8} {c : Side → DtpContext} {home : Side → SockAddr}

theorem binding_of_faithful (hk : IdealHmac k.hmac) (hc : Connected key c) {s : Roaming}
    (hs : (faithful k c home).Reachable s) : Binding k key s := by
  refine Machine.Reachable.invariant (P := Binding k key) ?_ ?_ hs
  · rintro t rfl
    exact ⟨hc.shared, hc.opened, hc.plain, by simp, by simp, by simp⟩
  · intro t e ht he
    exact ht.apply hk he

/-- **A response binds the address.**  In every run over an honest network, and for every response
that can come in, from a replayed or redirected packet too: that the response changes the peer's
address only when it answers a challenge that is under way, to this address and from this address,
holds just when the network is honest about this response as well. -/
theorem response_binds (hk : IdealHmac k.hmac) (hc : Connected key c) {s : Roaming}
    (hs : (faithful k c home).Reachable s) {x : Side} {d : Datagram} {addr : SockAddr}
    (he : (roaming k c home).allowed s (.event x (.rsp d addr))) :
    (((s.ctx x).handleRSPPacket k.hmac d addr).peerAddr ≠ (s.ctx x).peerAddr → Bound s x d addr) ↔
      Faithful k s (.event x (.rsp d addr)) := by
  have h := binding_of_faithful hk hc hs
  obtain ⟨-, -, hrsp, -⟩ := he
  simp only [peerAddr_handleRSPPacket, Faithful]
  by_cases hv : (s.ctx x).validRSP k.hmac d = true
  · simp only [hv, if_true, forall_const]
    constructor
    · intro hbound hne
      obtain ⟨m, hm, hside, hsrc, hdst, -, hbody⟩ := (hbound hne.symm).answered
      exact ⟨m, hm, hside, hsrc, hdst, hbody⟩
    · intro hfaith hne
      obtain ⟨m, hm, hside, hsrc, hdst, rfl⟩ := hfaith hne.symm
      -- the hash determines the nonce, and the peer was asked for it at this address
      have hnonce : m.nonce = (s.ctx x).nonce := by
        apply hk.inj key
        rw [← (h.honest x m hm).answers hrsp, ← h.shared x]
        simpa [validRSP] using hv
      obtain ⟨q, hq, hqside, hqdst, hqchg, hqnonce⟩ := h.asked x m hm hside hrsp
      rw [hside, Side.other_other] at hqside
      exact ⟨h.underWay x q hq hqside hqchg,
        ⟨q, hq, hqside, hqdst.trans hsrc, hqchg, hqnonce.trans hnonce⟩,
        ⟨m, hm, hside, hsrc, hdst, hnonce, rfl⟩⟩
  · simp [hv]

end Runs

/-! ## A response at an honest and at a dishonest address -/

/-- A hash that shows its message. -/
def clearCrypto : Crypto := { sampleCrypto with hmac := fun _ m => m ++ List.replicate 16 0 }

theorem bytes32_injective : Function.Injective bytes32 := by
  intro n n' h
  have hn (n : UInt32) : word32 (fun i => (bytes32 n).getD i 0) 0 = n := word32_bytes32 fun j _ => by simp
  rw [← hn n, h, hn n']

theorem clearCrypto_ideal : IdealHmac clearCrypto.hmac where
  length _ _ := rfl
  inj _ _ _ h := bytes32_injective (List.append_cancel_right h)

/-- Where the left end is, and where the right end is before and after its move. -/
def leftHome : SockAddr := ⟨1, 1⟩
def rightHome : SockAddr := ⟨2, 2⟩
def elsewhere : SockAddr := ⟨3, 3⟩

/-- Where the ends are. -/
def sampleHomes : Side → SockAddr
  | .left => leftHome
  | .right => rightHome

/-- Two ends that know each other. -/
def samplePair : Side → DtpContext
  | .left => { sampleSender with peerAddr := rightHome }
  | .right => { sampleSender with peerAddr := leftHome }

theorem samplePair_connected : Connected [] samplePair where
  shared x := by cases x <;> rfl
  opened x := by cases x <;> decide
  plain x := by
    have hempty : (samplePair x).packetQ = [] := by cases x <;> rfl
    simp [PlainQueue, hempty]

/-- The right end moves and sends a packet, and the left end challenges its new address. -/
def askedState : Roaming :=
  (faithful clearCrypto samplePair sampleHomes).run ⟨samplePair, sampleHomes, [], fun _ => []⟩
    [.move .right elsewhere, .event .right (.send [1]), .event .left (.checkAddr elsewhere 7)]

def theCHG : Datagram := (askedState.sent.getLast (by decide +kernel)).body

/-- The right end answers it. -/
def answeredState : Roaming :=
  (faithful clearCrypto samplePair sampleHomes).apply askedState (.event .right (.chg theCHG leftHome))

def theRSP : Datagram := (answeredState.sent.getLast (by decide +kernel)).body

theorem answered_reachable : (faithful clearCrypto samplePair sampleHomes).Reachable answeredState := by
  have hasked : (faithful clearCrypto samplePair sampleHomes).Reachable askedState := by
    refine Machine.Reachable.run (.init rfl) ⟨⟨trivial, trivial⟩, ⟨⟨trivial, trivial⟩, trivial⟩,
      ⟨⟨?_, ?_⟩, trivial⟩, trivial⟩
    · change DtpContext.receives _ = true
      decide +kernel
    · change (7 : UInt32) ≠ 0
      decide
  have hrecv : (askedState.ctx .right).receives = true := by decide +kernel
  have hchg : theCHG.hdr.chg = true := by decide +kernel
  refine hasked.step ⟨⟨hrecv, hchg, ⟨_, List.getLast_mem _, rfl⟩⟩, _, List.getLast_mem _, ?_, ?_, rfl⟩
  · decide +kernel
  · decide +kernel

theorem theRSP_allowed :
    (faithful clearCrypto samplePair sampleHomes).allowed answeredState (.event .left (.rsp theRSP elsewhere)) := by
  have hrecv : (answeredState.ctx .left).receives = true := by decide +kernel
  have hchg : theRSP.hdr.chg = false := by decide +kernel
  have hrsp : theRSP.hdr.rsp = true := by decide +kernel
  refine ⟨⟨hrecv, hchg, hrsp, ⟨_, List.getLast_mem _, rfl⟩⟩, fun _ _ => ⟨_, List.getLast_mem _, ?_, ?_, ?_, rfl⟩⟩
    <;> decide +kernel

/-- It moves the connection, and is bound to the address. -/
theorem response_binds_migration : ∃ s, (faithful clearCrypto samplePair sampleHomes).Reachable s ∧
    ((s.ctx .left).handleRSPPacket clearCrypto.hmac theRSP elsewhere).peerAddr = elsewhere ∧
    Bound s .left theRSP elsewhere := by
  have hmoved : ((answeredState.ctx .left).handleRSPPacket clearCrypto.hmac theRSP elsewhere).peerAddr =
      elsewhere := by decide +kernel
  have hother : elsewhere ≠ (answeredState.ctx .left).peerAddr := by decide +kernel
  refine ⟨answeredState, answered_reachable, hmoved, ?_⟩
  refine (response_binds clearCrypto_ideal samplePair_connected answered_reachable
    theRSP_allowed.1).mpr theRSP_allowed.2 ?_
  rw [hmoved]
  exact hother

/-- **No binding.**  After the move the response comes in once more, from an address that has never
been challenged, with no challenge under way: the connection moves there. -/
theorem replayed_response_moves : ∃ s, (roaming clearCrypto samplePair sampleHomes).Reachable s ∧
    (roaming clearCrypto samplePair sampleHomes).allowed s (.event .left (.rsp theRSP ⟨4, 4⟩)) ∧
    ((s.ctx .left).handleRSPPacket clearCrypto.hmac theRSP ⟨4, 4⟩).peerAddr = ⟨4, 4⟩ ∧
    (s.ctx .left).peerAddr = elsewhere ∧ ¬Bound s .left theRSP ⟨4, 4⟩ ∧ (s.ctx .left).doingCHGRSP = false ∧
    (∀ m ∈ s.sent, m.dst ≠ ⟨4, 4⟩) ∧ ∀ m ∈ s.sent, m.src ≠ ⟨4, 4⟩ := by
  have hmoved := (answered_reachable.step theRSP_allowed).of_restrict
  refine ⟨_, hmoved, ⟨?_, by decide +kernel, by decide +kernel, ?_⟩, ?_, ?_,
    fun hbound => absurd hbound.underWay (by decide +kernel), ?_, ?_, ?_⟩
  · change DtpContext.receives _ = true
    decide +kernel
  · exact ⟨_, List.mem_append_left _ (List.getLast_mem _), rfl⟩
  all_goals decide +kernel

end Cedos.Dtp
