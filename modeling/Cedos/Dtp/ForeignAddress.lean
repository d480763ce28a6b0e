import Cedos.Dtp.Dispatch

/-!
# Datagrams from another address

An established connection and a datagram of its flow that does not come from the peer's
address. Data, ACKs, FINs and AUTHs are answered with a challenge and otherwise dropped, and
so is a response that is not the right one. Three kinds of datagrams are acted on whatever
their address is: a challenge, since an address change at both ends cannot be followed; an RST
that names the peer's host; and a SYN that names it, since it comes from a host that
reconnects.

A SYN+ACK that reaches the client again is not looked at here.
-/

namespace Cedos.Dtp

open DtpContext

/-- Peer, key and both directions of the stream are as they were. -/
structure SameStream (c c' : DtpContext) : Prop where
  peerAddr : c'.peerAddr = c.peerAddr
  key : c'.key = c.key
  sendSide : c'.toSendSide = c.toSendSide
  recvSide : c'.toRecvSide = c.toRecvSide

/-- A challenge or an RST to this address. -/
def Answers (addr : SockAddr) (x : SockAddr × Datagram) : Prop :=
  x.1 = addr ∧ (x.2.hdr.toFlags = { chg := true } ∨ x.2.hdr.toFlags = { rst := true })

/-- And so is the state; the datagram is at most answered. -/
structure Isolated (addr : SockAddr) (c c' : DtpContext) : Prop extends SameStream c c' where
  state : c'.state = c.state
  wire : ∃ sent, c'.wire = c.wire ++ sent ∧ ∀ x ∈ sent, Answers addr x

/-- The context that `OnReadEvent` takes for a datagram. -/
def ReadLoop.target (isListen : Bool) (sock : ℕ) (r : ReadLoop) (d : Datagram) : Option ℕ :=
  if d.hdr.syn then if isListen then r.node.byFlowID d.hdr.fid else some sock
  else r.lookup isListen sock d.hdr.fid

def Arrival.Names (a : Arrival) (deadline : Option UInt32) (host : List UInt8) : Prop :=
  ∃ dl, dtpGetOption a.d a.env.hid deadline = .ok (host, dl)

/-- What a datagram from another address does to a context of its flow. -/
structure ForeignEffect (k : Crypto) (a : Arrival) (c c' : DtpContext) : Prop where
  /-- it is no challenge, no right response, no RST or SYN of the peer's host -/
  other : (a.d.hdr.syn = true → ¬a.Names (some 0) c.hostID) →
    (a.d.hdr.syn = false → a.d.hdr.rst = true → ¬a.Names none c.hostID) →
    (a.d.hdr.syn = false → a.d.hdr.rst = false → a.d.hdr.chg = false ∧
      ¬(a.d.hdr.rsp = true ∧ c.validRSP k.hmac a.d = true)) → Isolated a.addr c c'
  reset : a.d.hdr.syn = false → a.d.hdr.rst = true ∧ a.Names none c.hostID ∨
    a.d.hdr.rst = false ∧ a.d.hdr.chg = true ∧ c.connTimedOut = false → c'.state = .closed ∧ SameStream c c'
  reconnect : a.d.hdr.syn = true → a.Names (some 0) c.hostID →
    c'.state = c.state ∧ c'.peerAddr = a.addr ∧ c'.key = a.env.key

namespace Isolated

theorem refl (addr : SockAddr) (c : DtpContext) : Isolated addr c c :=
  ⟨⟨rfl, rfl, rfl, rfl⟩, rfl, [], by simp, by simp⟩

theorem trans {addr : SockAddr} {c c' c'' : DtpContext} (h : Isolated addr c c') (h' : Isolated addr c' c'') :
    Isolated addr c c'' where
  peerAddr := h'.peerAddr.trans h.peerAddr
  key := h'.key.trans h.key
  sendSide := h'.sendSide.trans h.sendSide
  recvSide := h'.recvSide.trans h.recvSide
  state := h'.state.trans h.state
  wire := by
    obtain ⟨sent, hw, hs⟩ := h.wire
    obtain ⟨sent', hw', hs'⟩ := h'.wire
    exact ⟨sent ++ sent', by rw [hw', hw, List.append_assoc], List.forall_mem_append.mpr ⟨hs, hs'⟩⟩

theorem handleAddressChange (c : DtpContext) (addr : SockAddr) (rnd : UInt32) :
    Isolated addr c (c.handleAddressChange addr rnd) :=
  ⟨⟨rfl, rfl, rfl, rfl⟩, rfl, _, rfl, List.forall_mem_singleton.mpr ⟨rfl, Or.inl rfl⟩⟩

theorem sendRSTPacket (c : DtpContext) (fid : UInt32) (addr : SockAddr) :
    Isolated addr c (c.sendRSTPacket fid addr) :=
  ⟨⟨rfl, rfl, rfl, rfl⟩, rfl, _, rfl, List.forall_mem_singleton.mpr ⟨rfl, Or.inr rfl⟩⟩

theorem handleRSPPacket {hmac : List UInt8 → List UInt8 → List UInt8} {c : DtpContext} {d : Datagram}
    (hv : c.validRSP hmac d = false) (addr : SockAddr) :
    Isolated addr c (c.handleRSPPacket hmac d addr) := by
  simp only [DtpContext.handleRSPPacket, hv, Bool.not_false, if_true]
  split_ifs
  · exact sendRSTPacket c _ addr
  · exact refl addr c

theorem handleAUTHPacket {c : DtpContext} {addr : SockAddr} (ha : c.peerAddr ≠ addr) (rnd : UInt32) :
    Isolated addr c (c.handleAUTHPacket addr rnd) := by
  simp only [DtpContext.handleAUTHPacket, ne_eq, ha, not_false_eq_true, if_true]
  exact handleAddressChange c addr rnd

theorem checkAddress {c : DtpContext} {addr : SockAddr} (hs : c.state = .established)
    (ha : c.peerAddr ≠ addr) (rnd : UInt32) :
    Isolated addr c (c.checkAddress addr rnd) := by
  simp only [DtpContext.checkAddress, hs, reduceCtorEq, if_false, ne_eq, ha, not_false_eq_true, if_true]
  exact handleAddressChange c addr rnd

end Isolated

/-- A challenge from another address gives the connection up. -/
theorem handleCHGPacket_foreign {hmac : List UInt8 → List UInt8 → List UInt8} {c : DtpContext}
    {addr : SockAddr} (ha : c.peerAddr ≠ addr) (d : Datagram) :
    (c.handleCHGPacket hmac d addr).state = .closed ∧ SameStream c (c.handleCHGPacket hmac d addr) := by
  simp only [DtpContext.handleCHGPacket, ne_eq, ha, not_false_eq_true, if_true]
  exact ⟨rfl, rfl, rfl, rfl, rfl⟩

/-- A SYN of the peer's host moves the connection and draws a new key. -/
theorem repeatSYN_reconnects (rsa : Rsa) (c : DtpContext) (d : Datagram) (addr : SockAddr) (key : List UInt8)
    (pad : ℕ) : (c.repeatSYN rsa d addr c.hostID key pad).state = c.state ∧
    (c.repeatSYN rsa d addr c.hostID key pad).peerAddr = addr ∧ (c.repeatSYN rsa d addr c.hostID key pad).key =
    key := by
  simp only [DtpContext.repeatSYN, if_true, DtpContext.dtpHandleKey]
  cases rsa.encrypt (modulus d) (exponent d) key pad with
  | none => exact ⟨rfl, rfl, rfl⟩
  | some cipher => exact ⟨rfl, rfl, rfl⟩

/-! ## One datagram -/

section Datagram
variable {k : Crypto} {isListen : Bool} {sock s : ℕ} {r r' : ReadLoop} {a : Arrival}

theorem ctx_modify (r : ReadLoop) (s : ℕ) (f : DtpContext → DtpContext) :
    (r.modify s f).node.ctx s = f (r.node.ctx s) := by
  simp [ReadLoop.modify, Node.modify, Node.set]

/-- Before it is dropped, an AUTH is challenged a first time. -/
theorem isolated_auth (ha : (r.node.ctx s).peerAddr ≠ a.addr) :
    Isolated a.addr (r.node.ctx s) ((if a.d.hdr.auth
      then r.modify s fun c => c.handleAUTHPacket a.addr a.env.rnd else r).node.ctx s) := by
  split_ifs
  · rw [ctx_modify]
    exact Isolated.handleAUTHPacket ha _
  · exact Isolated.refl _ _

theorem Isolated.isForeign {addr : SockAddr} {c c' : DtpContext} (h : Isolated addr c c') (hs : c.state = .established)
    (ha : c.peerAddr ≠ addr) : c'.isForeign addr = true := by
  simp [DtpContext.isForeign, h.state, h.peerAddr, hs, ha]

section
variable (hs : (r.node.ctx s).state = .established)
include hs

/-- Nothing is collected from it. -/
theorem api_receiveFor (ha : (r.node.ctx s).peerAddr ≠ a.addr)
    (hsyn : a.d.hdr.syn = false) : (r.receiveFor k s a).api = r.api := by
  have h₁ := isolated_auth ha
  have hapi : (if a.d.hdr.auth then r.modify s fun c => c.handleAUTHPacket a.addr a.env.rnd
      else r).api = r.api := by
    split_ifs <;> rfl
  simp only [ReadLoop.receiveFor, hsyn, Bool.false_eq_true, if_false]
  generalize (if a.d.hdr.auth then r.modify s fun c => c.handleAUTHPacket a.addr a.env.rnd else r) = r₁
    at h₁ hapi
  simp only [h₁.isForeign hs ha, if_true]
  split_ifs
  · rfl
  · rfl
  · rfl
  · exact hapi

/-- A datagram without SYN, RST and CHG flag that is no right response. -/
theorem isolated_receiveFor (ha : (r.node.ctx s).peerAddr ≠ a.addr) (hsyn : a.d.hdr.syn = false) (hchg : a.d.hdr.chg = false)
    (hrsp : ¬(a.d.hdr.rsp = true ∧ (r.node.ctx s).validRSP k.hmac a.d = true)) :
    Isolated a.addr (r.node.ctx s) ((r.receiveFor k s a).node.ctx s) := by
  have h₁ := isolated_auth ha
  simp only [ReadLoop.receiveFor, hsyn, hchg, Bool.false_eq_true, if_false]
  generalize (if a.d.hdr.auth then r.modify s fun c => c.handleAUTHPacket a.addr a.env.rnd else r) = r₁
    at h₁
  simp only [h₁.isForeign hs ha, if_true]
  split_ifs with hrecv hr
  · exact Isolated.refl _ _
  · rw [ctx_modify]
    have hv : (r.node.ctx s).validRSP k.hmac a.d = false := by
      by_contra hne
      exact hrsp ⟨hr, by simpa using hne⟩
    exact Isolated.handleRSPPacket hv _
  · rw [ctx_modify]
    refine h₁.trans (Isolated.checkAddress (h₁.state.trans hs) ?_ _)
    rw [h₁.peerAddr]
    exact ha

theorem reset_receiveFor (hto : (r.node.ctx s).connTimedOut = false)
    (ha : (r.node.ctx s).peerAddr ≠ a.addr) (hchg : a.d.hdr.chg = true) : ((r.receiveFor k s a).node.ctx s).state =
    .closed ∧ SameStream (r.node.ctx s) ((r.receiveFor k s a).node.ctx s) := by
  have hrecv : (r.node.ctx s).receives = true := by simp [DtpContext.receives, hs, hto]
  simp only [ReadLoop.receiveFor, hrecv, hchg, Bool.not_true, Bool.false_eq_true, if_false, if_true]
  rw [ctx_modify]
  exact handleCHGPacket_foreign ha a.d

end

theorem foreign_receiveFound (hcur : r.cur = some s) (hs : (r.node.ctx s).state = .established)
    (hfid : a.d.hdr.fid = (r.node.ctx s).flowID) (ha : (r.node.ctx s).peerAddr ≠ a.addr) (hsyn : a.d.hdr.syn = false)
    (h : r.receiveFound k sock a = .ok r') : ForeignEffect k a (r.node.ctx s) (r'.node.ctx s) ∧ r'.api = r.api := by
  simp only [ReadLoop.receiveFound, hcur] at h
  by_cases hrst : a.d.hdr.rst = true
  · simp only [hrst, if_true] at h
    cases hout : (r.node.ctx s).handleRSTPacket a.d a.env.hid a.env.fid with
    | error e => simp [hout, bind, Except.bind] at h
    | ok c =>
      simp only [hout, bind, Except.bind, pure, Except.pure, Except.ok.injEq] at h
      have hctx : r'.node.ctx s = c := by
        rw [← h]
        simp [Node.set]
      rw [hctx]
      obtain ⟨hid, dl, hopt, hcases⟩ := handleRSTPacket_established hs hout
      refine ⟨?_, by rw [← h]⟩
      constructor
      · intro _ hother _
        rcases hcases with ⟨-, rfl⟩ | ⟨rfl, -⟩
        · exact Isolated.refl _ _
        · exact absurd ⟨dl, hopt⟩ (hother hsyn hrst)
      · rintro - (⟨-, dl', hopt'⟩ | ⟨hno, -⟩)
        · rcases hcases with ⟨hne, -⟩ | ⟨-, rfl⟩
          · simp only [hopt, Except.ok.injEq, Prod.mk.injEq] at hopt'
            exact absurd hopt'.1.symm hne
          · exact ⟨rfl, rfl, rfl, rfl, rfl⟩
        · simp [hrst] at hno
      · intro hyes
        simp [hsyn] at hyes
  · simp only [hrst, Bool.false_eq_true, if_false, hfid, ne_eq, not_true_eq_false, pure, Except.pure,
      Except.ok.injEq] at h
    rw [← h]
    refine ⟨?_, api_receiveFor hs ha hsyn⟩
    constructor
    · intro _ _ hother
      obtain ⟨hchg, hrsp⟩ := hother hsyn (by simpa using hrst)
      exact isolated_receiveFor hs ha hsyn hchg hrsp
    · rintro - (⟨hyes, -⟩ | ⟨-, hchg, hto⟩)
      · exact absurd hyes hrst
      · exact reset_receiveFor hs hto ha hchg
    · intro hyes
      simp [hsyn] at hyes

theorem foreign_receiveSYN (hflow : r.node.byFlowID a.d.hdr.fid = some s) (hsyn : a.d.hdr.syn = true)
    (h : r.receiveSYN k sock a = .ok r') : ForeignEffect k a (r.node.ctx s) (r'.node.ctx s) ∧ r'.api = r.api := by
  rw [ReadLoop.receiveSYN] at h
  cases hout : handleSYNPacket k.toRsa (a.env.synEnv (r.node.ctx sock))
      ((r.node.byFlowID a.d.hdr.fid).map r.node.ctx) a.d a.addr with
  | error e => simp [hout, bind, Except.bind] at h
  | ok out =>
    rcases handleSYNPacket_cases hout with ⟨c, hid, dl, hc, hopt, rfl⟩ | ⟨hno, -⟩ | ⟨hno, -⟩
    · simp only [hout, bind, Except.bind, pure, Except.pure] at h
      simp only [hflow, Except.ok.injEq] at h
      have hctx : r'.node.ctx s = c.repeatSYN k.toRsa a.d a.addr hid a.env.key a.env.pad := by
        rw [← h]
        simp [Node.set, ReadEnv.synEnv]
      simp only [hflow, Option.map_some, Option.some.injEq] at hc
      rw [hctx, hc]
      refine ⟨?_, by rw [← h]⟩
      constructor
      · intro hother _ _
        have hne : c.hostID ≠ hid := by
          rintro rfl
          exact hother hsyn ⟨dl, hopt⟩
        simp only [DtpContext.repeatSYN, hne, if_false]
        exact Isolated.sendRSTPacket c _ _
      · intro hno
        simp [hsyn] at hno
      · rintro - ⟨dl', hopt'⟩
        have heq : hid = c.hostID := congrArg Prod.fst (Except.ok.inj (hopt.symm.trans hopt'))
        rw [heq]
        exact repeatSYN_reconnects k.toRsa c a.d a.addr a.env.key a.env.pad
    · simp [hflow] at hno
    · simp [hflow] at hno

theorem foreign_receive (htarget : r.target isListen sock a.d = some s) (hs : (r.node.ctx s).state = .established)
    (hfid : a.d.hdr.fid = (r.node.ctx s).flowID) (ha : (r.node.ctx s).peerAddr ≠ a.addr)
    (hclient : a.d.hdr.syn = true → isListen = true) (h : r.receive k isListen sock a = .ok r') :
    ForeignEffect k a (r.node.ctx s) (r'.node.ctx s) ∧ r'.api = r.api := by
  simp only [ReadLoop.target] at htarget
  simp only [ReadLoop.receive] at h
  by_cases hsyn : a.d.hdr.syn = true
  · simp only [hsyn, hclient hsyn, if_true] at htarget h
    exact foreign_receiveSYN htarget hsyn h
  · simp only [hsyn, Bool.false_eq_true, if_false] at htarget h
    have hfound : ForeignEffect k a ((r.find isListen sock a.d.hdr.fid).node.ctx s) (r'.node.ctx s) ∧
        r'.api = (r.find isListen sock a.d.hdr.fid).api :=
      foreign_receiveFound htarget hs hfid ha (by simpa using hsyn) h
    exact hfound

end Datagram

theorem onReadEvent_single (k : Crypto) (isListen : Bool) (sock : ℕ) (n : Node) (a : Arrival) :
    n.onReadEvent k isListen sock [a] = (ReadLoop.receive k isListen sock ⟨n, none, 0, none⟩ a).map ReadLoop.flush := by
  rw [Node.onReadEvent, List.foldlM_cons]
  cases ReadLoop.receive k isListen sock ⟨n, none, 0, none⟩ a <;> rfl

/-- A datagram from another address, in any place of a batch and alone. Nothing is collected
from it for later, and what it does at once is limited. -/
theorem foreign_datagram (k : Crypto) (isListen : Bool) (sock s : ℕ) (a : Arrival)
    (hclient : a.d.hdr.syn = true → isListen = true) :
    (∀ r r' : ReadLoop, r.target isListen sock a.d = some s →
      (r.node.ctx s).state = .established → a.d.hdr.fid = (r.node.ctx s).flowID →
      (r.node.ctx s).peerAddr ≠ a.addr → r.receive k isListen sock a = .ok r' →
      ForeignEffect k a (r.node.ctx s) (r'.node.ctx s) ∧ r'.api = r.api) ∧
    ∀ n n' : Node, ReadLoop.target isListen sock ⟨n, none, 0, none⟩ a.d = some s →
      (n.ctx s).state = .established → a.d.hdr.fid = (n.ctx s).flowID →
      (n.ctx s).peerAddr ≠ a.addr → n.onReadEvent k isListen sock [a] = .ok n' →
      ForeignEffect k a (n.ctx s) (n'.ctx s) := by
  constructor
  · intro r r' htarget hs hfid ha h
    exact foreign_receive htarget hs hfid ha hclient h
  · intro n n' htarget hs hfid ha h
    rw [onReadEvent_single] at h
    cases hr : ReadLoop.receive k isListen sock ⟨n, none, 0, none⟩ a with
    | error e => simp [hr, Except.map] at h
    | ok r' =>
      obtain ⟨heffect, hapi⟩ := foreign_receive htarget hs hfid ha hclient hr
      simp only [hr, Except.map, Except.ok.injEq, ReadLoop.flush, hapi] at h
      rw [← h]
      exact heffect

/-! ## Two datagrams -/

/-- An established connection with the peer at `⟨1, 80⟩`, on socket `3`. -/
def sampleHost : Node where
  ctx := fun _ => { dtpCreateContext with state := .established, flowID := 9, peerAddr := ⟨1, 80⟩ }
  flowMap := [3]

/-- A datagram of the flow with these flags, from elsewhere. -/
def sampleForeign (flags : Flags) : Arrival where
  d := { hdr := { toFlags := flags, fid := 9, seq := 0, ackSeq := 0, doff := 5, windowSize := 100 }
         len := 24, opts := fun _ => 0, body := fun _ => 0 }
  addr := ⟨2, 80⟩
  env := { fresh := none, hid := [], key := [], pad := 0, rnd := 1, fid := 0 }

/-- A FIN from elsewhere is challenged and nothing else. -/
theorem foreign_datagram_fin : ∃ n', sampleHost.onReadEvent sampleCrypto false 3
    [sampleForeign { fin := true, ack := true }] = .ok n' ∧ Isolated ⟨2, 80⟩ (sampleHost.ctx 3) (n'.ctx 3) := by
  refine ⟨_, rfl, ?_⟩
  refine ((foreign_datagram sampleCrypto false 3 3 (sampleForeign { fin := true, ack := true }) ?_).2
    sampleHost _ rfl rfl rfl (by decide) rfl).other ?_ ?_ ?_
  · simp [sampleForeign]
  · simp [sampleForeign]
  · simp [sampleForeign]
  · simp [sampleForeign]

/-- A challenge from elsewhere closes the connection. -/
theorem foreign_challenge_closes : ∃ (a : Arrival) (n' : Node),
    (sampleHost.ctx 3).state = .established ∧ a.d.hdr.fid = (sampleHost.ctx 3).flowID ∧
      (sampleHost.ctx 3).peerAddr ≠ a.addr ∧ a.d.hdr.rsp = false ∧
      sampleHost.onReadEvent sampleCrypto false 3 [a] = .ok n' ∧ ¬Isolated a.addr (sampleHost.ctx 3) (n'.ctx 3) := by
  refine ⟨sampleForeign { chg := true }, _, rfl, rfl, by decide, rfl, rfl, ?_⟩
  intro h
  have hstate := h.state
  revert hstate
  decide +kernel

end Cedos.Dtp
