import Cedos.Dtp.Endpoint
import Cedos.Dtp.Frames

/-!
# Receiving on a socket

`OnReadEvent` takes the datagrams that have arrived on one socket, finds the context of each,
and hands it to a handler. Data and ACKs are not handled at once but collected for
`ProcessAggregatePackets`, which runs when a FIN comes in, when the context changes, and at
the end.

The context found for one datagram is kept for the next, also when a handler has closed it in
between. A datagram with the SYN flag skips the check of its flow ID and of its address.
-/

namespace Cedos.Dtp

open DtpContext

/-- The contexts of a host: one for each socket, and those in the flow-ID map, the newest
first. -/
structure Node where
  ctx : ℕ → DtpContext
  flowMap : List ℕ

namespace Node

def set (n : Node) (s : ℕ) (c : DtpContext) : Node := { n with ctx := Function.update n.ctx s c }

def modify (n : Node) (s : ℕ) (f : DtpContext → DtpContext) : Node := n.set s (f (n.ctx s))

/-- `DTPGetContextByFlowID`. -/
def byFlowID (n : Node) (fid : UInt32) : Option ℕ :=
  n.flowMap.find? fun s => (n.ctx s).onFlowIDMap && (n.ctx s).flowID == fid

/-- A new context on its own socket, in the flow-ID map and in the queue of the listening
socket. -/
def create (n : Node) (sock s : ℕ) (c : DtpContext) : Node :=
  { (n.modify sock fun l => { l with listenQ := l.listenQ ++ [s], pendingRead := true }).set s c with
    flowMap := s :: n.flowMap.erase s }

end Node

/-- The address differs from the peer's, in a state in which that matters. -/
def DtpContext.isForeign (c : DtpContext) (addr : SockAddr) : Bool :=
  decide (c.state ≠ .synRcvd ∧ c.state ≠ .timeWait ∧ c.peerAddr ≠ addr)

/-- What the host contributes to the handling of one datagram. -/
structure ReadEnv where
  /-- the socket and context of a successful `DTPCreateContext` -/
  fresh : Option (ℕ × DtpContext)
  /-- the content of the host-ID buffer before the options are parsed -/
  hid : List UInt8
  /-- the result of `spc_keygen` -/
  key : List UInt8
  /-- the randomness of the padding -/
  pad : ℕ
  /-- `rand () % MAX_INT + 1` -/
  rnd : UInt32
  /-- the result of `DTPGenerateFlowID` -/
  fid : UInt32

/-- A datagram with its source address, and what the host contributes. -/
structure Arrival where
  d : Datagram
  addr : SockAddr
  env : ReadEnv

/-- The same for `HandleSYNPacket`. -/
def ReadEnv.synEnv (env : ReadEnv) (listener : DtpContext) : DtpContext.SynEnv where
  fresh := (env.fresh.map Prod.snd).getD dtpCreateContext
  hid := env.hid
  key := env.key
  pad := env.pad
  room := decide ((listener.listenQ.length : ℤ) ≠ listener.backlog)

/-- Add a packet to a batch; the highest ACK number is kept with its window. -/
def AdjPktInfo.add (p : AdjPktInfo) (d : Datagram) : AdjPktInfo where
  ack :=
    if d.hdr.ack then
      match p.ack with
      | none => some (d.hdr.ackSeq, d.hdr.windowSize)
      | some (m, w) => if m ≤ d.hdr.ackSeq then some (d.hdr.ackSeq, d.hdr.windowSize) else some (m, w)
    else p.ack
  pkts := p.pkts ++ [d]

/-- The local variables of `OnReadEvent`: `ctx`, `old_fid` and `api`. -/
structure ReadLoop where
  node : Node
  cur : Option ℕ
  oldFid : UInt32
  api : Option (ℕ × AdjPktInfo)

namespace ReadLoop

/-- `ProcessAggregatePackets` on what has been collected. -/
def flush (r : ReadLoop) : Node :=
  match r.api with
  | none => r.node
  | some (s, p) => r.node.modify s fun c => c.processAggregatePackets p

/-- The end of the loop body: a FIN is handled, everything else is collected. -/
def deliver (r : ReadLoop) (s : ℕ) (d : Datagram) : ReadLoop :=
  if d.hdr.fin then
    { r with node := r.flush.modify s fun c => c.handleFINPacket d.hdr, api := some (s, ⟨none, []⟩) }
  else match r.api with
    | none => { r with api := some (s, AdjPktInfo.add ⟨none, []⟩ d) }
    | some (t, p) =>
      if t = s then { r with api := some (s, p.add d) }
      else { r with node := r.flush, api := some (s, AdjPktInfo.add ⟨none, []⟩ d) }

def modify (r : ReadLoop) (s : ℕ) (f : DtpContext → DtpContext) : ReadLoop :=
  { r with node := r.node.modify s f }

/-- `OnReadEvent` for a datagram of the context `s`. -/
def receiveFor (k : Crypto) (r : ReadLoop) (s : ℕ) (a : Arrival) : ReadLoop :=
  if !(r.node.ctx s).receives then r
  else if a.d.hdr.chg then r.modify s fun c => c.handleCHGPacket k.hmac a.d a.addr
  else if a.d.hdr.rsp then r.modify s fun c => c.handleRSPPacket k.hmac a.d a.addr
  else
    -- an AUTH packet is also looked at for its ACK and data
    let r := if a.d.hdr.auth then r.modify s fun c => c.handleAUTHPacket a.addr a.env.rnd else r
    if a.d.hdr.syn then r.deliver s a.d
    else
      let r' := r.modify s fun c => c.checkAddress a.addr a.env.rnd
      if (r.node.ctx s).isForeign a.addr then r' else r'.deliver s a.d

/-- `HandleSYNPacket` on a listening socket or on a socket of the server; `ctx` is `NULL`
after it unless there is a new context. -/
def receiveSYN (k : Crypto) (sock : ℕ) (r : ReadLoop) (a : Arrival) : Except ParseFault ReadLoop := do
  let flow := r.node.byFlowID a.d.hdr.fid
  match ← handleSYNPacket k.toRsa (a.env.synEnv (r.node.ctx sock)) (flow.map r.node.ctx) a.d a.addr with
  | .known c =>
    match flow with
    | some s => return { r with node := r.node.set s c, cur := none }
    | none => return { r with cur := none }
  | .refused =>
    return { r with node := r.node.modify sock fun c => c.sendRSTPacket a.d.hdr.fid a.addr, cur := none }
  | .created c =>
    match a.env.fresh with
    | none => return { r with cur := none }
    | some (s, _) =>
      return receiveFor k { r with node := r.node.create sock s c, cur := some s, oldFid := c.flowID }
        s a

/-- `HandleSYNACKPacket` on a client's socket. -/
def receiveSYNACK (k : Crypto) (sock : ℕ) (r : ReadLoop) (a : Arrival) : Except ParseFault ReadLoop := do
  let r := r.modify sock fun c => c.assert a.d.hdr.ack
  let (c, found) ← (r.node.ctx sock).handleSYNACKPacket k.toRsa a.d a.addr a.env.hid
  let r := { r with node := r.node.set sock c }
  if found then return receiveFor k { r with cur := some sock, oldFid := c.flowID } sock a
  else return { r with cur := none }

/-- The context of a datagram without the SYN flag. -/
def lookup (isListen : Bool) (sock : ℕ) (r : ReadLoop) (fid : UInt32) : Option ℕ :=
  if isListen then if r.cur = none ∨ r.oldFid ≠ fid then r.node.byFlowID fid else r.cur
  else some (r.cur.getD sock)

/-- The context is looked up, and remembered. -/
def find (isListen : Bool) (sock : ℕ) (r : ReadLoop) (fid : UInt32) : ReadLoop :=
  { r with cur := r.lookup isListen sock fid, oldFid := if isListen then fid else r.oldFid }

def refuse (sock : ℕ) (r : ReadLoop) (a : Arrival) : ReadLoop :=
  r.modify sock fun c => c.sendRSTPacket a.d.hdr.fid a.addr

/-- A datagram without the SYN flag, once its context has been looked up. An RST is handled
before the flow ID is compared. -/
def receiveFound (k : Crypto) (sock : ℕ) (r : ReadLoop) (a : Arrival) : Except ParseFault ReadLoop :=
  match r.cur with
  | none => return if a.d.hdr.rst then r else r.refuse sock a
  | some s =>
    if a.d.hdr.rst then do
      let c ← (r.node.ctx s).handleRSTPacket a.d a.env.hid a.env.fid
      return { r with node := r.node.set s c }
    else return if a.d.hdr.fid ≠ (r.node.ctx s).flowID then r.refuse sock a else r.receiveFor k s a

/-- One datagram. -/
def receive (k : Crypto) (isListen : Bool) (sock : ℕ) (r : ReadLoop) (a : Arrival) :
    Except ParseFault ReadLoop :=
  if a.d.hdr.syn then if isListen then receiveSYN k sock r a else receiveSYNACK k sock r a
  else (r.find isListen sock a.d.hdr.fid).receiveFound k sock a

end ReadLoop

/-- `OnReadEvent` on a socket, with the datagrams that `recvfrom` returns. -/
def Node.onReadEvent (k : Crypto) (isListen : Bool) (sock : ℕ) (n : Node) (as : List Arrival) :
    Except ParseFault Node := do
  let r ← as.foldlM (ReadLoop.receive k isListen sock) ⟨n, none, 0, none⟩
  return r.flush

/-- What the rounds of the loop keep holds when the last batch is flushed. -/
theorem Node.onReadEvent_invariant {k : Crypto} {isListen : Bool} {sock : ℕ} {n n' : Node} {as : List Arrival}
    {P : ReadLoop → Prop} (hP : P ⟨n, none, 0, none⟩)
    (hstep : ∀ a ∈ as, ∀ r r', P r → r.receive k isListen sock a = .ok r' → P r')
    (h : n.onReadEvent k isListen sock as = .ok n') : ∃ r, P r ∧ r.flush = n' := by
  rw [Node.onReadEvent] at h
  generalize (⟨n, none, 0, none⟩ : ReadLoop) = r at hP h
  induction as generalizing r with
  | nil => exact ⟨r, hP, Except.ok.inj h⟩
  | cons a as ih =>
    rw [List.foldlM_cons] at h
    cases hone : r.receive k isListen sock a with
    | error e => simp [hone, bind, Except.bind] at h
    | ok r₁ =>
      rw [hone] at h
      exact ih (fun b hb => hstep b (by simp [hb])) r₁ (hstep a (by simp) r r₁ hP hone) h

/-! ## What happens to one context -/

/-- The steps a context takes in `OnReadEvent`. -/
inductive CtxStep (k : Crypto) : DtpContext → DtpContext → Prop
  | event (c : DtpContext) (e : Event) : CtxStep k c (e.apply k c)
  | repeatSYN (c : DtpContext) (d : Datagram) (addr : SockAddr) (hid key : List UInt8) (pad : ℕ) :
      CtxStep k c (c.repeatSYN k.toRsa d addr hid key pad)
  /-- an RST is sent from its socket -/
  | refuse (c : DtpContext) (fid : UInt32) (addr : SockAddr) : CtxStep k c (c.sendRSTPacket fid addr)
  /-- a new connection waits on its socket -/
  | enqueue (c : DtpContext) (s : ℕ) :
      CtxStep k c { c with listenQ := c.listenQ ++ [s], pendingRead := true }
  | check (c : DtpContext) (b : Bool) : CtxStep k c (c.assert b)

/-- Between two states of the host the context `s` takes such steps. -/
def Node.Steps (k : Crypto) (s : ℕ) (n n' : Node) : Prop :=
  Relation.ReflTransGen (CtxStep k) (n.ctx s) (n'.ctx s)

namespace Node.Steps
variable {k : Crypto} {s : ℕ} {n n' n'' : Node}

theorem refl (n : Node) : n.Steps k s n := Relation.ReflTransGen.refl

theorem trans (h : n.Steps k s n') (h' : n'.Steps k s n'') : n.Steps k s n'' :=
  Relation.ReflTransGen.trans h h'

theorem set {t : ℕ} {c : DtpContext} (h : CtxStep k (n.ctx t) c) : n.Steps k s (n.set t c) := by
  by_cases hs : s = t
  · subst hs
    simpa [Node.Steps, Node.set] using Relation.ReflTransGen.single h
  · simpa [Node.Steps, Node.set, Function.update_of_ne hs] using Relation.ReflTransGen.refl

theorem modify (n : Node) (t : ℕ) {f : DtpContext → DtpContext} (h : ∀ c, CtxStep k c (f c)) :
    n.Steps k s (n.modify t f) := set (h _)

theorem create {sock t : ℕ} {c : DtpContext} (ht : s ≠ t) : n.Steps k s (n.create sock t c) := by
  have hlisten : n.Steps k s
      (n.modify sock fun l => { l with listenQ := l.listenQ ++ [t], pendingRead := true }) :=
    modify n sock fun c => .enqueue c t
  simpa [Node.Steps, Node.create, Node.set, Function.update_of_ne ht] using hlisten

theorem flush (r : ReadLoop) : r.node.Steps k s r.flush := by
  simp only [ReadLoop.flush]
  split
  · exact refl _
  · rename_i t p _
    exact modify _ t fun c => .event c (.batch p)

theorem deliver (r : ReadLoop) (t : ℕ) (d : Datagram) : r.node.Steps k s (r.deliver t d).node := by
  simp only [ReadLoop.deliver]
  split_ifs
  · exact (flush r).trans (modify _ t fun c => .event c (.fin d.hdr))
  · split
    · exact refl _
    · split_ifs
      · exact refl _
      · exact flush r

theorem receiveFor (r : ReadLoop) (t : ℕ) (a : Arrival) : r.node.Steps k s (r.receiveFor k t a).node := by
  have hauth : r.node.Steps k s (if a.d.hdr.auth
      then r.modify t fun c => c.handleAUTHPacket a.addr a.env.rnd else r).node := by
    split_ifs
    · exact modify _ t fun c => .event c (.auth a.addr a.env.rnd)
    · exact refl _
  simp only [ReadLoop.receiveFor]
  generalize (if a.d.hdr.auth then r.modify t fun c => c.handleAUTHPacket a.addr a.env.rnd else r) = r'
    at hauth
  have hcheck : r.node.Steps k s (r'.modify t fun c => c.checkAddress a.addr a.env.rnd).node :=
    hauth.trans (modify _ t fun c => .event c (.checkAddr a.addr a.env.rnd))
  split_ifs
  · exact refl _
  · exact modify _ t fun c => .event c (.chg a.d a.addr)
  · exact modify _ t fun c => .event c (.rsp a.d a.addr)
  · exact hauth.trans (deliver _ t a.d)
  · exact hcheck
  · exact hcheck.trans (deliver _ t a.d)

/-- A SYN arrives; the context is not the one that is created for it. -/
theorem receiveSYN {sock : ℕ} {r r' : ReadLoop} {a : Arrival} (hs : a.env.fresh.map Prod.fst ≠ some s)
    (h : r.receiveSYN k sock a = .ok r') : r.node.Steps k s r'.node := by
  rw [ReadLoop.receiveSYN] at h
  cases hout : handleSYNPacket k.toRsa (a.env.synEnv (r.node.ctx sock))
      ((r.node.byFlowID a.d.hdr.fid).map r.node.ctx) a.d a.addr with
  | error e => simp [hout, bind, Except.bind] at h
  | ok out =>
    rcases handleSYNPacket_cases hout with ⟨c, hid, dl, hflow, -, rfl⟩ |
      ⟨-, hid, deadline, scale, port, -, -, hcreated⟩ | ⟨-, rfl⟩
    · obtain ⟨t, ht, rfl⟩ := Option.map_eq_some_iff.mp hflow
      simp only [hout, bind, Except.bind, pure, Except.pure] at h
      simp only [ht, Except.ok.injEq] at h
      rw [← h]
      exact set (.repeatSYN ..)
    · obtain ⟨c, rfl⟩ : ∃ c, out = .created c := ⟨_, hcreated⟩
      simp only [hout, bind, Except.bind, pure, Except.pure] at h
      split at h
      · simp only [Except.ok.injEq] at h
        rw [← h]
        exact refl _
      · rename_i t _ hfresh
        simp only [Except.ok.injEq] at h
        rw [← h]
        have ht : s ≠ t := by
          rintro rfl
          simp [hfresh] at hs
        exact (create ht).trans (receiveFor ⟨r.node.create sock t c, some t, c.flowID, r.api⟩ t a)
    · simp only [hout, bind, Except.bind, pure, Except.pure, Except.ok.injEq] at h
      rw [← h]
      exact modify _ sock fun c => .refuse c _ _

theorem receiveSYNACK {sock : ℕ} {r r' : ReadLoop} {a : Arrival}
    (h : r.receiveSYNACK k sock a = .ok r') : r.node.Steps k s r'.node := by
  rw [ReadLoop.receiveSYNACK] at h
  have hcheck : r.node.Steps k s (r.modify sock fun c => c.assert a.d.hdr.ack).node :=
    modify _ sock fun c => .check c _
  generalize r.modify sock (fun c => c.assert a.d.hdr.ack) = r₁ at h hcheck
  cases hout : (r₁.node.ctx sock).handleSYNACKPacket k.toRsa a.d a.addr a.env.hid with
  | error e => simp [hout, bind, Except.bind] at h
  | ok out =>
    have hstep : CtxStep k (r₁.node.ctx sock) out.1 := by
      have happly := CtxStep.event (k := k) (r₁.node.ctx sock) (.synAck a.d a.addr a.env.hid)
      simpa only [Event.apply, hout] using happly
    have hset : r.node.Steps k s (r₁.node.set sock out.1) := hcheck.trans (set hstep)
    simp only [hout, bind, Except.bind, pure, Except.pure] at h
    split_ifs at h
    · simp only [Except.ok.injEq] at h
      rw [← h]
      exact hset.trans
        (receiveFor ⟨r₁.node.set sock out.1, some sock, out.1.flowID, r₁.api⟩ sock a)
    · simp only [Except.ok.injEq] at h
      rw [← h]
      exact hset

theorem receiveFound {sock : ℕ} {r r' : ReadLoop} {a : Arrival}
    (h : r.receiveFound k sock a = .ok r') : r.node.Steps k s r'.node := by
  have hrefuse : r.node.Steps k s (r.refuse sock a).node := modify _ sock fun c => .refuse c _ _
  simp only [ReadLoop.receiveFound] at h
  split at h
  · simp only [pure, Except.pure, Except.ok.injEq] at h
    rw [← h]
    split_ifs
    · exact refl _
    · exact hrefuse
  · rename_i t _
    split_ifs at h
    · cases hout : (r.node.ctx t).handleRSTPacket a.d a.env.hid a.env.fid with
      | error e => simp [hout, bind, Except.bind] at h
      | ok c =>
        have hstep : CtxStep k (r.node.ctx t) c := by
          have happly := CtxStep.event (k := k) (r.node.ctx t) (.rst a.d a.env.hid a.env.fid)
          simpa only [Event.apply, hout] using happly
        simp only [hout, bind, Except.bind, pure, Except.pure, Except.ok.injEq] at h
        rw [← h]
        exact set hstep
    · simp only [pure, Except.pure, Except.ok.injEq] at h
      rw [← h]
      exact hrefuse
    · simp only [pure, Except.pure, Except.ok.injEq] at h
      rw [← h]
      exact receiveFor r t a

theorem receive {isListen : Bool} {sock : ℕ} {r r' : ReadLoop} {a : Arrival} (hs : a.env.fresh.map Prod.fst ≠ some s)
    (h : r.receive k isListen sock a = .ok r') : r.node.Steps k s r'.node := by
  rw [ReadLoop.receive] at h
  split_ifs at h
  · exact receiveSYN hs h
  · exact receiveSYNACK h
  · have hfound : (r.find isListen sock a.d.hdr.fid).node.Steps k s r'.node := receiveFound h
    exact hfound

theorem onReadEvent {isListen : Bool} {sock : ℕ} {as : List Arrival}
    (hs : ∀ a ∈ as, a.env.fresh.map Prod.fst ≠ some s)
    (h : n.onReadEvent k isListen sock as = .ok n') : n.Steps k s n' := by
  obtain ⟨r, hr, rfl⟩ := Node.onReadEvent_invariant (P := fun r => n.Steps k s r.node) (refl n)
    (fun a ha r r' hr hone => hr.trans (receive (hs a ha) hone)) h
  exact hr.trans (flush r)

end Node.Steps

/-! ## Contexts of other flows -/

/-- The loop has nothing to do with the context `t`, which is still `c`. -/
structure ReadLoop.Spares (t : ℕ) (c : DtpContext) (r : ReadLoop) : Prop where
  ctx : r.node.ctx t = c
  cur : r.cur ≠ some t
  api : ∀ p, r.api ≠ some (t, p)

namespace ReadLoop.Spares
variable {k : Crypto} {t s sock : ℕ} {c x : DtpContext} {r r' : ReadLoop} {a : Arrival} (h : r.Spares t c)
include h

theorem set (hs : t ≠ s) : Spares t c { r with node := r.node.set s x } :=
  { h with ctx := (Function.update_of_ne hs _ _).trans h.ctx }

theorem flush : r.flush.ctx t = c := by
  simp only [ReadLoop.flush]
  split
  · exact h.ctx
  · rename_i s p hapi
    have hs : t ≠ s := by
      rintro rfl
      exact h.api p hapi
    exact (Function.update_of_ne hs _ _).trans h.ctx

theorem deliver (hs : t ≠ s) (d : Datagram) : (r.deliver s d).Spares t c := by
  have hapi (p : AdjPktInfo) (q : AdjPktInfo) : some (s, p) ≠ some (t, q) := by
    simp [hs.symm]
  simp only [ReadLoop.deliver]
  split_ifs
  · exact ⟨(Function.update_of_ne hs _ _).trans h.flush, h.cur, hapi _⟩
  · split
    · exact ⟨h.ctx, h.cur, hapi _⟩
    · split_ifs
      · exact ⟨h.ctx, h.cur, hapi _⟩
      · exact ⟨h.flush, h.cur, hapi _⟩

theorem receiveFor (hs : t ≠ s) (a : Arrival) : (r.receiveFor k s a).Spares t c := by
  have hmodify {r : ReadLoop} (h : r.Spares t c) (f : DtpContext → DtpContext) : (r.modify s f).Spares t c := h.set hs
  have hauth : Spares t c (if a.d.hdr.auth then r.modify s fun c => c.handleAUTHPacket a.addr a.env.rnd else r) := by
    split_ifs
    · exact hmodify h _
    · exact h
  simp only [ReadLoop.receiveFor]
  generalize (if a.d.hdr.auth then r.modify s fun c => c.handleAUTHPacket a.addr a.env.rnd else r) = r₁ at hauth
  split_ifs
  · exact h
  · exact hmodify h _
  · exact hmodify h _
  · exact hauth.deliver hs a.d
  · exact hmodify hauth _
  · exact (hmodify hauth _).deliver hs a.d

/-- The flow-ID map does not lead to the context. -/
theorem byFlowID (hf : a.d.hdr.fid ≠ c.flowID) (hs : r.node.byFlowID a.d.hdr.fid = some s) : t ≠ s := by
  rintro rfl
  have hfid := List.find?_some hs
  simp only [h.ctx, Bool.and_eq_true, beq_iff_eq] at hfid
  exact hf hfid.2.symm

theorem receiveSYN (hsock : t ≠ sock) (hfresh : a.env.fresh.map Prod.fst ≠ some t) (hf : a.d.hdr.fid ≠ c.flowID)
    (hr : r.receiveSYN k sock a = .ok r') : r'.Spares t c := by
  have hnone : Spares t c { r with cur := none } := { h with cur := by rintro ⟨⟩ }
  simp only [ReadLoop.receiveSYN, bind, Except.bind, pure, Except.pure] at hr
  split at hr
  · cases hr
  · split at hr
    · split at hr
      · rename_i hs
        cases hr
        exact hnone.set (h.byFlowID hf hs)
      · cases hr
        exact hnone
    · cases hr
      exact hnone.set hsock
    · rename_i x _
      split at hr
      · cases hr
        exact hnone
      · rename_i s _ hs
        cases hr
        have hne : t ≠ s := by
          rintro rfl
          simp [hs] at hfresh
        have hctx : (r.node.create sock s x).ctx t = c :=
          (Function.update_of_ne hne _ _).trans ((Function.update_of_ne hsock _ _).trans h.ctx)
        have hnew : Spares t c ⟨r.node.create sock s x, some s, x.flowID, r.api⟩ :=
          ⟨hctx, by simpa using hne.symm, h.api⟩
        exact hnew.receiveFor hne a

theorem receiveSYNACK (hsock : t ≠ sock) (hr : r.receiveSYNACK k sock a = .ok r') : r'.Spares t c := by
  have hcheck : (r.modify sock fun c => c.assert a.d.hdr.ack).Spares t c := h.set hsock
  simp only [ReadLoop.receiveSYNACK, bind, Except.bind, pure, Except.pure] at hr
  generalize r.modify sock (fun c => c.assert a.d.hdr.ack) = r₁ at hr hcheck
  split at hr
  · cases hr
  · rename_i out _
    have hset : Spares t c { r₁ with node := r₁.node.set sock out.1 } := hcheck.set hsock
    split_ifs at hr
    · cases hr
      have hnew : Spares t c ⟨r₁.node.set sock out.1, some sock, out.1.flowID, r₁.api⟩ :=
        { hset with cur := by simpa using hsock.symm }
      exact hnew.receiveFor hsock a
    · cases hr
      exact { hset with cur := by rintro ⟨⟩ }

theorem receiveFound (hsock : t ≠ sock) (hr : r.receiveFound k sock a = .ok r') : r'.Spares t c := by
  have hrefuse : (r.refuse sock a).Spares t c := h.set hsock
  simp only [ReadLoop.receiveFound, bind, Except.bind, pure, Except.pure] at hr
  split at hr
  · cases hr
    split_ifs
    · exact h
    · exact hrefuse
  · rename_i s hcur
    have hs : t ≠ s := by
      rintro rfl
      exact h.cur hcur
    split_ifs at hr
    · split at hr
      · cases hr
      · cases hr
        exact h.set hs
    · cases hr
      exact hrefuse
    · cases hr
      exact h.receiveFor hs a

theorem receive {isListen : Bool} (hsock : t ≠ sock) (hfresh : a.env.fresh.map Prod.fst ≠ some t)
    (hf : a.d.hdr.fid ≠ c.flowID) (hr : r.receive k isListen sock a = .ok r') : r'.Spares t c := by
  rw [ReadLoop.receive] at hr
  split_ifs at hr
  · exact h.receiveSYN hsock hfresh hf hr
  · exact h.receiveSYNACK hsock hr
  · have hcur : (r.find isListen sock a.d.hdr.fid).cur ≠ some t := by
      simp only [ReadLoop.find, ReadLoop.lookup]
      split_ifs
      · exact fun hs => h.byFlowID hf hs rfl
      · exact h.cur
      · cases hcur : r.cur with
        | none => simpa using hsock.symm
        | some s => simpa [hcur] using h.cur
    have hfind : (r.find isListen sock a.d.hdr.fid).Spares t c := { h with cur := hcur }
    exact hfind.receiveFound hsock hr

end ReadLoop.Spares

/-- **Flows do not disturb each other.**  Whatever datagrams arrive on a socket, a context that is not of this socket,
is not created for one of them and has a flow ID that none of them carries is left exactly as it was. -/
theorem onReadEvent_spares {k : Crypto} {isListen : Bool} {sock t : ℕ} {n n' : Node} {as : List Arrival}
    (hsock : t ≠ sock) (has : ∀ a ∈ as, a.env.fresh.map Prod.fst ≠ some t ∧ a.d.hdr.fid ≠ (n.ctx t).flowID)
    (h : n.onReadEvent k isListen sock as = .ok n') : n'.ctx t = n.ctx t := by
  obtain ⟨r, hr, rfl⟩ := Node.onReadEvent_invariant (P := ReadLoop.Spares t (n.ctx t))
    ⟨rfl, by rintro ⟨⟩, by rintro p ⟨⟩⟩
    (fun a ha r r' hr hone => hr.receive hsock (has a ha).1 (has a ha).2 hone) h
  exact hr.flush

/-- Two flows behind the listening socket `0`. -/
def flowPair : Node where
  ctx s := { DtpContext.dtpCreateContext with state := .established, flowID := s.toUInt32, onFlowIDMap := true }
  flowMap := [1, 2]

/-- A datagram of the first. -/
def firstFlow : Arrival where
  d := ⟨{ fid := 1, seq := 0, ackSeq := 0, doff := 5, windowSize := 9 }, 21, fun _ => 0, fun _ => 7⟩
  addr := ⟨0, 0⟩
  env := ⟨none, [], [], 0, 0, 0⟩

theorem onReadEvent_spares_second : ∃ n, flowPair.onReadEvent sampleCrypto true 0 [firstFlow] = .ok n ∧
    (n.ctx 1).nextByteExpected = 1 ∧ n.ctx 2 = flowPair.ctx 2 := by
  have hrun : flowPair.onReadEvent sampleCrypto true 0 [firstFlow] = .ok _ := rfl
  exact ⟨_, hrun, rfl, onReadEvent_spares (by decide) (by simp [firstFlow, flowPair]) hrun⟩

end Cedos.Dtp
