import Cedos.Lib.ItemPool
import Cedos.Dtp.PacketRelease

/-!
# Where the packets are

All contexts of a host take their packets from one pool. A packet has two links: `tp_freeLink` for the free list,
and `tp_link` for the queue of a context. Here the operations of `PacketOps.lean` are carried out on these lists.

A packet is lost in two ways. `DTPHandleKey` takes a packet for its SYN+ACK and neither queues it nor gives it
back, so that every SYN that is answered costs one. `DTPCloseContext` does not look at the queue of the context it
releases. Apart from that each packet is in one place.
-/

namespace Cedos.Dtp

open DtpContext

/-! ## Pool and queues -/

/-- `BATCH_SIZE` of `context.c`. -/
def packetBatch : ℕ := 4096

/-- The free packets, the queues by the sockets of their contexts, and the contexts. -/
structure PacketHost where
  /-- `g_freePacketList`, `g_freePktCount` -/
  pool : ItemPool
  /-- `tc_packetQHead` -/
  queue : TailQueues ℕ ℕ
  ctx : ℕ → DtpContext

namespace PacketHost

def set (s : PacketHost) (x : ℕ) (c : DtpContext) : PacketHost := { s with ctx := Function.update s.ctx x c }

/-- The queue of a context, from its head on. No queue is longer than there are packets. -/
def packets (s : PacketHost) (x : ℕ) : List ℕ := s.queue.visits s.pool.brk (s.queue.first x)

/-- An operation on the pool and the queue of the context `x`. -/
def exec (x : ℕ) (s : PacketHost) : PacketOp → PacketHost
  | .insert =>
    match s.pool.get packetBatch with
    | (p, none) => { s with pool := p }
    | (p, some a) => { s with pool := p, queue := s.queue.insertTail x a }
  | .free i =>
    match (s.packets x)[i]? with
    | none => s
    | some a => { s with queue := s.queue.remove x a, pool := s.pool.put a }
  | .borrow =>
    match s.pool.get packetBatch with
    | (p, none) => { s with pool := p }
    | (p, some a) => { s with pool := p.put a }
  | .lose => { s with pool := (s.pool.get packetBatch).1 }

/-- A function of the context `x` with these operations leaves the context as `c`. -/
def act (s : PacketHost) (x : ℕ) (ops : List PacketOp) (c : DtpContext) : PacketHost :=
  (ops.foldl (exec x) s).set x c

@[simp] theorem ctx_exec (s : PacketHost) (x : ℕ) (op : PacketOp) : (s.exec x op).ctx = s.ctx := by
  cases op <;> simp only [exec] <;> split <;> rfl

@[simp] theorem ctx_act (s : PacketHost) (x : ℕ) (ops : List PacketOp) (c : DtpContext) :
    (s.act x ops c).ctx = Function.update s.ctx x c := by
  have hops : (ops.foldl (exec x) s).ctx = s.ctx := by
    induction ops generalizing s with
    | nil => rfl
    | cons op ops ih => exact (ih (s.exec x op)).trans (ctx_exec s x op)
  simp only [act, set, hops]

/-- `DTPCreateContext` makes the queue of its context an empty one. -/
def create (s : PacketHost) (x : ℕ) (c : DtpContext) : PacketHost := { s.set x c with queue := s.queue.reset x }

@[simp] theorem ctx_create (s : PacketHost) (x : ℕ) (c : DtpContext) :
    (s.create x c).ctx = Function.update s.ctx x c := rfl

/-- The lists in memory. -/
structure Tracks (s : PacketHost) (F : List ℕ) (L : ℕ → List ℕ) : Prop where
  free : s.pool.Free F
  queue : s.queue.Holds L
  apart : ∀ a ∈ F, ∀ x, a ∉ L x
  below : ∀ x, ∀ a ∈ L x, a < s.pool.brk

/-- No packet is missing. -/
def Whole (s : PacketHost) (F : List ℕ) (L : ℕ → List ℕ) : Prop := ∀ a < s.pool.brk, a ∈ F ∨ ∃ x, a ∈ L x

variable {s : PacketHost} {x : ℕ} {F : List ℕ} {L : ℕ → List ℕ}

/-- The walk from the head finds the queue. -/
theorem Tracks.packets_eq (h : s.Tracks F L) (x : ℕ) : s.packets x = L x :=
  (h.queue.chain x).visits_eq (ItemPool.length_le_brk (h.queue.nodup x) (h.below x))

theorem Tracks.get (h : s.Tracks F L) : ∃ p a F', s.pool.get packetBatch = (p, some a) ∧ p.Free F' ∧
    s.pool.brk ≤ p.brk ∧ a < p.brk ∧ a ∉ F' ∧ (∀ b ∈ a :: F', ∀ x, b ∉ L x) ∧
    ∀ b < p.brk, b ∈ a :: F' ∨ (b < s.pool.brk ∧ b ∉ F) := by
  have hpos : packetBatch ≠ 0 := by decide
  obtain ⟨p, a, F', n, hget, hfree, hbrk, hperm⟩ := h.free.get hpos
  obtain ⟨hnd, hmem⟩ := h.free.get_perm hperm
  have hout : ∀ b ∈ a :: F', ∀ x, b ∉ L x := by
    intro b hb x hx
    rcases (hmem b).mp hb with hnew | hF
    · have := h.below x b hx
      omega
    · exact h.apart b hF x hx
  refine ⟨p, a, F', hget, hfree, by omega, ?_, (List.nodup_cons.mp hnd).1, hout, fun b hb => ?_⟩
  · rcases (hmem a).mp List.mem_cons_self with hnew | hF
    · omega
    · have := h.free.below a hF
      omega
  · by_cases hin : b ∈ a :: F'
    · exact .inl hin
    · rw [hmem, not_or] at hin
      exact .inr ⟨by omega, hin.2⟩

/-- The queue of the context `x` is now as long as `n` says, and the other queues are as they were. -/
structure Executes (s : PacketHost) (x : ℕ) (L : ℕ → List ℕ) (n : ℕ) (s' : PacketHost) (F' as' : List ℕ) : Prop where
  tracks : s'.Tracks F' (Function.update L x as')
  length : as'.length = n
  ctx : s'.ctx = s.ctx

theorem mem_update_of_mem {as : List ℕ} {b y : ℕ} (h : b ∈ L y) (has : b ∈ L x → b ∈ as) :
    b ∈ Function.update L x as y := by
  by_cases hy : y = x
  · rw [hy, Function.update_self]
    exact has (hy ▸ h)
  · rwa [Function.update_of_ne hy]

theorem mem_of_mem_update {as : List ℕ} {b y : ℕ} (h : b ∈ Function.update L x as y) :
    (y = x ∧ b ∈ as) ∨ (y ≠ x ∧ b ∈ L y) := by
  by_cases hy : y = x
  · rw [hy, Function.update_self] at h
    exact .inl ⟨hy, h⟩
  · rw [Function.update_of_ne hy] at h
    exact .inr ⟨hy, h⟩

variable (h : s.Tracks F L)
include h

theorem Tracks.insert (x : ℕ) :
    ∃ F' as', Executes s x L ((L x).length + 1) (s.exec x .insert) F' as' ∧
      (s.Whole F L → (s.exec x .insert).Whole F' (Function.update L x as')) := by
  obtain ⟨p, a, F', hget, hfree, hle, hlt, haF, hout, hcover⟩ := h.get
  have hold : ∀ b y, b ∈ Function.update L x (L x ++ [a]) y → b = a ∨ b ∈ L y := by
    intro b y hb
    rcases mem_of_mem_update hb with ⟨rfl, hb⟩ | ⟨-, hb⟩
    · rw [List.mem_append, List.mem_singleton] at hb
      exact hb.symm
    · exact .inr hb
  simp only [PacketHost.exec, hget]
  refine ⟨F', L x ++ [a], ⟨⟨hfree, h.queue.insertTail (hout a List.mem_cons_self), ?_, ?_⟩, by simp, rfl⟩, ?_⟩
  · intro b hb y hy
    rcases hold b y hy with rfl | hy
    · exact haF hb
    · exact hout b (List.mem_cons_of_mem a hb) y hy
  · intro y b hb
    rcases hold b y hb with rfl | hb
    · exact hlt
    · exact (h.below y b hb).trans_le hle
  · intro hwhole b hb
    rcases hcover b hb with hin | ⟨hlow, hnot⟩
    · rcases List.mem_cons.mp hin with rfl | hF
      · exact .inr ⟨x, by simp⟩
      · exact .inl hF
    · obtain ⟨y, hy⟩ := (hwhole b hlow).resolve_left hnot
      exact .inr ⟨y, mem_update_of_mem hy fun hx => List.mem_append_left _ hx⟩

theorem Tracks.freeAt (x i : ℕ) :
    ∃ F' as', Executes s x L (if i < (L x).length then (L x).length - 1 else (L x).length) (s.exec x (.free i)) F' as' ∧
      (s.Whole F L → (s.exec x (.free i)).Whole F' (Function.update L x as')) := by
  simp only [PacketHost.exec, h.packets_eq x]
  by_cases hi : i < (L x).length
  · have hget : (L x)[i]? = some (L x)[i] := List.getElem?_eq_getElem hi
    have hmem : (L x)[i] ∈ L x := List.getElem_mem hi
    simp only [hget, hi, if_true]
    generalize (L x)[i] = a at hmem
    have haF : a ∉ F := fun haF => h.apart a haF x hmem
    refine ⟨a :: F, (L x).erase a, ⟨⟨h.free.put haF (h.below x a hmem), h.queue.remove hmem, ?_, ?_⟩,
      List.length_erase_of_mem hmem, rfl⟩, ?_⟩
    · intro b hb y hy
      rcases List.mem_cons.mp hb with rfl | hbF <;> rcases mem_of_mem_update hy with ⟨rfl, hin⟩ | ⟨hyx, hin⟩
      · exact (h.queue.nodup y).not_mem_erase hin
      · exact hyx (h.queue.apart y x b hin hmem)
      · exact h.apart b hbF y (List.mem_of_mem_erase hin)
      · exact h.apart b hbF y hin
    · intro y b hb
      rcases mem_of_mem_update hb with ⟨rfl, hb⟩ | ⟨-, hb⟩
      · exact h.below y b (List.mem_of_mem_erase hb)
      · exact h.below y b hb
    · intro hwhole b hb
      rcases hwhole b hb with hbF | ⟨y, hy⟩
      · exact .inl (List.mem_cons_of_mem a hbF)
      · by_cases hba : b = a
        · exact .inl (hba ▸ List.mem_cons_self)
        · exact .inr ⟨y, mem_update_of_mem hy fun hx => (List.mem_erase_of_ne hba).mpr hx⟩
  · have hget : (L x)[i]? = none := List.getElem?_eq_none (by omega)
    simp only [hget, hi, if_false]
    refine ⟨F, L x, ⟨?_, rfl, rfl⟩, ?_⟩
    · rw [Function.update_eq_self]
      exact h
    · rw [Function.update_eq_self]
      exact id

theorem Tracks.borrow (x : ℕ) :
    ∃ F' as', Executes s x L (L x).length (s.exec x .borrow) F' as' ∧
      (s.Whole F L → (s.exec x .borrow).Whole F' (Function.update L x as')) := by
  obtain ⟨p, a, F', hget, hfree, hle, hlt, haF, hout, hcover⟩ := h.get
  simp only [PacketHost.exec, hget]
  refine ⟨a :: F', L x, ⟨?_, rfl, rfl⟩, ?_⟩
  · rw [Function.update_eq_self]
    exact ⟨hfree.put haF hlt, h.queue, hout, fun y b hb => (h.below y b hb).trans_le hle⟩
  · rw [Function.update_eq_self]
    intro hwhole b hb
    rcases hcover b hb with hin | ⟨hlow, hnot⟩
    · exact .inl hin
    · exact .inr ((hwhole b hlow).resolve_left hnot)

theorem Tracks.lose (x : ℕ) :
    ∃ F' as', Executes s x L (L x).length (s.exec x .lose) F' as' ∧
      ¬(s.exec x .lose).Whole F' (Function.update L x as') := by
  obtain ⟨p, a, F', hget, hfree, hle, hlt, haF, hout, hcover⟩ := h.get
  simp only [PacketHost.exec, hget]
  refine ⟨F', L x, ⟨?_, rfl, rfl⟩, ?_⟩
  · rw [Function.update_eq_self]
    exact ⟨hfree, h.queue, fun b hb => hout b (List.mem_cons_of_mem a hb), fun y b hb => (h.below y b hb).trans_le hle⟩
  · rw [Function.update_eq_self]
    intro hwhole
    rcases hwhole a hlt with hF | ⟨y, hy⟩
    · exact haF hF
    · exact hout a List.mem_cons_self y hy

theorem Tracks.exec (x : ℕ) (op : PacketOp) :
    ∃ F' as', Executes s x L (op.size (L x).length) (s.exec x op) F' as' ∧
      (op ≠ .lose → s.Whole F L → (s.exec x op).Whole F' (Function.update L x as')) := by
  cases op with
  | insert =>
    obtain ⟨F', as', hex, hwhole⟩ := h.insert x
    exact ⟨F', as', hex, fun _ => hwhole⟩
  | free i =>
    obtain ⟨F', as', hex, hwhole⟩ := h.freeAt x i
    exact ⟨F', as', hex, fun _ => hwhole⟩
  | borrow =>
    obtain ⟨F', as', hex, hwhole⟩ := h.borrow x
    exact ⟨F', as', hex, fun _ => hwhole⟩
  | lose =>
    obtain ⟨F', as', hex, -⟩ := h.lose x
    exact ⟨F', as', hex, fun hne => absurd rfl hne⟩

theorem Tracks.run (x : ℕ) (ops : List PacketOp) :
    ∃ F' as', Executes s x L (ops.foldl PacketOp.size (L x).length) (ops.foldl (PacketHost.exec x) s) F' as' ∧
      (.lose ∉ ops → s.Whole F L → (ops.foldl (PacketHost.exec x) s).Whole F' (Function.update L x as')) := by
  induction ops generalizing s F L with
  | nil =>
    refine ⟨F, L x, ⟨?_, rfl, rfl⟩, fun _ => ?_⟩
    · rw [Function.update_eq_self]
      exact h
    · rw [Function.update_eq_self]
      exact id
  | cons op ops ih =>
    obtain ⟨F₁, as₁, hone, hwhole₁⟩ := h.exec x op
    obtain ⟨F', as', hrest, hwhole⟩ := ih hone.tracks
    rw [Function.update_self, hone.length] at hrest
    have htracks := hrest.tracks
    rw [Function.update_idem] at htracks hwhole
    refine ⟨F', as', ⟨htracks, hrest.length, hrest.ctx.trans hone.ctx⟩, fun hops hs => ?_⟩
    rw [List.mem_cons, not_or] at hops
    exact hwhole hops.2 (hwhole₁ (Ne.symm hops.1) hs)

end PacketHost

/-! ## Runs -/

/-- What happens on a host. -/
inductive PacketEvent
  /-- `dtp_socket` -/
  | socket (x : ℕ) (scale : UInt8) (id : List UInt8) (port : UInt16)
  /-- a SYN of a new flow; its context would be `x` -/
  | syn (x : ℕ) (env : SynEnv) (d : Datagram) (addr : SockAddr)
  | own (x : ℕ) (e : LifeEvent)

/-- Any number of contexts are opened, used and closed, and their packets come from one pool.
`DTPInitializeIdlePacket` has been called. -/
def sharing (k : Crypto) : Machine PacketHost PacketEvent where
  init s := ∃ ctx : ℕ → DtpContext, (∀ x, (ctx x).isActive = false ∧ (ctx x).packetQ = []) ∧
    s = PacketHost.exec 0 { pool := .empty, queue := .init, ctx := ctx } .borrow
  allowed s e :=
    match e with
    | .socket x _ _ _ => (s.ctx x).isActive = false
    | .syn x env _ _ => (s.ctx x).isActive = false ∧ ∃ scale id port, env.fresh = hostContext scale id port
    | .own x e => e.offered (s.ctx x) ∧ ((s.ctx x).isActive = true ∨ e.onReleased = true)
  apply s e :=
    match e with
    | .socket x scale id port => s.create x (hostContext scale id port)
    | .syn x env d addr =>
      match handleSYNPacket k.toRsa env none d addr with
      | .ok (.created c) => (s.create x env.fresh).act x (handleKeyOps k.toRsa d env.key env.pad) c
      | _ => s
    | .own x e => s.act x (e.packetOps k (s.ctx x)) (e.apply k (s.ctx x))

/-- The steps that lose no packet. -/
def SparesPackets (k : Crypto) (s : PacketHost) : PacketEvent → Prop
  | .socket _ _ _ _ => True
  -- no SYN+ACK is sent
  | .syn _ env d _ => env.room = true → k.encrypt (modulus d) (exponent d) env.key env.pad = none
  | .own x e => e.SparesPackets k (s.ctx x)

/-- Each packet that has been allocated is in the free list or in the queue of one active context. -/
def PacketsConserved (s : PacketHost) : Prop :=
  ∃ (F : List ℕ) (L : ℕ → List ℕ), s.pool.free.Holds (fun _ => F) ∧ s.queue.Holds L ∧
    ∀ a < s.pool.brk, (a ∈ F ∧ ∀ x, a ∉ L x) ∨ (a ∉ F ∧ ∃ x, (s.ctx x).isActive = true ∧ a ∈ L x ∧ ∀ y, a ∈ L y → y = x)

namespace PacketHost
variable {k : Crypto} {s : PacketHost} {x : ℕ} {F : List ℕ} {L : ℕ → List ℕ} {c : DtpContext}

/-- The queues are as long as those of the contexts. -/
structure Follows (s : PacketHost) (F : List ℕ) (L : ℕ → List ℕ) : Prop where
  tracks : s.Tracks F L
  length : ∀ x, (L x).length = (s.ctx x).packetQ.length

theorem Follows.act (h : s.Follows F L) {ops : List PacketOp} (hspan : QueueSpan ops (s.ctx x) c) :
    ∃ F' L', (s.act x ops c).Follows F' L' ∧ (.lose ∉ ops → s.Whole F L → (s.act x ops c).Whole F' L') := by
  obtain ⟨F', as', hex, hwhole⟩ := h.tracks.run x ops
  refine ⟨F', Function.update L x as', ⟨⟨hex.tracks.free, hex.tracks.queue, hex.tracks.apart, hex.tracks.below⟩,
    fun y => ?_⟩, hwhole⟩
  simp only [PacketHost.act, PacketHost.set, hex.ctx]
  by_cases hy : y = x
  · rw [hy, Function.update_self, Function.update_self, hex.length, h.length]
    exact hspan
  · rw [Function.update_of_ne hy, Function.update_of_ne hy]
    exact h.length y

theorem Follows.create (h : s.Follows F L) (x : ℕ) (hc : c.packetQ = []) :
    (s.create x c).Follows F (Function.update L x []) := by
  have hsub : ∀ {a y}, a ∈ Function.update L x [] y → a ∈ L y := by
    intro a y ha
    rcases mem_of_mem_update ha with ⟨-, ha⟩ | ⟨-, ha⟩
    · exact absurd ha List.not_mem_nil
    · exact ha
  refine ⟨⟨h.tracks.free, h.tracks.queue.reset x, fun a ha y hy => h.tracks.apart a ha y (hsub hy),
    fun y a ha => h.tracks.below y a (hsub ha)⟩, fun y => ?_⟩
  rw [ctx_create]
  by_cases hy : y = x
  · rw [hy, Function.update_self, Function.update_self, hc]
    rfl
  · rw [Function.update_of_ne hy, Function.update_of_ne hy]
    exact h.length y

/-- What is conserved: all packets are there, and only active contexts have some. -/
theorem Follows.conserved_iff (h : s.Follows F L) :
    PacketsConserved s ↔ s.Whole F L ∧ ∀ x, (s.ctx x).isActive = false → (s.ctx x).packetQ = [] := by
  constructor
  · rintro ⟨F', L', hF', hL', hall⟩
    have hF : F' = F := congrFun (hF'.unique h.tracks.free.holds) ()
    have hL : L' = L := hL'.unique h.tracks.queue
    rw [hF, hL] at hall
    refine ⟨fun a ha => (hall a ha).imp And.left fun hx => ?_, fun x hoff => ?_⟩
    · obtain ⟨-, x, -, hx, -⟩ := hx
      exact ⟨x, hx⟩
    · rw [← List.length_eq_zero_iff, ← h.length x, List.length_eq_zero_iff, List.eq_nil_iff_forall_not_mem]
      intro a ha
      rcases hall a (h.tracks.below x a ha) with ⟨-, hnot⟩ | ⟨-, y, hon, -, honly⟩
      · exact hnot x ha
      · rw [honly x ha, hon] at hoff
        cases hoff
  · rintro ⟨hwhole, hoff⟩
    refine ⟨F, L, h.tracks.free.holds, h.tracks.queue, fun a ha => ?_⟩
    rcases hwhole a ha with hF | ⟨x, hx⟩
    · exact .inl ⟨hF, h.tracks.apart a hF⟩
    · refine .inr ⟨fun hF => h.tracks.apart a hF x hx, x, ?_, hx, fun y hy => h.tracks.queue.apart y x a hy hx⟩
      by_contra hact
      have hlen := h.length x
      rw [hoff x (Bool.eq_false_of_not_eq_true hact), List.length_nil, List.length_eq_zero_iff] at hlen
      rw [hlen] at hx
      exact List.not_mem_nil hx

/-! ### Runs that keep the packets -/

/-- All packets are there, and only active contexts have some. -/
structure Keeps (s : PacketHost) (F : List ℕ) (L : ℕ → List ℕ) : Prop where
  follows : s.Follows F L
  whole : s.Whole F L
  released : ∀ x, (s.ctx x).isActive = false → (s.ctx x).packetQ = []

theorem Keeps.act (h : s.Keeps F L) {ops : List PacketOp} (hspan : QueueSpan ops (s.ctx x) c) (hops : .lose ∉ ops)
    (hoff : c.isActive = false → c.packetQ = []) : ∃ F' L', (s.act x ops c).Keeps F' L' := by
  obtain ⟨F', L', hfollows, hwhole⟩ := h.follows.act hspan
  refine ⟨F', L', hfollows, hwhole hops h.whole, fun y => ?_⟩
  rw [ctx_act]
  by_cases hy : y = x
  · rw [hy, Function.update_self]
    exact hoff
  · rw [Function.update_of_ne hy]
    exact h.released y

theorem Keeps.create (h : s.Keeps F L) (hx : (s.ctx x).isActive = false) (hc : c.packetQ = []) :
    (s.create x c).Keeps F L := by
  have hnil : L x = [] := by
    rw [← List.length_eq_zero_iff, h.follows.length x, h.released x hx, List.length_nil]
  have hself : Function.update L x [] = L := by rw [← hnil, Function.update_eq_self]
  have hfollows := h.follows.create x hc
  rw [hself] at hfollows
  refine ⟨hfollows, h.whole, fun y => ?_⟩
  rw [ctx_create]
  by_cases hy : y = x
  · rw [hy, Function.update_self]
    exact fun _ => hc
  · rw [Function.update_of_ne hy]
    exact h.released y

theorem handleKeyOps_none {rsa : Rsa} {d : Datagram} {key : List UInt8} {pad : ℕ}
    (h : rsa.encrypt (modulus d) (exponent d) key pad = none) : handleKeyOps rsa d key pad = [] := by
  simp only [handleKeyOps, h]

theorem dtpHandleKey_fixes (rsa : Rsa) (c : DtpContext) (d : Datagram) (key : List UInt8) (pad : ℕ) (isResend : Bool) :
    (c.dtpHandleKey rsa d key pad isResend).packetQ = c.packetQ ∧
      (c.dtpHandleKey rsa d key pad isResend).isActive = c.isActive := by
  simp only [dtpHandleKey]
  split <;> cases isResend <;> exact ⟨rfl, rfl⟩

/-- A context is created if the listening socket has room for it. -/
theorem created_fixes {rsa : Rsa} {env : SynEnv} {d : Datagram} {addr : SockAddr}
    (h : handleSYNPacket rsa env none d addr = .ok (.created c)) :
    env.room = true ∧ c.packetQ = env.fresh.packetQ ∧ c.isActive = env.fresh.isActive := by
  refine ⟨?_, ?_⟩
  · by_contra hroom
    rw [handleSYNPacket] at h
    cases hopt : dtpGetOption d env.hid (some 0) with
    | error e => simp [hopt, bind, Except.bind] at h
    | ok o => simp [hopt, hroom, bind, Except.bind, pure, Except.pure] at h
  · rcases handleSYNPacket_cases h with ⟨c, hid, dl, hflow, -⟩ | ⟨-, hid, dl, scale, port, -, -, heq⟩ | ⟨-, heq⟩
    · cases hflow
    · rw [SynOutcome.created.injEq] at heq
      rw [heq]
      exact dtpHandleKey_fixes rsa _ d env.key env.pad false
    · cases heq

theorem lose_notMem_of_spares {e : LifeEvent} (h : e.SparesPackets k c) : .lose ∉ e.packetOps k c := by
  cases e with
  | conn e =>
    cases e with
    | own e => exact lose_notMem_packetOps c k e
    | syn d addr hid key pad =>
      simp only [LifeEvent.packetOps]
      split_ifs with hhost
      · rw [handleKeyOps_none (h hhost)]
        exact List.not_mem_nil
      · exact List.not_mem_nil
    | option o env => exact List.not_mem_nil
  | connect addr fid n e => exact lose_notMem_writeAvailOps _
  | _ => exact List.not_mem_nil

/-- What happens to a context, in use or released. -/
theorem Keeps.own (h : s.Keeps F L) {e : LifeEvent} (hact : (s.ctx x).isActive = true ∨ e.onReleased = true)
    (he : e.SparesPackets k (s.ctx x)) :
    ∃ F' L', (s.act x (e.packetOps k (s.ctx x)) (e.apply k (s.ctx x))).Keeps F' L' := by
  have hspan := LifeEvent.packetOps_span k (s.ctx x) e
  refine h.act hspan (lose_notMem_of_spares he) ?_
  cases hon : (s.ctx x).isActive with
  | true => exact LifeEvent.releases hon he
  | false =>
    intro _
    have hnone := LifeEvent.packetOps_released hon (hact.resolve_left (by simp [hon])) he
    rw [hnone, QueueSpan, List.foldl_nil, h.released x hon, List.length_nil] at hspan
    exact List.length_eq_zero_iff.mp hspan.symm

theorem Keeps.apply (h : s.Keeps F L) {e : PacketEvent} (ha : (sharing k).allowed s e) (he : SparesPackets k s e) :
    ∃ F' L', ((sharing k).apply s e).Keeps F' L' := by
  cases e with
  | socket x scale id port => exact ⟨F, L, h.create ha rfl⟩
  | syn x env d addr =>
    obtain ⟨hx, scale, id, port, hfresh⟩ := ha
    have hempty : env.fresh.packetQ = [] := by rw [hfresh]; rfl
    simp only [sharing]
    split
    · rename_i c hc
      obtain ⟨hroom, hq, -⟩ := created_fixes hc
      rw [handleKeyOps_none (he hroom)]
      refine (h.create hx hempty).act ?_ List.not_mem_nil fun _ => hq.trans hempty
      rw [ctx_create, Function.update_self]
      exact .same (congrArg List.length hq)
    · exact ⟨F, L, h⟩
  | own x e => exact h.own ha.2 he

theorem keeps_init {ctx : ℕ → DtpContext} (hctx : ∀ x, (ctx x).packetQ = []) :
    ∃ F L, (PacketHost.exec 0 { pool := .empty, queue := .init, ctx := ctx } .borrow).Keeps F L := by
  have hempty : Tracks { pool := .empty, queue := .init, ctx := ctx } [] fun _ => [] :=
    ⟨.empty, TailQueues.holds_init, by simp, by simp⟩
  obtain ⟨F, as, hex, hwhole⟩ := hempty.borrow 0
  have has : as = [] := List.length_eq_zero_iff.mp hex.length
  have hL : Function.update (fun _ => []) 0 as = fun _ : ℕ => ([] : List ℕ) := by
    rw [has, Function.update_eq_self]
  have htracks := hex.tracks
  rw [hL] at htracks hwhole
  refine ⟨F, fun _ => [], ⟨htracks, fun x => ?_⟩, hwhole fun a ha => absurd ha (Nat.not_lt_zero a), fun x => ?_⟩
  · rw [hex.ctx, hctx x]
    rfl
  · rw [hex.ctx]
    exact fun _ => hctx x

theorem keeps_of_reachable (hs : ((sharing k).restrict (SparesPackets k)).Reachable s) : ∃ F L, s.Keeps F L := by
  refine Machine.Reachable.invariant (P := fun s => ∃ F L, Keeps s F L) (fun s hinit => ?_) (fun s e hinv hstep => ?_) hs
  · obtain ⟨ctx, hctx, heq⟩ := hinit
    rw [heq]
    exact keeps_init fun x => (hctx x).2
  · obtain ⟨F, L, h⟩ := hinv
    exact h.apply hstep.1 hstep.2

end PacketHost

/-- Each packet is in one place, in every run in which no SYN is answered and no context is released with packets in
its queue. -/
theorem packets_conserved {k : Crypto} {s : PacketHost} (hs : ((sharing k).restrict (SparesPackets k)).Reachable s) :
    PacketsConserved s := by
  obtain ⟨F, L, h⟩ := PacketHost.keeps_of_reachable hs
  exact h.follows.conserved_iff.mpr ⟨h.whole, h.released⟩

/-! ## Packets that get lost -/

namespace PacketHost
variable {k : Crypto} {s : PacketHost} {x : ℕ} {F : List ℕ} {L : ℕ → List ℕ} {c : DtpContext}

/-- A SYN that is answered costs a packet. -/
theorem Follows.lose (h : s.Follows F L) (hc : c.packetQ = (s.ctx x).packetQ) : ¬PacketsConserved (s.act x [.lose] c) := by
  obtain ⟨F', as', hex, hlost⟩ := h.tracks.lose x
  have hfollows : (s.act x [.lose] c).Follows F' (Function.update L x as') := by
    refine ⟨⟨hex.tracks.free, hex.tracks.queue, hex.tracks.apart, hex.tracks.below⟩, fun y => ?_⟩
    rw [ctx_act]
    by_cases hy : y = x
    · rw [hy, Function.update_self, Function.update_self, hex.length, h.length, hc]
    · rw [Function.update_of_ne hy, Function.update_of_ne hy]
      exact h.length y
  exact fun hcons => hlost (hfollows.conserved_iff.mp hcons).1

theorem Follows.apply (h : s.Follows F L) {e : PacketEvent} (ha : (sharing k).allowed s e) :
    ∃ F' L', ((sharing k).apply s e).Follows F' L' := by
  cases e with
  | socket x scale id port => exact ⟨F, _, h.create x rfl⟩
  | syn x env d addr =>
    obtain ⟨hx, scale, id, port, hfresh⟩ := ha
    have hempty : env.fresh.packetQ = [] := by
      rw [hfresh]
      rfl
    simp only [sharing]
    split
    · rename_i c hc
      have hspan : QueueSpan (handleKeyOps k.toRsa d env.key env.pad) ((s.create x env.fresh).ctx x) c := by
        refine .handleKey k.toRsa ?_ d env.key env.pad
        rw [(created_fixes hc).2.1, ctx_create, Function.update_self]
      obtain ⟨F', L', hfollows, -⟩ := (h.create x hempty).act hspan
      exact ⟨F', L', hfollows⟩
    · exact ⟨F, L, h⟩
  | own x e =>
    obtain ⟨F', L', hfollows, -⟩ := h.act (LifeEvent.packetOps_span k (s.ctx x) e)
    exact ⟨F', L', hfollows⟩

theorem follows_of_reachable (hs : (sharing k).Reachable s) : ∃ F L, s.Follows F L := by
  refine Machine.Reachable.invariant (P := fun s => ∃ F L, Follows s F L) (fun s hinit => ?_) (fun s e hinv hstep => ?_) hs
  · obtain ⟨ctx, hctx, heq⟩ := hinit
    obtain ⟨F, L, h⟩ := keeps_init fun x => (hctx x).2
    rw [heq]
    exact ⟨F, L, h.follows⟩
  · obtain ⟨F, L, h⟩ := hinv
    exact h.apply hstep

theorem reachable_own (hs : (sharing k).Reachable s) {es : List LifeEvent}
    (h : ((lifetime k).restrict fun c e => c.isActive = true ∨ e.onReleased = true).Admits (s.ctx x) es) :
    ∃ s', (sharing k).Reachable s' ∧ s'.ctx x = (lifetime k).run (s.ctx x) es := by
  induction es generalizing s with
  | nil => exact ⟨s, hs, rfl⟩
  | cons e es ih =>
    have hstep : (sharing k).Reachable ((sharing k).apply s (.own x e)) := hs.step h.1
    have hctx : ((sharing k).apply s (.own x e)).ctx x = e.apply k (s.ctx x) := by
      simp only [sharing, ctx_act, Function.update_self]
    obtain ⟨s', hs', hrun⟩ := ih hstep (by rw [hctx]; exact h.2)
    rw [hctx] at hrun
    exact ⟨s', hs', hrun⟩

end PacketHost

/-- A host on which no socket has been opened. -/
def idleHost : PacketHost :=
  PacketHost.exec 0 { pool := .empty, queue := .init, ctx := fun _ => { dtpCreateContext with isActive := false } } .borrow

theorem ctx_idleHost (x : ℕ) : idleHost.ctx x = { dtpCreateContext with isActive := false } := by
  rw [idleHost, PacketHost.ctx_exec]

theorem idleHost_init (k : Crypto) : (sharing k).init idleHost := ⟨_, fun _ => ⟨rfl, rfl⟩, rfl⟩

def sampleOpen : PacketEvent := .socket 0 4 (List.replicate 20 7) 5000

/-- `dtp_connect` sends a SYN. -/
def sampleDial : PacketEvent := .own 0 (.connect ⟨1, 80⟩ 9 [35] [5])

theorem ctx_sampleOpen (k : Crypto) :
    ((sharing k).apply idleHost sampleOpen).ctx 0 = hostContext 4 (List.replicate 20 7) 5000 := by
  simp only [sharing, sampleOpen, PacketHost.ctx_create, Function.update_self]

/-- The flow ID is taken. -/
def sampleRefusal : PacketEvent :=
  .own 0 (.conn (.own (.rst (mkDatagram (dtpGenerateHeader 0 0 9 { rst := true } 0) []) (List.replicate 20 0) 10)))

/-- The packet of the SYN is freed when the client is refused. -/
theorem packets_conserved_refused :
    PacketsConserved ((sharing toyCrypto).run idleHost [sampleOpen, sampleDial, sampleRefusal]) := by
  have hinit : ((sharing toyCrypto).restrict (SparesPackets toyCrypto)).Reachable idleHost :=
    .init (idleHost_init toyCrypto)
  have hopen : (idleHost.ctx 0).isActive = false := by rw [ctx_idleHost]
  have hctx := ctx_sampleOpen toyCrypto
  have hdial : (((sharing toyCrypto).apply idleHost sampleOpen).ctx 0).isActive = true := by
    rw [hctx]
    rfl
  have hrefused : (((sharing toyCrypto).run idleHost [sampleOpen, sampleDial]).ctx 0).isActive = true := by
    simp only [Machine.run, List.foldl_cons, List.foldl_nil]
    generalize (sharing toyCrypto).apply idleHost sampleOpen = s at hctx
    simp only [sharing, sampleDial, PacketHost.ctx_act, Function.update_self, hctx]
    rfl
  have hadm : ((sharing toyCrypto).restrict (SparesPackets toyCrypto)).Admits idleHost
      [sampleOpen, sampleDial, sampleRefusal] :=
    ⟨⟨hopen, trivial⟩, ⟨⟨trivial, .inl hdial⟩, trivial⟩, ⟨⟨trivial, .inl hrefused⟩, fun _ => trivial⟩, trivial⟩
  exact packets_conserved (hinit.run hadm)

/-- The client gives the call up: with a keep-alive limit of `0` the connection times out, and a lingering `dtp_close`
releases the context. -/
def sampleGiveUp : List LifeEvent :=
  [.conn (.option (.linger 1) ⟨true, true, .done ()⟩), .conn (.option (.keepAlive 1) ⟨true, true, .done ()⟩),
    .conn (.option (.keepCnt 0) ⟨true, true, .done ()⟩),
    .conn (.own (.timeout { firstExpired with keepAliveExpired := true })), .conn (.own .close)]

/-- The client calls and gives up; the SYN is still in the queue of its context. -/
theorem sampleGiveUp_released :
    ∃ s, (sharing toyCrypto).Reachable s ∧ (s.ctx 0).isActive = false ∧ (s.ctx 0).packetQ ≠ [] := by
  have hinit : (sharing toyCrypto).Reachable idleHost := .init (idleHost_init toyCrypto)
  have hopen : (sharing toyCrypto).Reachable ((sharing toyCrypto).apply idleHost sampleOpen) := by
    refine hinit.step ?_
    change (idleHost.ctx 0).isActive = false
    rw [ctx_idleHost]
  have hadm : ((lifetime toyCrypto).restrict fun c e => c.isActive = true ∨ e.onReleased = true).Admits
      (hostContext 4 (List.replicate 20 7) 5000) (.connect ⟨1, 80⟩ 9 [35] [5] :: sampleGiveUp) := by
    refine ⟨⟨trivial, .inl rfl⟩, ⟨trivial, .inr rfl⟩, ⟨trivial, .inr rfl⟩, ⟨trivial, .inr rfl⟩,
      ⟨trivial, .inl ?_⟩, ⟨trivial, .inr rfl⟩, trivial⟩
    decide +kernel
  rw [← ctx_sampleOpen toyCrypto] at hadm
  obtain ⟨s, hs, hrun⟩ := PacketHost.reachable_own hopen hadm
  rw [ctx_sampleOpen] at hrun
  refine ⟨s, hs, ?_, ?_⟩
  · rw [hrun]
    decide +kernel
  · rw [hrun, ← List.isEmpty_eq_false_iff]
    decide +kernel

def sampleFlowSYN : PacketEvent := .syn 0 (sampleSynEnv 1) sampleCaller.syn ⟨2, 5000⟩

/-- The packet of the SYN+ACK is in no list, and the packets of a released context are in the queue of no active
one. -/
theorem packet_lost :
    ((sharing toyCrypto).Admits idleHost [sampleFlowSYN] ∧
      ¬PacketsConserved ((sharing toyCrypto).run idleHost [sampleFlowSYN])) ∧
    ∃ s, (sharing toyCrypto).Reachable s ∧ (s.ctx 0).isActive = false ∧ ¬PacketsConserved s := by
  refine ⟨⟨⟨⟨?_, 4, List.replicate 20 9, 6000, rfl⟩, trivial⟩, ?_⟩, ?_⟩
  · rw [ctx_idleHost]
  · obtain ⟨F, L, h⟩ := PacketHost.follows_of_reachable (k := toyCrypto) (.init (idleHost_init toyCrypto))
    have hops : handleKeyOps toyCrypto.toRsa sampleCaller.syn (sampleSynEnv 1).key (sampleSynEnv 1).pad = [.lose] := rfl
    have hempty : (sampleSynEnv 1).fresh.packetQ = [] := rfl
    simp only [Machine.run, List.foldl_cons, List.foldl_nil, sharing, sampleFlowSYN, sampleAccepted_created, hops]
    refine (h.create 0 hempty).lose ?_
    rw [PacketHost.ctx_create, Function.update_self]
    exact (PacketHost.created_fixes sampleAccepted_created).2.1
  · obtain ⟨s, hs, hoff, hq⟩ := sampleGiveUp_released
    obtain ⟨F, L, h⟩ := PacketHost.follows_of_reachable hs
    exact ⟨s, hs, hoff, fun hcons => hq ((h.conserved_iff.mp hcons).2 0 hoff)⟩

end Cedos.Dtp
