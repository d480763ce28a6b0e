import Cedos.Dtp.Accept
import Cedos.Dtp.Dispatch
import Cedos.Dtp.Onward
import Cedos.Dtp.Sockopt
import Cedos.Lib.TailQueue

/-!
# The flow-ID map

The contexts of the server's connections are found by their flow IDs. The map is an array of tail
queues through the contexts themselves; the queue of a context is computed from its flow ID, when it
is added and again when it is removed. A context lies where its UDP socket says, so its memory is
zeroed and used again once the socket has been closed.

Nothing else is needed for the map to be one: contexts are in it only between `HandleSYNPacket` and
`DTPCloseContext`, which takes them out before it closes the socket, and in between their flow ID does
not change. That needs that `dtp_connect`, which gives its context a new flow ID, is called on fresh
sockets only.
-/

namespace Cedos.Dtp

open DtpContext

/-! ## What an event does to the place of a context -/

/-- The context keeps its place, or is closed and leaves the map. -/
def Hooked (c c' : DtpContext) : Prop :=
  (c'.onFlowIDMap = c.onFlowIDMap ∧ c'.isActive = c.isActive) ∨
    (c'.onFlowIDMap = false ∧ c.isActive = true ∧ c'.isActive = false)

namespace Hooked
variable {c c' c'' : DtpContext}

theorem same (hm : c'.onFlowIDMap = c.onFlowIDMap) (ha : c'.isActive = c.isActive) : Hooked c c' :=
  .inl ⟨hm, ha⟩

theorem refl (c : DtpContext) : Hooked c c := same rfl rfl

theorem trans (h : Hooked c c') (h' : Hooked c' c'') : Hooked c c'' := by
  rcases h with ⟨hm, ha⟩ | ⟨hm, ha, hoff⟩
  · rw [Hooked, hm, ha] at h'
    exact h'
  · rcases h' with ⟨hm', ha'⟩ | ⟨-, ha', -⟩
    · exact .inr ⟨hm'.trans hm, ha, ha'.trans hoff⟩
    · simp [hoff] at ha'

theorem dtpCloseContext (c : DtpContext) : Hooked c c.dtpCloseContext := by
  simp only [DtpContext.dtpCloseContext]
  split_ifs with hactive
  · exact same rfl rfl
  · exact same rfl rfl
  · exact same rfl rfl
  · exact .inr ⟨rfl, by simpa using hactive, rfl⟩

theorem of_act {a : ActKind} (h : Act a c c') : Hooked c c' := by
  cases h with
  | fallBack =>
    rw [fallBack, unsendFIN]
    split_ifs <;> exact same rfl rfl
  | reconnect | switch =>
    simp only [dtpReconnect]
    split <;> exact same rfl rfl
  | released => exact dtpCloseContext c
  | _ => exact same rfl rfl

theorem of_acts {K : List ActKind} (h : Acts K c c') : Hooked c c' :=
  h.invariant (P := Hooked c) (fun _ _ _ _ ha h => h.trans (of_act ha)) (refl c)

theorem apply (k : Crypto) (c : DtpContext) (e : Event) : Hooked c (e.apply k c) := of_acts (.apply k c e)

end Hooked

/-! ## The host -/

/-- `NUM_BATCH * BATCH_SIZE`. -/
def numSlots : ℕ := 1024 * 4096

def hashToFidmapBin (fid : UInt32) : ℕ := (fid &&& 65535).toNat

inductive MapOp
  | added (fid : UInt32) (x : ℕ)
  | removed (x : ℕ)
  deriving DecidableEq, Repr

/-- The contexts of a host by their sockets, the links of the flow-ID map, the UDP sockets that are
open, those that `dtp_socket` has returned and that have not been connected since, and what has
happened to the map. -/
structure FlowHost where
  ctx : ℕ → DtpContext
  links : TailQueues ℕ ℕ
  opened : ℕ → Bool
  fresh : ℕ → Bool
  log : List MapOp

/-- How `DTPCreateContext` ends. -/
inductive Creation
  /-- with a context -/
  | made (x : ℕ) (c : DtpContext)
  /-- with an error, before the context is zeroed -/
  | failed
  /-- with an error after that; the socket is closed again -/
  | undone (x : ℕ) (c : DtpContext)

def Creation.context : Creation → DtpContext
  | .made _ c | .undone _ c => c
  | .failed => DtpContext.dtpCreateContext

namespace FlowHost

def set (s : FlowHost) (x : ℕ) (c : DtpContext) : FlowHost :=
  { s with ctx := Function.update s.ctx x c }

/-- `DTPAddContextToFlowIDMap`. -/
def dtpAddContextToFlowIDMap (s : FlowHost) (fid : UInt32) (x : ℕ) : FlowHost :=
  { s.set x { s.ctx x with onFlowIDMap := true } with
    links := s.links.insertHead (hashToFidmapBin fid) x
    log := s.log ++ [.added fid x] }

/-- `DTPRemoveContextFromFlowIDMap`. -/
def dtpRemoveContextFromFlowIDMap (s : FlowHost) (x : ℕ) : FlowHost :=
  if (s.ctx x).onFlowIDMap then
    { s.set x { s.ctx x with onFlowIDMap := false } with
      links := s.links.remove (hashToFidmapBin (s.ctx x).flowID) x
      log := s.log ++ [.removed x] }
  else s

/-- `DTPGetContextByFlowID`. There are no more rounds than contexts, unless the links run in a
circle; `none` is that outcome. -/
def dtpGetContextByFlowID (s : FlowHost) (fid : UInt32) : Option (Option ℕ) :=
  s.links.find (fun x => (s.ctx x).flowID == fid) numSlots (s.links.first (hashToFidmapBin fid))

/-- The context is in one of the queues. -/
def linked (s : FlowHost) (x : ℕ) : Prop := ∃ b, x ∈ s.links.visits numSlots (s.links.first b)

/-- An event has made `c` of the context. If it has closed it, `DTPCloseContext` has called
`DTPRemoveContextFromFlowIDMap` with the flow ID of `c`, and closed the socket. -/
def settle (s : FlowHost) (x : ℕ) (c : DtpContext) : FlowHost :=
  let s' := if c.onFlowIDMap then s.set x c
    else (s.set x { c with onFlowIDMap := (s.ctx x).onFlowIDMap }).dtpRemoveContextFromFlowIDMap x
  { s' with opened := Function.update s.opened x (s.opened x && !((s.ctx x).isActive && !c.isActive)) }

/-- `DTPCreateContext`; `DTPAllocateContext` finds no place for a socket beyond the last slot. -/
def dtpCreateContext (s : FlowHost) : Creation → FlowHost × Option ℕ
  | .made x c =>
    if x < numSlots then
      ({ s.set x c with
        links := s.links.clear x
        opened := Function.update s.opened x true
        fresh := Function.update s.fresh x false }, some x)
    else (s, none)
  | .failed => (s, none)
  | .undone x c => if x < numSlots then ({ s.set x c with links := s.links.clear x }, none) else (s, none)

def dtpSocket (s : FlowHost) (r : Creation) : FlowHost :=
  match s.dtpCreateContext r with
  | (s, none) => s
  | (s, some x) => { s with fresh := Function.update s.fresh x true }

/-- The new connection `x` waits at the listening socket. -/
def enqueue (s : FlowHost) (sock x : ℕ) : FlowHost :=
  s.set sock { s.ctx sock with listenQ := (s.ctx sock).listenQ ++ [x], pendingRead := true }

def handleSYNPacket (k : Crypto) (s : FlowHost) (sock : ℕ) (r : Creation) (d : Datagram)
    (addr : SockAddr) (hid key : List UInt8) (pad : ℕ) : FlowHost :=
  match s.dtpGetContextByFlowID d.hdr.fid with
  | none => s
  | some flow =>
    let env : SynEnv :=
      { fresh := r.context, hid := hid, key := key, pad := pad
        room := decide (((s.ctx sock).listenQ.length : ℤ) ≠ (s.ctx sock).backlog) }
    match DtpContext.handleSYNPacket k.toRsa env (flow.map s.ctx) d addr with
    | .error _ => s
    | .ok (.known c) =>
      match flow with
      | some x => s.set x c
      | none => s
    | .ok .refused => s.set sock ((s.ctx sock).sendRSTPacket d.hdr.fid addr)
    | .ok (.created c) =>
      match s.dtpCreateContext r with
      | (s, none) => s
      | (s, some x) => ((s.set x c).dtpAddContextToFlowIDMap d.hdr.fid x).enqueue sock x

end FlowHost

/-- The steps of the library and of its callers. -/
inductive FlowEvent
  | socket (r : Creation)
  | connect (x : ℕ) (addr : SockAddr) (fid : UInt32) (n e : List UInt8)
  | listen (x : ℕ) (bound alloc : Bool) (backlog : ℤ)
  | accept (x : ℕ) (a : AcceptArgs)
  | setsockopt (x : ℕ) (o : SockOpt) (env : SockoptEnv)
  /-- `HandleSYNPacket` -/
  | syn (sock : ℕ) (r : Creation) (d : Datagram) (addr : SockAddr) (hid key : List UInt8) (pad : ℕ)
  /-- anything that happens to an open context; `DTPCloseContext` is called in several of them -/
  | event (x : ℕ) (e : Event)
  /-- `DTPCloseContext` -/
  | closeContext (x : ℕ)

structure DtpContext.Zeroed (c : DtpContext) : Prop where
  onFlowIDMap : c.onFlowIDMap = false
  flowID : c.flowID = 0
  state : c.state = .closed

namespace FlowHost

/-- One step. -/
def apply (k : Crypto) (s : FlowHost) : FlowEvent → FlowHost
  | .socket r => s.dtpSocket r
  | .connect x addr fid n e =>
    { s.set x ((s.ctx x).dtpConnect addr fid n e) with fresh := Function.update s.fresh x false }
  | .listen x bound alloc backlog => s.set x ((s.ctx x).dtpListen bound alloc backlog).1
  | .accept x a => s.set x ((s.ctx x).acceptBody a).1
  | .setsockopt x o env => s.set x ((s.ctx x).dtpSetsockopt o env).1
  | .syn sock r d addr hid key pad => s.handleSYNPacket k sock r d addr hid key pad
  | .event x e => s.settle x (e.apply k (s.ctx x))
  | .closeContext x => s.settle x (s.ctx x).dtpCloseContext

/-- The socket of a new context was not open, since only the library closes such sockets. -/
def admits (s : FlowHost) : Creation → Prop
  | .made x c => s.opened x = false ∧ c.Zeroed ∧ c.isActive = true
  | .failed => True
  | .undone x c => s.opened x = false ∧ c.Zeroed

/-- When a step can be taken: `dtp_connect` is called on fresh sockets only. -/
def allowed (s : FlowHost) : FlowEvent → Prop
  | .socket r => s.admits r
  | .connect x _ _ _ _ => s.fresh x = true
  | .syn _ r _ _ _ _ _ => s.admits r
  | .event x e => e.offered (s.ctx x)
  | _ => True

/-- No context has been created yet. -/
def start : FlowHost := ⟨fun _ => {}, .init, fun _ => false, fun _ => false, []⟩

end FlowHost

def flowMapping (k : Crypto) : Machine FlowHost FlowEvent where
  init s := s = FlowHost.start
  allowed := FlowHost.allowed
  apply := FlowHost.apply k

/-- The context `x` was added with the flow ID, and has not been removed since. -/
def Standing (log : List MapOp) (fid : UInt32) (x : ℕ) : Prop :=
  ∃ l₁ l₂, log = l₁ ++ .added fid x :: l₂ ∧ MapOp.removed x ∉ l₂

theorem standing_added (log : List MapOp) (fid fid' : UInt32) (x y : ℕ) :
    Standing (log ++ [.added fid y]) fid' x ↔ (fid' = fid ∧ x = y) ∨ Standing log fid' x := by
  constructor
  · rintro ⟨l₁, l₂, heq, hno⟩
    rcases List.eq_nil_or_concat l₂ with rfl | ⟨l, z, rfl⟩
    · obtain ⟨-, hlast⟩ := List.append_inj' heq rfl
      simp only [List.cons.injEq, MapOp.added.injEq, and_true] at hlast
      exact .inl ⟨hlast.1.symm, hlast.2.symm⟩
    · have hsplit : log ++ [.added fid y] = (l₁ ++ .added fid' x :: l) ++ [z] := by simpa using heq
      obtain ⟨hlog, -⟩ := List.append_inj' hsplit rfl
      exact .inr ⟨l₁, l, hlog, fun hmem => hno (by simp [hmem])⟩
  · rintro (⟨rfl, rfl⟩ | ⟨l₁, l₂, rfl, hno⟩)
    · exact ⟨log, [], rfl, by simp⟩
    · exact ⟨l₁, l₂ ++ [.added fid y], by simp, by simp [hno]⟩

theorem standing_removed (log : List MapOp) (fid : UInt32) (x y : ℕ) :
    Standing (log ++ [.removed y]) fid x ↔ x ≠ y ∧ Standing log fid x := by
  constructor
  · rintro ⟨l₁, l₂, heq, hno⟩
    rcases List.eq_nil_or_concat l₂ with rfl | ⟨l, z, rfl⟩
    · obtain ⟨-, hlast⟩ := List.append_inj' heq rfl
      simp at hlast
    · have hsplit : log ++ [.removed y] = (l₁ ++ .added fid x :: l) ++ [z] := by simpa using heq
      obtain ⟨hlog, hz⟩ := List.append_inj' hsplit rfl
      simp only [List.cons.injEq, and_true] at hz
      refine ⟨?_, l₁, l, hlog, fun hmem => hno (by simp [hmem])⟩
      rintro rfl
      exact hno (by simp [← hz])
  · rintro ⟨hne, l₁, l₂, rfl, hno⟩
    refine ⟨l₁, l₂ ++ [.removed y], by simp, ?_⟩
    simp [hno, hne]

/-! ## What one step keeps -/

namespace FlowHost
variable {s : FlowHost} {L : ℕ → List ℕ} {x : ℕ} {c : DtpContext}

/-- The queues, the flags and the log agree. -/
structure Mapped (s : FlowHost) (L : ℕ → List ℕ) : Prop where
  holds : s.links.Holds L
  mem : ∀ b x, x ∈ L b ↔ (s.ctx x).onFlowIDMap = true ∧ hashToFidmapBin (s.ctx x).flowID = b
  slot : ∀ x, (s.ctx x).onFlowIDMap = true → x < numSlots
  opened : ∀ x, (s.ctx x).onFlowIDMap = true → s.opened x = true
  state : ∀ x, (s.ctx x).onFlowIDMap = true → (s.ctx x).state ≠ .synSent
  unique : ∀ x y, (s.ctx x).onFlowIDMap = true → (s.ctx y).onFlowIDMap = true →
    (s.ctx x).flowID = (s.ctx y).flowID → x = y
  fresh : ∀ x, s.fresh x = true → (s.ctx x).onFlowIDMap = false
  log : ∀ fid x, Standing s.log fid x ↔ (s.ctx x).onFlowIDMap = true ∧ (s.ctx x).flowID = fid

theorem mapped_start : start.Mapped fun _ => [] where
  holds := TailQueues.holds_init
  mem b x := by simp [start]
  slot x hx := by simp [start] at hx
  opened x hx := by simp [start] at hx
  state x hx := by simp [start] at hx
  unique x y hx := by simp [start] at hx
  fresh x hx := by simp [start] at hx
  log fid x := by simp [start, Standing]

section
variable (h : s.Mapped L)
include h

/-- A context that is not on the map is in no queue. -/
theorem Mapped.notMem (hx : (s.ctx x).onFlowIDMap = false) (b : ℕ) : x ∉ L b := by
  intro hmem
  simp [((h.mem b x).mp hmem).1] at hx

/-- The sockets and the fresh ones among them are counted anew. -/
theorem Mapped.sockets {o f : ℕ → Bool}
    (ho : ∀ x, (s.ctx x).onFlowIDMap = true → o x = true)
    (hf : ∀ x, f x = true → (s.ctx x).onFlowIDMap = false) :
    ({ s with opened := o, fresh := f } : FlowHost).Mapped L :=
  { h with opened := ho, fresh := hf }

theorem Mapped.set (hm : c.onFlowIDMap = (s.ctx x).onFlowIDMap)
    (hc : (s.ctx x).onFlowIDMap = true → c.flowID = (s.ctx x).flowID ∧ c.state ≠ .synSent) : (s.set x c).Mapped L := by
  have hmap : ∀ y, ((s.set x c).ctx y).onFlowIDMap = (s.ctx y).onFlowIDMap := by
    intro y
    by_cases hy : y = x
    · subst hy
      simpa [FlowHost.set] using hm
    · simp [FlowHost.set, hy]
  have hfid : ∀ y, (s.ctx y).onFlowIDMap = true → ((s.set x c).ctx y).flowID = (s.ctx y).flowID := by
    intro y hon
    by_cases hy : y = x
    · subst hy
      simpa [FlowHost.set] using (hc hon).1
    · simp [FlowHost.set, hy]
  have hflow : ∀ y (P : UInt32 → Prop), (s.ctx y).onFlowIDMap = true ∧ P ((s.set x c).ctx y).flowID ↔
      (s.ctx y).onFlowIDMap = true ∧ P (s.ctx y).flowID := by
    intro y P
    refine and_congr_right fun hon => ?_
    rw [hfid y hon]
  constructor
  · exact h.holds
  · intro b y
    rw [hmap, hflow y fun fid => hashToFidmapBin fid = b]
    exact h.mem b y
  · intro y hy
    exact h.slot y (hmap y ▸ hy)
  · intro y hy
    exact h.opened y (hmap y ▸ hy)
  · intro y hon
    rw [hmap] at hon
    by_cases hy : y = x
    · subst hy
      simpa [FlowHost.set] using (hc hon).2
    · simpa [FlowHost.set, hy] using h.state y hon
  · intro y z hy hz heq
    rw [hmap] at hy hz
    rw [hfid y hy, hfid z hz] at heq
    exact h.unique y z hy hz heq
  · intro y hy
    rw [hmap]
    exact h.fresh y hy
  · intro fid y
    rw [hmap, hflow y fun f => f = fid]
    exact h.log fid y

/-- The memory of a context that is not on the map is zeroed. -/
theorem Mapped.clear (hx : (s.ctx x).onFlowIDMap = false) (hc : c.onFlowIDMap = false) :
    ({ s.set x c with links := s.links.clear x } : FlowHost).Mapped L := by
  have hset : (s.set x c).Mapped L := by
    refine h.set (hc.trans hx.symm) fun hon => ?_
    simp [hx] at hon
  exact { hset with holds := h.holds.clear (h.notMem hx) }

theorem Mapped.remove (x : ℕ) :
    ∃ L', (s.dtpRemoveContextFromFlowIDMap x).Mapped L' := by
  rw [dtpRemoveContextFromFlowIDMap]
  by_cases hon : (s.ctx x).onFlowIDMap = true
  · rw [if_pos hon]
    generalize hb : hashToFidmapBin (s.ctx x).flowID = b
    have hx : x ∈ L b := (h.mem b x).mpr ⟨hon, hb⟩
    have hctx : ∀ y, (Function.update s.ctx x { s.ctx x with onFlowIDMap := false } y).onFlowIDMap = true →
        y ≠ x ∧ (s.ctx y).onFlowIDMap = true ∧
          Function.update s.ctx x { s.ctx x with onFlowIDMap := false } y = s.ctx y := by
      intro y hy
      by_cases hyx : y = x
      · subst hyx
        simp at hy
      · rw [Function.update_of_ne hyx] at hy ⊢
        exact ⟨hyx, hy, rfl⟩
    refine ⟨Function.update L b ((L b).erase x), ?_⟩
    constructor <;> simp only [FlowHost.set]
    · exact h.holds.remove hx
    · intro b' y
      by_cases hyx : y = x
      · subst hyx
        have hnone : ∀ b', y ∉ Function.update L b ((L b).erase y) b' := by
          intro b' hmem
          by_cases hbb : b' = b
          · subst hbb
            rw [Function.update_self] at hmem
            exact (h.holds.nodup b').not_mem_erase hmem
          · rw [Function.update_of_ne hbb] at hmem
            exact hbb (h.holds.apart b' b y hmem hx)
        simp [hnone b']
      · have hmem : y ∈ Function.update L b ((L b).erase x) b' ↔ y ∈ L b' := by
          by_cases hbb : b' = b
          · subst hbb
            rw [Function.update_self, List.mem_erase_of_ne hyx]
          · rw [Function.update_of_ne hbb]
        rw [hmem, Function.update_of_ne hyx]
        exact h.mem b' y
    · intro y hy
      exact h.slot y (hctx y hy).2.1
    · intro y hy
      exact h.opened y (hctx y hy).2.1
    · intro y hy
      rw [(hctx y hy).2.2]
      exact h.state y (hctx y hy).2.1
    · intro y z hy hz heq
      rw [(hctx y hy).2.2, (hctx z hz).2.2] at heq
      exact h.unique y z (hctx y hy).2.1 (hctx z hz).2.1 heq
    · intro y hy
      by_cases hyx : y = x
      · simp [hyx]
      · rw [Function.update_of_ne hyx]
        exact h.fresh y hy
    · intro fid y
      rw [standing_removed, h.log]
      by_cases hyx : y = x
      · simp [hyx]
      · simp [hyx]
  · rw [if_neg hon]
    exact ⟨L, h⟩

/-- `DTPAddContextToFlowIDMap` for a new context, with a flow ID that no context on the map has. -/
theorem Mapped.add (hoff : (s.ctx x).onFlowIDMap = false) (hslot : x < numSlots)
    (hopen : s.opened x = true) (hfresh : s.fresh x = false) (hs : c.state ≠ .synSent)
    (hnew : ∀ y, (s.ctx y).onFlowIDMap = true → (s.ctx y).flowID ≠ c.flowID) :
    ∃ L', ((s.set x c).dtpAddContextToFlowIDMap c.flowID x).Mapped L' := by
  generalize hb : hashToFidmapBin c.flowID = b
  have hctx : ((s.set x c).dtpAddContextToFlowIDMap c.flowID x).ctx =
      Function.update s.ctx x { c with onFlowIDMap := true } := by
    simp [dtpAddContextToFlowIDMap, FlowHost.set]
  have hon : ∀ y, (Function.update s.ctx x { c with onFlowIDMap := true } y).onFlowIDMap = true →
      y = x ∨ y ≠ x ∧ (s.ctx y).onFlowIDMap = true ∧
        Function.update s.ctx x { c with onFlowIDMap := true } y = s.ctx y := by
    intro y hy
    by_cases hyx : y = x
    · exact .inl hyx
    · rw [Function.update_of_ne hyx] at hy ⊢
      exact .inr ⟨hyx, hy, rfl⟩
  refine ⟨Function.update L b (x :: L b), ?_⟩
  constructor <;> (try rw [hctx])
  · simp only [dtpAddContextToFlowIDMap, hb]
    exact h.holds.insertHead (h.notMem hoff)
  · intro b' y
    by_cases hyx : y = x
    · subst hyx
      simp only [Function.update_self, hb, true_and]
      by_cases hbb : b' = b
      · subst hbb
        simp
      · simp [hbb, Ne.symm hbb, h.notMem hoff b']
    · have hmem : y ∈ Function.update L b (x :: L b) b' ↔ y ∈ L b' := by
        by_cases hbb : b' = b
        · subst hbb
          simp [hyx]
        · rw [Function.update_of_ne hbb]
      rw [hmem, Function.update_of_ne hyx]
      exact h.mem b' y
  · intro y hy
    rcases hon y hy with rfl | ⟨-, hy, -⟩
    · exact hslot
    · exact h.slot y hy
  · intro y hy
    rcases hon y hy with rfl | ⟨-, hy, -⟩
    · exact hopen
    · exact h.opened y hy
  · intro y hy
    rcases hon y hy with rfl | ⟨-, hy, heq⟩
    · simpa using hs
    · rw [heq]
      exact h.state y hy
  · intro y z hy hz heq
    rcases hon y hy with rfl | ⟨-, hy', hye⟩ <;> rcases hon z hz with rfl | ⟨-, hz', hze⟩
    · rfl
    · rw [hze, Function.update_self] at heq
      exact absurd heq.symm (hnew z hz')
    · rw [hye, Function.update_self] at heq
      exact absurd heq (hnew y hy')
    · rw [hye, hze] at heq
      exact h.unique y z hy' hz' heq
  · intro y hy
    have hyx : y ≠ x := by
      rintro rfl
      exact Bool.false_ne_true (hfresh.symm.trans hy)
    rw [Function.update_of_ne hyx]
    exact h.fresh y hy
  · intro fid y
    rw [dtpAddContextToFlowIDMap, standing_added]
    simp only [FlowHost.set]
    rw [h.log]
    by_cases hyx : y = x
    · subst hyx
      simp [hoff, eq_comm]
    · simp [hyx]

end

/-- What `DTPRemoveContextFromFlowIDMap` leaves of the rest. -/
theorem dtpRemoveContextFromFlowIDMap_frame (s : FlowHost) (x : ℕ) : (s.dtpRemoveContextFromFlowIDMap x).opened =
    s.opened ∧ (s.dtpRemoveContextFromFlowIDMap x).fresh = s.fresh ∧ (s.dtpRemoveContextFromFlowIDMap x).ctx =
    Function.update s.ctx x { s.ctx x with onFlowIDMap := false } := by
  rw [dtpRemoveContextFromFlowIDMap]
  by_cases hon : (s.ctx x).onFlowIDMap = true
  · rw [if_pos hon]
    exact ⟨rfl, rfl, rfl⟩
  · rw [if_neg hon]
    refine ⟨rfl, rfl, ?_⟩
    have hsame : { s.ctx x with onFlowIDMap := false } = s.ctx x := by
      rw [← Bool.eq_false_of_not_eq_true hon]
    rw [hsame, Function.update_eq_self]

theorem Mapped.settle (h : s.Mapped L) (hook : Hooked (s.ctx x) c)
    (hc : (s.ctx x).onFlowIDMap = true → c.flowID = (s.ctx x).flowID ∧ c.state ≠ .synSent) :
    ∃ L', (s.settle x c).Mapped L' := by
  -- the socket of a context that stays on the map stays open
  have hopen : ∀ y, (Function.update s.ctx x c y).onFlowIDMap = true → Function.update s.opened x
      (s.opened x && !((s.ctx x).isActive && !c.isActive)) y = true := by
    intro y hy
    by_cases hyx : y = x
    · subst hyx
      rw [Function.update_self] at hy ⊢
      rcases hook with ⟨hm, ha⟩ | ⟨hm, -⟩
      · have hon := h.opened y (hm.symm.trans hy)
        simp [hon, ha]
      · simp [hm] at hy
    · rw [Function.update_of_ne hyx] at hy ⊢
      exact h.opened y hy
  by_cases hon : c.onFlowIDMap = true
  · have hm : c.onFlowIDMap = (s.ctx x).onFlowIDMap := by
      rcases hook with ⟨hm, -⟩ | ⟨hm, -⟩
      · exact hm
      · simp [hm] at hon
    have hset := h.set hm hc
    refine ⟨L, ?_⟩
    rw [FlowHost.settle, if_pos hon]
    exact hset.sockets hopen hset.fresh
  · have hkept : (s.set x { c with onFlowIDMap := (s.ctx x).onFlowIDMap }).Mapped L := h.set rfl hc
    obtain ⟨L', hgone⟩ := hkept.remove x
    obtain ⟨-, hfresh, hctx⟩ := dtpRemoveContextFromFlowIDMap_frame
      (s.set x { c with onFlowIDMap := (s.ctx x).onFlowIDMap }) x
    have hoff : { c with onFlowIDMap := false } = c := by rw [← Bool.eq_false_of_not_eq_true hon]
    have hctx' : ((s.set x { c with onFlowIDMap := (s.ctx x).onFlowIDMap }).dtpRemoveContextFromFlowIDMap
        x).ctx = Function.update s.ctx x c := by
      rw [hctx]
      simp [FlowHost.set, hoff]
    refine ⟨L', ?_⟩
    rw [FlowHost.settle, if_neg hon]
    refine hgone.sockets ?_ hgone.fresh
    rw [hctx']
    exact hopen

theorem Mapped.dtpCreateContext (h : s.Mapped L) {r : Creation} (hr : s.admits r) :
    (s.dtpCreateContext r).1.Mapped L := by
  cases r with
  | failed => exact h
  | made x c =>
    obtain ⟨hclosed, hzero, -⟩ := hr
    have hoff : (s.ctx x).onFlowIDMap = false := by
      by_contra hon
      simp [h.opened x (by simpa using hon)] at hclosed
    have hclear := h.clear hoff hzero.onFlowIDMap
    simp only [FlowHost.dtpCreateContext]
    split_ifs
    · refine hclear.sockets (fun y hy => ?_) fun y hy => ?_
      · by_cases hyx : y = x
        · simp [hyx]
        · rw [Function.update_of_ne hyx]
          exact hclear.opened y hy
      · by_cases hyx : y = x
        · simp [hyx] at hy
        · rw [Function.update_of_ne hyx] at hy
          exact hclear.fresh y hy
    · exact h
  | undone x c =>
    obtain ⟨hclosed, hzero⟩ := hr
    have hoff : (s.ctx x).onFlowIDMap = false := by
      by_contra hon
      simp [h.opened x (by simpa using hon)] at hclosed
    simp only [FlowHost.dtpCreateContext]
    split_ifs
    · exact h.clear hoff hzero.onFlowIDMap
    · exact h

theorem dtpCreateContext_some {r : Creation} (hr : s.admits r) (hx : (s.dtpCreateContext r).2 = some x) :
    ((s.dtpCreateContext r).1.ctx x).onFlowIDMap = false ∧ x < numSlots ∧
      (s.dtpCreateContext r).1.opened x = true ∧ (s.dtpCreateContext r).1.fresh x = false ∧
      (s.dtpCreateContext r).1.log = s.log ∧ s.opened x = false ∧
      ∀ y, y ≠ x → (s.dtpCreateContext r).1.ctx y = s.ctx y := by
  cases r with
  | failed => simp [FlowHost.dtpCreateContext] at hx
  | undone x c =>
    simp only [FlowHost.dtpCreateContext] at hx
    split_ifs at hx
  | made z c =>
    simp only [FlowHost.dtpCreateContext] at hx ⊢
    split_ifs at hx ⊢ with hslot
    obtain rfl := Option.some.inj hx
    refine ⟨?_, hslot, by simp, by simp, rfl, hr.1, fun y hy => ?_⟩
    · simpa [FlowHost.set] using hr.2.1.onFlowIDMap
    · simp [FlowHost.set, hy]

/-! ## Looking up -/

/-- A queue is no longer than there are contexts. -/
theorem Mapped.length_le (h : s.Mapped L) (b : ℕ) : (L b).length ≤ numSlots := by
  have hsub : L b ⊆ List.range numSlots := by
    intro x hx
    rw [List.mem_range]
    exact h.slot x ((h.mem b x).mp hx).1
  calc (L b).length ≤ (List.range numSlots).length :=
        (List.subperm_of_subset (h.holds.nodup b) hsub).length_le
    _ = numSlots := List.length_range

theorem Mapped.linked_iff (h : s.Mapped L) : s.linked x ↔ (s.ctx x).onFlowIDMap = true := by
  have hvisits : ∀ b, s.links.visits numSlots (s.links.first b) = L b :=
    fun b => (h.holds.chain b).visits_eq (h.length_le b)
  simp only [linked, hvisits, h.mem]
  exact ⟨fun hx => hx.choose_spec.1, fun hx => ⟨_, hx, rfl⟩⟩

theorem Mapped.lookup (h : s.Mapped L) (fid : UInt32) :
    ∃ o, s.dtpGetContextByFlowID fid = some o ∧
      ∀ x, o = some x ↔ (s.ctx x).onFlowIDMap = true ∧ (s.ctx x).flowID = fid := by
  generalize hb : hashToFidmapBin fid = b
  have hfind := (h.holds.chain b).find_eq (fun x => (s.ctx x).flowID == fid) (h.length_le b)
  refine ⟨_, by rw [dtpGetContextByFlowID, hb]; exact hfind, fun x => ⟨fun hx => ?_, fun hx => ?_⟩⟩
  · have hfid := List.find?_some hx
    exact ⟨((h.mem b x).mp (List.mem_of_find?_eq_some hx)).1, by simpa using hfid⟩
  · have hmem : x ∈ L b := (h.mem b x).mpr ⟨hx.1, by rw [hx.2, hb]⟩
    cases hres : (L b).find? fun y => (s.ctx y).flowID == fid with
    | none =>
      rw [List.find?_eq_none] at hres
      exact absurd hx.2 (by simpa using hres x hmem)
    | some y =>
      have hy := List.find?_some hres
      have hyon := ((h.mem b y).mp (List.mem_of_find?_eq_some hres)).1
      rw [h.unique y x hyon hx.1 (by rw [hx.2]; simpa using hy)]

/-! ## The steps -/

theorem dtpHandleKey_frame (rsa : Rsa) (c : DtpContext) (d : Datagram) (key : List UInt8) (pad : ℕ) (isResend : Bool) :
    (c.dtpHandleKey rsa d key pad isResend).onFlowIDMap = c.onFlowIDMap ∧
    (c.dtpHandleKey rsa d key pad isResend).flowID = c.flowID ∧ (c.dtpHandleKey rsa d key pad isResend).state =
    c.state := by
  simp only [dtpHandleKey]
  split <;> cases isResend <;> exact ⟨rfl, rfl, rfl⟩

theorem repeatSYN_frame (rsa : Rsa) (c : DtpContext) (d : Datagram) (addr : SockAddr) (hid key : List UInt8) (pad : ℕ) :
    (c.repeatSYN rsa d addr hid key pad).onFlowIDMap = c.onFlowIDMap ∧ (c.repeatSYN rsa d addr hid key pad).flowID =
    c.flowID ∧ (c.repeatSYN rsa d addr hid key pad).state = c.state := by
  simp only [repeatSYN]
  split_ifs
  · exact dtpHandleKey_frame rsa (c.rebind addr) d key pad true
  · exact ⟨rfl, rfl, rfl⟩

theorem handleSYNPacket_outcome {rsa : Rsa} {env : SynEnv} {flow : Option DtpContext} {d : Datagram}
    {addr : SockAddr} {o : SynOutcome}
    (h : DtpContext.handleSYNPacket rsa env flow d addr = .ok o) :
    match o with
    | .known c => ∃ c₀, flow = some c₀ ∧ c.onFlowIDMap = c₀.onFlowIDMap ∧ c.flowID = c₀.flowID ∧ c.state = c₀.state
    | .created c => flow = none ∧ c.flowID = d.hdr.fid ∧ c.state = .synRcvd
    | .refused => True := by
  simp only [DtpContext.handleSYNPacket, bind, Except.bind] at h
  cases hopt : dtpGetOption d env.hid (some 0) with
  | error f => simp [hopt] at h
  | ok p =>
    simp only [hopt] at h
    cases flow with
    | some c =>
      simp only [pure, Except.pure, Except.ok.injEq] at h
      subst h
      exact ⟨c, rfl, repeatSYN_frame rsa c d addr p.1 env.key env.pad⟩
    | none =>
      simp only at h
      split_ifs at h
      · cases hparse : dtpParseOption d env.fresh.sendWindowScale addr.port with
        | error f => simp [hparse] at h
        | ok t =>
          simp only [hparse, pure, Except.pure, Except.ok.injEq] at h
          subst h
          obtain ⟨-, hfid, hstate⟩ := dtpHandleKey_frame rsa
            (acceptSYN env.fresh d addr p.1 (p.2.getD 0) t.1 t.2) d env.key env.pad false
          exact ⟨rfl, hfid, hstate⟩
      · simp only [pure, Except.pure, Except.ok.injEq] at h
        subst h
        trivial

theorem Mapped.handleSYNPacket (h : s.Mapped L) (k : Crypto) (sock : ℕ) {r : Creation}
    (hr : s.admits r) (d : Datagram) (addr : SockAddr) (hid key : List UInt8) (pad : ℕ) :
    ∃ L', (s.handleSYNPacket k sock r d addr hid key pad).Mapped L' := by
  obtain ⟨flow, hflow, hiff⟩ := h.lookup d.hdr.fid
  simp only [FlowHost.handleSYNPacket, hflow]
  split
  · exact ⟨L, h⟩
  · -- the context is answered again, or refused
    rename_i c hok
    obtain ⟨c₀, hc₀, hm, hfid, hs⟩ := handleSYNPacket_outcome hok
    cases flow with
    | none => exact ⟨L, h⟩
    | some x =>
      obtain rfl := Option.some.inj hc₀
      refine ⟨L, h.set hm fun hon => ⟨hfid, ?_⟩⟩
      rw [hs]
      exact h.state x hon
  · refine ⟨L, h.set rfl fun hon => ⟨rfl, ?_⟩⟩
    exact h.state sock hon
  · -- a new context; no other has its flow ID
    rename_i c hok
    obtain ⟨hnone, hfid, hs⟩ := handleSYNPacket_outcome hok
    have hnew : ∀ y, (s.ctx y).onFlowIDMap = true → (s.ctx y).flowID ≠ c.flowID := by
      intro y hy heq
      rw [(hiff y).mpr ⟨hy, heq.trans hfid⟩] at hnone
      simp at hnone
    have hcreated := h.dtpCreateContext hr
    cases hx : (s.dtpCreateContext r).2 with
    | none =>
      refine ⟨L, ?_⟩
      split
      · rename_i s' heq
        rwa [heq] at hcreated
      · rename_i s' x heq
        simp [heq] at hx
    | some x =>
      obtain ⟨hoff, hslot, hopen, hfresh, -, hclosed, hrest⟩ := dtpCreateContext_some hr hx
      have hnew' : ∀ y, ((s.dtpCreateContext r).1.ctx y).onFlowIDMap = true →
          ((s.dtpCreateContext r).1.ctx y).flowID ≠ c.flowID := by
        intro y hy
        by_cases hyx : y = x
        · rw [hyx, hoff] at hy
          simp at hy
        · rw [hrest y hyx] at hy ⊢
          exact hnew y hy
      obtain ⟨L', hadd⟩ := hcreated.add hoff hslot hopen hfresh (c := c) (by simp [hs]) hnew'
      split
      · rename_i s' heq
        simp [heq] at hx
      · rename_i s' x' heq
        simp only [heq, Option.some.injEq] at hx hadd
        subst hx
        rw [hfid] at hadd
        refine ⟨L', hadd.set rfl fun hon => ⟨rfl, ?_⟩⟩
        exact hadd.state sock hon

theorem dtpListen_frame (c : DtpContext) (bound alloc : Bool) (backlog : ℤ) :
    (c.dtpListen bound alloc backlog).1.onFlowIDMap = c.onFlowIDMap ∧ (c.dtpListen bound alloc backlog).1.flowID =
    c.flowID ∧
    ((c.dtpListen bound alloc backlog).1.state = c.state ∨ (c.dtpListen bound alloc backlog).1.state = .listen) := by
  simp only [dtpListen]
  split_ifs <;> simp

theorem acceptBody_frame (c : DtpContext) (a : AcceptArgs) : (c.acceptBody a).1.onFlowIDMap = c.onFlowIDMap ∧
    (c.acceptBody a).1.flowID = c.flowID ∧ (c.acceptBody a).1.state = c.state := by
  simp only [acceptBody]
  split
  · split_ifs <;> exact ⟨rfl, rfl, rfl⟩
  · exact ⟨rfl, rfl, rfl⟩

/-- A step of an open connection keeps the flow ID of a context on the map. -/
theorem Mapped.settle_onward (h : s.Mapped L) (hook : Hooked (s.ctx x) c)
    (hc : (s.ctx x).state ≠ .synSent → Onward (s.ctx x) c) : ∃ L', (s.settle x c).Mapped L' := by
  refine h.settle hook fun hon => ?_
  have hs := h.state x hon
  have honward := hc hs
  refine ⟨congrArg Settled.flowID honward.settled, fun hsent => hs ?_⟩
  have hleads := honward.state
  rw [hsent] at hleads
  exact SockState.leads_synSent hleads

theorem Mapped.apply (h : s.Mapped L) (k : Crypto) {e : FlowEvent} (he : s.allowed e) :
    ∃ L', (s.apply k e).Mapped L' := by
  cases e with
  | socket r =>
    refine ⟨L, ?_⟩
    have hcreated := h.dtpCreateContext he
    simp only [FlowHost.apply, dtpSocket]
    split
    · rename_i s' heq
      rwa [heq] at hcreated
    · rename_i s' x heq
      have hx : (s.dtpCreateContext r).2 = some x := by rw [heq]
      obtain ⟨hoff, -⟩ := dtpCreateContext_some he hx
      rw [heq] at hcreated hoff
      refine hcreated.sockets hcreated.opened fun y hy => ?_
      by_cases hyx : y = x
      · rwa [hyx]
      · rw [Function.update_of_ne hyx] at hy
        exact hcreated.fresh y hy
  | connect x addr fid n e =>
    have hoff := h.fresh x he
    have hook : Hooked (s.ctx x) ((s.ctx x).dtpConnect addr fid n e) := by
      have hstart : Hooked (s.ctx x) ((s.ctx x).startConnect addr fid n e) := .same rfl rfl
      exact hstart.trans (.of_acts (.dtpWriteAvail _))
    have hm : ((s.ctx x).dtpConnect addr fid n e).onFlowIDMap = (s.ctx x).onFlowIDMap := by
      rcases hook with ⟨hm, -⟩ | ⟨hm, -⟩
      · exact hm
      · rw [hm, hoff]
    have hset := h.set hm fun hon => by simp [hoff] at hon
    refine ⟨L, hset.sockets hset.opened fun y hy => ?_⟩
    by_cases hyx : y = x
    · simp [hyx] at hy
    · rw [Function.update_of_ne hyx] at hy
      exact hset.fresh y hy
  | listen x bound alloc backlog =>
    obtain ⟨hm, hfid, hs⟩ := dtpListen_frame (s.ctx x) bound alloc backlog
    refine ⟨L, h.set hm fun hon => ⟨hfid, ?_⟩⟩
    rcases hs with hs | hs
    · rw [hs]
      exact h.state x hon
    · simp [hs]
  | accept x a =>
    obtain ⟨hm, hfid, hs⟩ := acceptBody_frame (s.ctx x) a
    exact ⟨L, h.set hm fun hon => ⟨hfid, hs ▸ h.state x hon⟩⟩
  | setsockopt x o env =>
    obtain ⟨hm, hfid, hs⟩ := dtpSetsockopt_frame (s.ctx x) o env
    exact ⟨L, h.set hm fun hon => ⟨hfid, hs ▸ h.state x hon⟩⟩
  | syn sock r d addr hid key pad => exact h.handleSYNPacket k sock he d addr hid key pad
  | event x e => exact h.settle_onward (Hooked.apply k _ e) fun hs => Onward.apply k (.inl hs)
  | closeContext x => exact h.settle_onward (Hooked.dtpCloseContext _) fun _ => Onward.dtpCloseContext _

end FlowHost

/-! ## All runs -/

/-- The flow-ID map is a finite map: in every state of a host at most one linked context has a flow ID,
and a search finds the context that was added with the flow ID and not removed since, if there is
one. -/
theorem flow_map_is_finite_map {k : Crypto} {s : FlowHost} (hs : (flowMapping k).Reachable s) :
    (∀ x y, s.linked x → s.linked y → (s.ctx x).flowID = (s.ctx y).flowID → x = y) ∧
      ∀ fid, (∀ x, s.dtpGetContextByFlowID fid = some (some x) ↔ Standing s.log fid x) ∧
        (s.dtpGetContextByFlowID fid = some none ↔ ∀ x, ¬Standing s.log fid x) := by
  obtain ⟨L, h⟩ : ∃ L, s.Mapped L := by
    refine Machine.Reachable.invariant (P := fun s => ∃ L, s.Mapped L) ?_ ?_ hs
    · rintro s rfl
      exact ⟨_, FlowHost.mapped_start⟩
    · rintro s e ⟨L, h⟩ he
      exact h.apply k he
  refine ⟨fun x y hx hy heq => ?_, fun fid => ?_⟩
  · exact h.unique x y (h.linked_iff.mp hx) (h.linked_iff.mp hy) heq
  · obtain ⟨o, hfind, hiff⟩ := h.lookup fid
    have hsome : ∀ x, s.dtpGetContextByFlowID fid = some (some x) ↔ Standing s.log fid x := by
      intro x
      rw [hfind, Option.some.injEq, hiff, h.log]
    refine ⟨hsome, ?_⟩
    simp only [← hsome, hfind, Option.some.injEq]
    cases o <;> simp

def flowSYN (fid : UInt32) : Datagram where
  hdr := { syn := true, fid := fid, seq := 0, ackSeq := 0, doff := 5, windowSize := 0 }
  len := 20
  opts := fun _ => 0
  body := fun _ => 0

/-- Two flows in one queue; the first is closed, and its socket is used again for a third in the same
queue. -/
def collidingFlows : List FlowEvent :=
  [.socket (.made 3 { isActive := true }), .listen 3 true true 5,
    .syn 3 (.made 4 { isActive := true }) (flowSYN 1) default [] [] 0,
    .syn 3 (.made 5 { isActive := true }) (flowSYN 65537) default [] [] 0, .closeContext 4,
    .syn 3 (.made 4 { isActive := true }) (flowSYN 131073) default [] [] 0]

/-- The third flow is found under its own flow ID, and the first is not found any more. -/
theorem flow_map_is_finite_map_reused :
    ((flowMapping sampleCrypto).run .start collidingFlows).dtpGetContextByFlowID 131073 = some (some 4) ∧
    ((flowMapping sampleCrypto).run .start collidingFlows).dtpGetContextByFlowID 65537 = some (some 5) ∧
    ((flowMapping sampleCrypto).run .start collidingFlows).dtpGetContextByFlowID 1 = some none := by
  have hzero : ({ isActive := true } : DtpContext).Zeroed := ⟨rfl, rfl, rfl⟩
  have hadm : (flowMapping sampleCrypto).Admits .start collidingFlows := by
    refine ⟨⟨?_, hzero, ?_⟩, trivial, ⟨?_, hzero, ?_⟩, ⟨?_, hzero, ?_⟩, trivial, ⟨?_, hzero, ?_⟩, trivial⟩
    all_goals decide +kernel
  have hlog : ((flowMapping sampleCrypto).run .start collidingFlows).log =
      [.added 1 4, .added 65537 5, .removed 4, .added 131073 4] := by
    decide +kernel
  have hs : (flowMapping sampleCrypto).Reachable ((flowMapping sampleCrypto).run .start collidingFlows) :=
    (Machine.Reachable.init rfl).run hadm
  obtain ⟨-, hmap⟩ := flow_map_is_finite_map hs
  rw [hlog] at hmap
  refine ⟨((hmap 131073).1 4).mpr ⟨[.added 1 4, .added 65537 5, .removed 4], [], rfl, by simp⟩,
    ((hmap 65537).1 5).mpr ⟨[.added 1 4], [.removed 4, .added 131073 4], rfl, by simp⟩, (hmap 1).2.mpr fun x => ?_⟩
  have hsplit : [MapOp.added 1 4, .added 65537 5, .removed 4, .added 131073 4] =
      ((([] ++ [.added 1 4]) ++ [.added 65537 5]) ++ [.removed 4]) ++ [.added 131073 4] := rfl
  rw [hsplit, standing_added, standing_removed, standing_added, standing_added]
  simp [Standing]

end Cedos.Dtp
