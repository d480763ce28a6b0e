import Cedos.Lib.ItemPool
import Cedos.Lib.NextLinks
import Cedos.Dtp.Reassembly

/-!
# Buffer nodes in memory

`Receive.lean` has the list `tc_readBufHead` as a list of values. Here its nodes have addresses: they come
from a free list, are linked by `next_buf`, and go back. The insertion loop of `HandleNormalPacket` is
translated with its pointers `cur_buf`, `temp_buf`, `prev_buf` and `pprev_buf`, and it is shown to leave in
memory the list that `insertBuffer` computes.

Every node is accounted for on the way. The nodes of the free list, the node `cur_buf`, those passed and those
ahead are always the same nodes, up to their order.
-/

namespace Cedos.Dtp

/-! ## The pool -/

/-- The nodes by their addresses, with the free list `g_freeBufferList` and its count `g_freeBufferCount`. -/
structure NodePool extends ItemPool where
  node : ℕ → Buffer
  /-- `next_buf` -/
  next : ℕ → Option ℕ

/-- `BATCH_SIZE` of `dtp.c`. -/
def nodeBatch : ℕ := 4096

namespace NodePool

def setNode (p : NodePool) (a : ℕ) (b : Buffer) : NodePool := { p with node := Function.update p.node a b }

/-- Store to the link of a node. -/
def setNext (p : NodePool) (a : ℕ) (v : Option ℕ) : NodePool := { p with next := Function.update p.next a v }

/-- `AddToFreeBufferList`. -/
def addToFreeBufferList (p : NodePool) (a : ℕ) : NodePool :=
  { p with
    toItemPool := p.put a
    node := Function.update p.node a ⟨0, 0⟩
    next := Function.update p.next a none }

/-- One round of `AllocateMoreBuffer`; `calloc` clears the node as `AddToFreeBufferList` does. -/
def allocateBuffer (p : NodePool) : NodePool := { p with brk := p.brk + 1 }.addToFreeBufferList p.brk

def allocateMoreBuffer (p : NodePool) : NodePool := allocateBuffer^[nodeBatch] p

/-- `RemoveFromFreeBufferList` and `GetBuffer`. -/
def getBuffer (p : NodePool) : NodePool × Option ℕ :=
  let p := match p.free.first () with
    | none => p.allocateMoreBuffer
    | some _ => p
  match p.free.first () with
  | none => (p, none)
  | some a => ({ p with toItemPool := p.take a }, some a)

end NodePool

/-! ## Inserting a segment -/

/-- The variables of the insertion loop. -/
structure Insertion where
  pool : NodePool
  /-- `tc_readBufHead` -/
  head : Option ℕ
  cur : ℕ
  temp : Option ℕ
  prev : Option ℕ
  pprev : Option ℕ
  merged : Bool
  writeLen : ℤ

namespace Insertion

/-- The node `t` has been passed. -/
def skip (s : Insertion) (t : ℕ) : Insertion :=
  { s with pprev := s.prev, prev := some t, temp := s.pool.next t }

/-- The node `t` has taken the union, and the node that carried the interval before is freed. -/
def absorb (s : Insertion) (t : ℕ) (union : Buffer) (overlapLen : ℤ) : Insertion :=
  -- it is unlinked only if it is the one before `t`
  let r := if s.prev = some s.cur then relink s.pool.next s.head s.pprev (some t) else (s.pool.next, s.head)
  let prev := if s.prev = some s.cur then s.pprev else s.prev
  let pool := { s.pool.setNode t union with next := r.1 }.addToFreeBufferList s.cur
  { pool, head := r.2, cur := t, temp := pool.next t, prev := some t, pprev := prev, merged := true
    writeLen := if 0 < overlapLen then s.writeLen - overlapLen else s.writeLen }

/-- The loop; `none` if it has not ended after that many rounds. -/
def loop : ℕ → Insertion → Option Insertion
  | rounds, s =>
    match s.temp with
    | none => some s
    | some t =>
      if (s.pool.node s.cur).stop < (s.pool.node t).seq then some s
      else match rounds with
        | 0 => none
        | rounds + 1 =>
          match calculateOverlap (s.pool.node s.cur).seq (s.pool.node s.cur).len (s.pool.node t) with
          | some (union, overlapLen) => loop rounds (s.absorb t union overlapLen)
          | none => loop rounds (s.skip t)

/-- The branch for a segment that met no node; `none` if it writes through a null `prev_buf`. -/
def link (start : UInt32) (s : Insertion) : Option Insertion :=
  if s.merged then some s
  else match s.head with
    | none => some { s with head := some s.cur }
    | some h =>
      if start < (s.pool.node h).stop then
        some { s with pool := s.pool.setNext s.cur (some h), head := some s.cur }
      else match s.prev with
        | none => none
        | some q => some { s with pool := (s.pool.setNext q (some s.cur)).setNext s.cur s.temp }

end Insertion

/-- `HandleNormalPacket` from its `GetBuffer` on, until the segment is in the list. No list is longer than
there are nodes. -/
def NodePool.insert (p : NodePool) (head : Option ℕ) (start : UInt32) (writeLen : ℤ) : Option Insertion :=
  match p.getBuffer with
  | (_, none) => none
  | (p, some a) =>
    let p := (p.setNode a ⟨start, u32 writeLen⟩).setNext a none
    (Insertion.loop p.brk ⟨p, head, a, head, none, none, false, writeLen⟩).bind (Insertion.link start)

/-- The loop of `DTPCloseContext`, which frees a list from a node on. -/
def NodePool.freeAll : ℕ → NodePool → Option ℕ → Option NodePool
  | _, p, none => some p
  | 0, _, some _ => none
  | rounds + 1, p, some a => freeAll rounds (p.addToFreeBufferList a) (p.next a)

/-! ## Free nodes -/

namespace NodePool
variable {p : NodePool} {F : List ℕ} {a : ℕ}

/-- The free list consists of these nodes, and they are counted. -/
def Free (p : NodePool) (F : List ℕ) : Prop := p.toItemPool.Free F

theorem Free.congr (h : p.Free F) {p' : NodePool} (hp : p'.toItemPool = p.toItemPool) : p'.Free F := by
  rw [Free, hp]
  exact h

theorem Free.addToFreeBufferList (h : p.Free F) (ha : a ∉ F) (hb : a < p.brk) :
    (p.addToFreeBufferList a).Free (a :: F) := ItemPool.Free.put h ha hb

/-- The nodes below an address are the same in both. -/
def SameBelow (n : ℕ) (p p' : NodePool) : Prop := ∀ a < n, p'.node a = p.node a ∧ p'.next a = p.next a

theorem toItemPool_allocateMoreBuffer (p : NodePool) :
    p.allocateMoreBuffer.toItemPool = ItemPool.allocate^[nodeBatch] p.toItemPool := by
  have hone : Function.Semiconj NodePool.toItemPool allocateBuffer ItemPool.allocate := fun _ => rfl
  exact hone.iterate_right nodeBatch p

theorem allocateMoreBuffer_below (p : NodePool) : SameBelow p.brk p p.allocateMoreBuffer := by
  rw [allocateMoreBuffer]
  generalize nodeBatch = n
  suffices h : p.brk ≤ (allocateBuffer^[n] p).brk ∧ SameBelow p.brk p (allocateBuffer^[n] p) from h.2
  induction n with
  | zero => exact ⟨le_rfl, fun a _ => ⟨rfl, rfl⟩⟩
  | succ n ih =>
    obtain ⟨hle, hsame⟩ := ih
    rw [Function.iterate_succ_apply']
    generalize allocateBuffer^[n] p = t at hle hsame
    refine ⟨hle.trans (Nat.le_succ _), fun a ha => ?_⟩
    have hne : a ≠ t.brk := by omega
    obtain ⟨h0, h1⟩ := hsame a ha
    exact ⟨(Function.update_of_ne hne _ _).trans h0, (Function.update_of_ne hne _ _).trans h1⟩

/-- `GetBuffer` returns a node that was free or is new. -/
theorem Free.getBuffer (h : p.Free F) : ∃ p' a F' n, p.getBuffer = (p', some a) ∧ p'.Free F' ∧
    p'.brk = p.brk + n ∧ (a :: F').Perm (List.range' p.brk n ++ F) ∧ SameBelow p.brk p p' := by
  have hpos : nodeBatch ≠ 0 := by decide
  obtain ⟨a, F', n, hfree, hbrk, hperm, -⟩ := ItemPool.Free.refill h hpos
  -- the same with the nodes
  obtain ⟨t, ht, hrefill, hsame⟩ : ∃ t : NodePool, (match p.free.first () with
      | none => p.allocateMoreBuffer
      | some _ => p) = t ∧ t.toItemPool = p.toItemPool.refill nodeBatch ∧ SameBelow p.brk p t := by
    refine ⟨_, rfl, ?_, ?_⟩
    · rw [ItemPool.refill]
      cases p.free.first () with
      | none => exact toItemPool_allocateMoreBuffer p
      | some _ => rfl
    · cases p.free.first () with
      | none => exact allocateMoreBuffer_below p
      | some _ => exact fun a _ => ⟨rfl, rfl⟩
  rw [← hrefill] at hfree hbrk
  have hfirst : t.free.first () = some a := hfree.first
  refine ⟨{ t with toItemPool := t.take a }, a, F', n, ?_, hfree.take, hbrk, hperm, hsame⟩
  rw [NodePool.getBuffer]
  simp only [ht, hfirst]

/-! ## The loop -/

/-- The loop is where the walk `w` over values is: the nodes of `pre` have been passed, the nearest first, and those of
`rest` are ahead. `A` are all the nodes it has to do with, `as₀` the list it began with. -/
structure LoopAt (A as₀ : List ℕ) (p₀ : NodePool) (s : Insertion) (w : Walk) (F pre rest : List ℕ) : Prop where
  free : s.pool.Free F
  brk : s.pool.brk = p₀.brk
  perm : (F ++ s.cur :: (pre ++ rest)).Perm A
  list : Seg s.pool.next s.head (pre.reverse ++ if w.linked then s.cur :: rest else rest) none
  prev : s.prev = if w.linked then some s.cur else pre.head?
  pprev : w.linked = true → s.pprev = pre.head?
  temp : s.temp = rest.head?
  loose : w.linked = false → s.pool.next s.cur = none
  before : pre.map s.pool.node = w.before
  cur : s.pool.node s.cur = w.cur
  merged : s.merged = w.merged
  writeLen : s.writeLen = w.writeLen
  whole : w.merged = false → pre.reverse ++ rest = as₀
  frame : ∀ a, a ∉ A → s.pool.node a = p₀.node a ∧ s.pool.next a = p₀.next a

namespace LoopAt
variable {A as₀ F pre rest : List ℕ} {p₀ : NodePool} {s : Insertion} {w : Walk} {t : ℕ}

section
variable (h : LoopAt A as₀ p₀ s w F pre rest)
include h

theorem apart (hA : A.Nodup) :
    s.cur ∉ F ∧ s.cur ∉ pre ∧ s.cur ∉ rest ∧ pre.Nodup ∧ rest.Nodup ∧ ∀ x ∈ pre, x ∉ rest := by
  have hnd := h.perm.nodup_iff.mpr hA
  obtain ⟨-, hcons, hF⟩ := List.nodup_append.mp hnd
  obtain ⟨hcur, hboth⟩ := List.nodup_cons.mp hcons
  obtain ⟨hpre, hrest, hdis⟩ := List.nodup_append.mp hboth
  rw [List.mem_append, not_or] at hcur
  exact ⟨fun hx => hF _ hx _ List.mem_cons_self rfl, hcur.1, hcur.2, hpre, hrest, fun x hx hx' => hdis x hx x hx' rfl⟩

theorem mem_cur : s.cur ∈ A :=
  h.perm.subset (List.mem_append_right F List.mem_cons_self)

theorem mem_pre {x : ℕ} (hx : x ∈ pre) : x ∈ A :=
  h.perm.subset (List.mem_append_right F (List.mem_cons_of_mem _ (List.mem_append_left rest hx)))

theorem mem_rest {x : ℕ} (hx : x ∈ rest) : x ∈ A :=
  h.perm.subset (List.mem_append_right F (List.mem_cons_of_mem _ (List.mem_append_right pre hx)))

end

theorem skip (h : LoopAt A as₀ p₀ s w F pre (t :: rest)) (hl : w.linked = false) :
    LoopAt A as₀ p₀ (s.skip t) { w with before := s.pool.node t :: w.before, linked := false } F (t :: pre) rest := by
  have hlist := h.list
  simp only [hl, Bool.false_eq_true, if_false] at hlist
  refine ⟨h.free, h.brk, ?_, ?_, rfl, fun hf => absurd hf (by simp), hlist.next_eq, fun _ => h.loose hl, ?_, h.cur,
    h.merged, h.writeLen, ?_, h.frame⟩
  · exact (((List.perm_middle).symm.cons s.cur).append_left F).trans h.perm
  · simpa [Insertion.skip] using hlist
  · simp [Insertion.skip, h.before]
  · intro hm
    have hwhole := h.whole hm
    simpa using hwhole

/-- The stores of `absorb` to the nodes that stay. -/
theorem node_absorb {u : Buffer} {n : ℤ} {x : ℕ} (hxt : x ≠ t) (hxc : x ≠ s.cur) :
    (s.absorb t u n).pool.node x = s.pool.node x := by
  change Function.update (Function.update s.pool.node t u) s.cur ⟨0, 0⟩ x = _
  rw [Function.update_of_ne hxc, Function.update_of_ne hxt]

/-- `t` carries the interval from now on. -/
theorem absorb (h : LoopAt A as₀ p₀ s w F pre (t :: rest)) (hA : A.Nodup) (hb : ∀ a ∈ A, a < p₀.brk) (u : Buffer) (n : ℤ) :
    LoopAt A as₀ p₀ (s.absorb t u n)
        { before := w.before, cur := u, linked := true, merged := true
          writeLen := if 0 < n then w.writeLen - n else w.writeLen
          fault := w.fault || (w.merged && !w.linked) } (s.cur :: F) pre rest ∧
      rest.map (s.absorb t u n).pool.node = rest.map s.pool.node := by
  obtain ⟨hcF, hcpre, hcrest, hpre, hrest, hdis⟩ := h.apart hA
  obtain ⟨htrest, -⟩ := List.nodup_cons.mp hrest
  rw [List.mem_cons, not_or] at hcrest
  have htpre : t ∉ pre := fun hx => hdis t hx List.mem_cons_self
  -- the links after the carrier has been unlinked, if it was linked
  obtain ⟨r, hr, hlinks, hpp, hframe⟩ : ∃ r : (ℕ → Option ℕ) × Option ℕ,
      (if s.prev = some s.cur then relink s.pool.next s.head s.pprev (some t) else (s.pool.next, s.head)) = r ∧
      Seg r.1 r.2 (pre.reverse ++ t :: rest) none ∧
      (if s.prev = some s.cur then s.pprev else s.prev) = pre.head? ∧ ∀ a ∉ pre, r.1 a = s.pool.next a := by
    cases hl : w.linked with
    | true =>
      have hprev : s.prev = some s.cur := by
        rw [h.prev, hl, if_pos rfl]
      have hlist := h.list
      simp only [hl, if_true] at hlist
      obtain ⟨m, -, hm⟩ := Seg.append_iff.mp hlist
      have hnext : s.pool.next s.cur = some t := hm.2.1
      have htail : Seg s.pool.next (some t) (t :: rest) none := hnext ▸ hm.2
      refine ⟨_, if_pos hprev, ?_, by rw [if_pos hprev, h.pprev hl], ?_⟩
      · rw [h.pprev hl]
        exact hlist.relink hpre htail hdis
      · intro a ha
        refine relink_of_ne fun heq => ha ?_
        rw [h.pprev hl] at heq
        exact List.mem_of_mem_head? heq
    | false =>
      have hprev : s.prev ≠ some s.cur := by
        rw [h.prev, hl]
        exact fun heq => hcpre (List.mem_of_mem_head? heq)
      have hlist := h.list
      simp only [hl, Bool.false_eq_true, if_false] at hlist
      refine ⟨_, if_neg hprev, hlist, ?_, fun a _ => rfl⟩
      rw [if_neg hprev, h.prev, hl, if_neg (by simp)]
  have hpool : (s.absorb t u n).pool = { s.pool.setNode t u with next := r.1 }.addToFreeBufferList s.cur := by
    rw [← hr]
    rfl
  have hnext : (s.absorb t u n).pool.next = Function.update r.1 s.cur none := by
    rw [hpool]
    rfl
  have hcnot : s.cur ∉ pre.reverse ++ t :: rest := by
    simp [hcpre, hcrest.1, hcrest.2]
  have hlist' : Seg (s.absorb t u n).pool.next (s.absorb t u n).head (pre.reverse ++ t :: rest) none := by
    rw [hnext]
    have hhead : (s.absorb t u n).head = r.2 := congrArg Prod.snd hr
    rw [hhead]
    exact hlinks.update hcnot none
  have hkeep : ∀ l : List ℕ, t ∉ l → s.cur ∉ l → l.map (s.absorb t u n).pool.node = l.map s.pool.node := by
    intro l ht hc
    exact List.map_congr_left fun x hx => node_absorb (fun heq => ht (heq ▸ hx)) fun heq => hc (heq ▸ hx)
  refine ⟨⟨?_, ?_, ?_, hlist', rfl, fun _ => ?_, hlist'.next_eq, fun hf => absurd hf (by simp), ?_, ?_, rfl, ?_,
    fun hf => absurd hf (by simp), ?_⟩, hkeep rest htrest hcrest.2⟩
  · rw [hpool]
    refine Free.addToFreeBufferList (h.free.congr rfl) hcF ?_
    exact h.brk.symm ▸ hb _ h.mem_cur
  · rw [hpool]
    exact h.brk
  · have hmid : (F ++ s.cur :: (pre ++ t :: rest)).Perm (s.cur :: (F ++ t :: (pre ++ rest))) :=
      List.perm_middle.trans (((List.perm_middle).append_left F).cons s.cur)
    exact hmid.symm.trans h.perm
  · exact hpp
  · rw [hkeep pre htpre hcpre, h.before]
  · change Function.update (Function.update s.pool.node t u) s.cur ⟨0, 0⟩ t = u
    rw [Function.update_of_ne (Ne.symm hcrest.1), Function.update_self]
  · change (if 0 < n then s.writeLen - n else s.writeLen) = _
    rw [h.writeLen]
  · intro a ha
    have hat : a ≠ t := fun heq => ha (heq ▸ h.mem_rest List.mem_cons_self)
    have hac : a ≠ s.cur := fun heq => ha (heq ▸ h.mem_cur)
    have hapre : a ∉ pre := fun hx => ha (h.mem_pre hx)
    obtain ⟨h0, h1⟩ := h.frame a ha
    refine ⟨(node_absorb hat hac).trans h0, ?_⟩
    rw [hnext, Function.update_of_ne hac, hframe a hapre, h1]

/-- The loop ends, and does in memory what the walk does with values. -/
theorem loop (h : LoopAt A as₀ p₀ s w F pre rest) (hA : A.Nodup) (hb : ∀ a ∈ A, a < p₀.brk)
    (hrest : ∀ b ∈ rest.map s.pool.node, b.Small) (hsep : Separated ((rest.map s.pool.node).map Buffer.ival))
    (hcur : w.cur.Small) (hlink : w.linked = w.merged)
    (hlow : w.merged = true → ∀ b ∈ rest.map s.pool.node, w.cur.ival.lo ≤ b.ival.lo)
    {rounds : ℕ} (hr : rest.length ≤ rounds) :
    ∃ s' F' pre' rest', Insertion.loop rounds s = some s' ∧
      LoopAt A as₀ p₀ s' (w.run (rest.map s.pool.node)).1 F' pre' rest' ∧
      rest'.map s'.pool.node = (w.run (rest.map s.pool.node)).2 := by
  induction rest generalizing s w F pre rounds with
  | nil =>
    have htemp : s.temp = none := h.temp
    refine ⟨s, F, pre, [], ?_, h, rfl⟩
    cases rounds <;> simp only [Insertion.loop, htemp]
  | cons t rest ih =>
    obtain ⟨rounds, rfl⟩ : ∃ k, rounds = k + 1 := ⟨rounds - 1, by simp only [List.length_cons] at hr; omega⟩
    have hr' : rest.length ≤ rounds := by
      simp only [List.length_cons] at hr
      omega
    have htemp : s.temp = some t := h.temp
    have hdata := h.cur
    rw [List.map_cons] at hrest hsep hlow ⊢
    have hrest' : ∀ b ∈ rest.map s.pool.node, b.Small := fun b hx => hrest b (List.mem_cons_of_mem _ hx)
    have hsep' := (separated_cons.mp hsep).2.2
    obtain ⟨hstop, -⟩ | ⟨hnstop, -, ⟨hov, -, hun⟩ | ⟨u, n, hov, -, -, husmall, hulow⟩⟩ :=
      Walk.step_cases hrest hsep hcur hlow
    · rw [Walk.run_stop hstop]
      refine ⟨s, F, pre, t :: rest, ?_, h, rfl⟩
      rw [Insertion.loop]
      simp only [htemp, hdata, hstop, if_true]
    · have hl := hlink.trans hun
      rw [Walk.run_skip hnstop hov hl]
      have hloop : Insertion.loop (rounds + 1) s = Insertion.loop rounds (s.skip t) := by
        rw [Insertion.loop]
        simp only [htemp, hdata, hnstop, if_false, hov]
      rw [hloop]
      exact ih (h.skip hl) hrest' hsep' hcur hun.symm (fun hm => absurd hm (by simp [hun])) hr'
    · rw [Walk.run_absorb hnstop hov]
      have hloop : Insertion.loop (rounds + 1) s = Insertion.loop rounds (s.absorb t u n) := by
        rw [Insertion.loop]
        simp only [htemp, hdata, hnstop, if_false, hov]
      obtain ⟨hat, hmap⟩ := h.absorb hA hb u n
      rw [hloop, ← hmap]
      rw [← hmap] at hrest' hsep' hulow
      exact ih hat hrest' hsep' husmall rfl (fun _ => hulow) hr'

/-- The nodes `as` are the list afterwards, and nothing else has been touched. -/
structure Links (A : List ℕ) (p₀ : NodePool) (s : Insertion) (F : List ℕ) (s' : Insertion) (as : List ℕ) : Prop where
  free : s'.pool.Free F
  brk : s'.pool.brk = p₀.brk
  perm : (F ++ as).Perm A
  list : Seg s'.pool.next s'.head as none
  node : s'.pool.node = s.pool.node
  cur : s'.cur = s.cur
  writeLen : s'.writeLen = s.writeLen
  frame : ∀ a, a ∉ A → s'.pool.node a = p₀.node a ∧ s'.pool.next a = p₀.next a

/-- A segment that met a node is in the list. -/
theorem link_merged (h : LoopAt A as₀ p₀ s w F pre rest) (hm : w.merged = true) (hl : w.linked = true)
    (start : UInt32) : Insertion.link start s = some s ∧ Links A p₀ s F s (pre.reverse ++ s.cur :: rest) ∧
      s.pool.next s.cur = rest.head? := by
  have hlist := h.list
  simp only [hl, if_true] at hlist
  refine ⟨?_, ⟨h.free, h.brk, ?_, hlist, rfl, rfl, rfl, h.frame⟩, hlist.next_eq⟩
  · rw [Insertion.link, h.merged, hm, if_pos rfl]
  · refine List.Perm.trans ?_ h.perm
    refine List.Perm.append_left F (List.perm_middle.trans ?_)
    exact ((List.reverse_perm pre).append_right rest).cons s.cur

theorem link_first (h : LoopAt A [] p₀ s w F pre rest) (hm : w.merged = false) (hl : w.linked = false)
    (start : UInt32) :
    ∃ s', Insertion.link start s = some s' ∧ Links A p₀ s F s' [s.cur] ∧ s'.pool.next s.cur = none := by
  obtain ⟨hpre, hrest⟩ := List.append_eq_nil_iff.mp (h.whole hm)
  have hpre' : pre = [] := List.reverse_eq_nil_iff.mp hpre
  subst hpre' hrest
  have hhead : s.head = none := by
    have hlist := h.list
    simp only [hl] at hlist
    exact hlist
  refine ⟨{ s with head := some s.cur }, ?_, ⟨h.free, h.brk, h.perm, ⟨rfl, h.loose hl⟩, rfl, rfl, rfl, h.frame⟩, h.loose hl⟩
  simp only [Insertion.link, h.merged, hm, hhead, Bool.false_eq_true, if_false]

theorem link_front (h : LoopAt A as₀ p₀ s w F pre rest) (hA : A.Nodup) (hm : w.merged = false)
    (hl : w.linked = false) {b : ℕ} {as : List ℕ} (has : as₀ = b :: as) {start : UInt32}
    (hstart : start < (s.pool.node b).stop) :
    ∃ s', Insertion.link start s = some s' ∧ Links A p₀ s F s' (s.cur :: as₀) ∧ s'.pool.next s.cur = some b := by
  have hlist := h.list
  simp only [hl, Bool.false_eq_true, if_false, h.whole hm] at hlist
  have hperm : (s.cur :: as₀).Perm (s.cur :: (pre ++ rest)) := by
    rw [← h.whole hm]
    exact ((List.reverse_perm pre).append_right rest).cons s.cur
  have hcur : s.cur ∉ as₀ := by
    have hnd := (h.perm.nodup_iff.mpr hA).of_append_right
    exact (List.nodup_cons.mp (hperm.nodup_iff.mpr hnd)).1
  have hhead : s.head = some b := by
    rw [hlist.eq_head, has]
    rfl
  have hself : Function.update s.pool.next s.cur (some b) s.cur = some b := Function.update_self ..
  refine ⟨{ s with pool := s.pool.setNext s.cur (some b), head := some s.cur }, ?_,
    ⟨h.free.congr rfl, h.brk, (hperm.append_left F).trans h.perm, ⟨rfl, ?_⟩, rfl, rfl, rfl, ?_⟩, hself⟩
  · simp only [Insertion.link, h.merged, hm, hhead, hstart, Bool.false_eq_true, if_false, if_true]
  · change Seg (Function.update s.pool.next s.cur (some b)) (Function.update s.pool.next s.cur (some b) s.cur) as₀ none
    rw [hself, ← hhead]
    exact hlist.update hcur _
  · intro a ha
    have hne : a ≠ s.cur := fun heq => ha (heq ▸ h.mem_cur)
    exact ⟨(h.frame a ha).1, (Function.update_of_ne hne _ _).trans (h.frame a ha).2⟩

theorem link_behind (h : LoopAt A as₀ p₀ s w F pre rest) (hA : A.Nodup) (hm : w.merged = false)
    (hl : w.linked = false) {b : ℕ} {as : List ℕ} (has : as₀ = b :: as) {start : UInt32}
    (hstart : ¬start < (s.pool.node b).stop) (hpre : pre ≠ []) :
    ∃ s', Insertion.link start s = some s' ∧ Links A p₀ s F s' (pre.reverse ++ s.cur :: rest) ∧
      s'.pool.next s.cur = rest.head? := by
  obtain ⟨-, hcpre, hcrest, hnd, -, hdis⟩ := h.apart hA
  obtain ⟨q, pre', rfl⟩ := List.exists_cons_of_ne_nil hpre
  have hlist := h.list
  simp only [hl, Bool.false_eq_true, if_false] at hlist
  have hhead : s.head = some b := by
    have hwhole := h.whole hm
    rw [hlist.eq_head, hwhole, has]
    rfl
  have hprev : s.prev = some q := by
    rw [h.prev, hl]
    rfl
  have hqc : q ≠ s.cur := fun heq => hcpre (heq ▸ List.mem_cons_self)
  -- the two stores commute, and the second one alone links the node to what is ahead
  have hswap : Function.update (Function.update s.pool.next q (some s.cur)) s.cur s.temp =
      (relink (Function.update s.pool.next s.cur s.temp) s.head (q :: pre').head? (some s.cur)).1 :=
    Function.update_comm hqc _ _ _
  have hself : Function.update s.pool.next s.cur s.temp s.cur = s.temp := Function.update_self ..
  have htail : Seg (Function.update s.pool.next s.cur s.temp) (some s.cur) (s.cur :: rest) none := by
    obtain ⟨m, -, hmid⟩ := Seg.append_iff.mp hlist
    refine ⟨rfl, ?_⟩
    rw [hself, h.temp, ← hmid.eq_head]
    exact hmid.update hcrest _
  have hcnot : s.cur ∉ (q :: pre').reverse ++ rest := by
    rw [List.mem_append, List.mem_reverse, not_or]
    exact ⟨hcpre, hcrest⟩
  have hapart : ∀ x ∈ q :: pre', x ∉ s.cur :: rest := by
    intro x hx hx'
    rcases List.mem_cons.mp hx' with rfl | hx'
    · exact hcpre hx
    · exact hdis x hx hx'
  have hlinked := (hlist.update hcnot s.temp).relink hnd htail hapart
  rw [← hswap] at hlinked
  refine ⟨{ s with pool := (s.pool.setNext q (some s.cur)).setNext s.cur s.temp }, ?_,
    ⟨h.free.congr rfl, h.brk, ?_, hlinked, rfl, rfl, rfl, ?_⟩, ?_⟩
  · simp only [Insertion.link, h.merged, hm, hhead, hstart, hprev, Bool.false_eq_true, if_false]
  · refine List.Perm.trans (List.Perm.append_left F (List.perm_middle.trans ?_)) h.perm
    exact ((List.reverse_perm (q :: pre')).append_right rest).cons s.cur
  · intro a ha
    have hne : a ≠ s.cur := fun heq => ha (heq ▸ h.mem_cur)
    have hneq : a ≠ q := fun heq => ha (heq ▸ h.mem_pre List.mem_cons_self)
    refine ⟨(h.frame a ha).1, ?_⟩
    change Function.update (Function.update s.pool.next q (some s.cur)) s.cur s.temp a = _
    rw [Function.update_of_ne hne, Function.update_of_ne hneq]
    exact (h.frame a ha).2
  · change Function.update (Function.update s.pool.next q (some s.cur)) s.cur s.temp s.cur = _
    rw [Function.update_self, h.temp]

/-- The loop is over: what is linked then is what `insertBuffer` makes of the values. -/
theorem link_spec {bs sk : List Buffer} {new : Buffer} {n : ℤ}
    (h : LoopAt A as₀ p₀ s (Walk.run ⟨[], new, false, false, n, false⟩ bs).1 F pre rest) (hA : A.Nodup)
    (hrest : rest.map s.pool.node = (Walk.run ⟨[], new, false, false, n, false⟩ bs).2)
    (hp : Walk.Places ⟨[], new, false, false, n, false⟩ bs (Walk.run ⟨[], new, false, false, n, false⟩ bs) sk)
    (hfault : (insertBuffer new n bs).fault = false) :
    ∃ s' as', Insertion.link new.seq s = some s' ∧ Links A p₀ s F s' as' ∧
      as'.map s.pool.node = (insertBuffer new n bs).list ∧ s.pool.node s.cur = (insertBuffer new n bs).cur ∧
      (s'.pool.next s.cur = none ↔ (insertBuffer new n bs).last = true) ∧
      s.writeLen = (insertBuffer new n bs).writeLen := by
  have hlinked := hp.linked
  have hun := hp.unmerged
  have hbefore := hp.before
  have hcur := h.cur
  have hwl := h.writeLen
  have hpre := h.before
  simp only [insertBuffer] at hfault ⊢
  generalize Walk.run ⟨[], new, false, false, n, false⟩ bs = r at *
  obtain ⟨w, ahead⟩ := r
  simp only [List.append_nil] at hlinked hun hbefore hcur hwl hpre hrest hfault h ⊢
  have hmap : pre.reverse.map s.pool.node = w.before.reverse := by rw [List.map_reverse, hpre]
  have hempty : rest.head? = none ↔ ahead.isEmpty = true := by
    rw [← hrest]
    cases rest <;> simp
  cases hm : w.merged with
  | true =>
    have hl := hlinked.trans hm
    obtain ⟨hlink, hlinks, hnext⟩ := h.link_merged hm hl new.seq
    refine ⟨s, _, hlink, hlinks, ?_, ?_, ?_, ?_⟩
    · simp [hmap, hcur, hrest, hl]
    · simpa using hcur
    · simpa [hl, hnext] using hempty
    · simpa using hwl
  | false =>
    have hl := hlinked.trans hm
    obtain ⟨-, hsplit⟩ := hun hm
    -- no node has been changed, so the values are those of the list the loop began with
    have hall : as₀.map s.pool.node = bs := by
      rw [← h.whole hm, List.map_append, hmap, hrest, hbefore, List.reverse_reverse, ← hsplit]
    cases bs with
    | nil =>
      obtain rfl : as₀ = [] := List.map_eq_nil_iff.mp hall
      obtain ⟨s', hlink, hlinks, hnext⟩ := h.link_first hm hl new.seq
      refine ⟨s', _, hlink, hlinks, ?_, ?_, ?_, ?_⟩
      · simp [hcur]
      · simpa using hcur
      · simp [hnext]
      · simpa using hwl
    | cons b bs =>
      obtain ⟨b₀, as, has, hb₀, -⟩ := List.map_eq_cons_iff.mp hall
      by_cases hlt : new.seq < b.stop
      · obtain ⟨s', hlink, hlinks, hnext⟩ := h.link_front hA hm hl has (hb₀.symm ▸ hlt)
        refine ⟨s', _, hlink, hlinks, ?_, ?_, ?_, ?_⟩
        · simp [hlt, hall, hcur]
        · simpa [hlt] using hcur
        · simp [hlt, hnext]
        · simpa [hlt] using hwl
      · have hpre' : pre ≠ [] := by
          rintro rfl
          rw [List.map_nil] at hpre
          simp [hm, hlt, ← hpre] at hfault
        obtain ⟨s', hlink, hlinks, hnext⟩ := h.link_behind hA hm hl has (hb₀.symm ▸ hlt) hpre'
        refine ⟨s', _, hlink, hlinks, ?_, ?_, ?_, ?_⟩
        · simp [hlt, hmap, hcur, hrest]
        · simpa [hlt] using hcur
        · simpa [hlt, hnext] using hempty
        · simpa [hlt] using hwl

end LoopAt

/-! ## The insertion -/

/-- The insertion has left the list `as'` in memory: no node has been lost, the list is the one `insertBuffer`
computes, and other nodes are as they were. -/
structure Inserts (p : NodePool) (F as : List ℕ) (new : Buffer) (n : ℤ) (s : Insertion) (F' as' : List ℕ) (k : ℕ) :
    Prop where
  free : s.pool.Free F'
  brk : s.pool.brk = p.brk + k
  perm : (F' ++ as').Perm (List.range' p.brk k ++ F ++ as)
  list : Seg s.pool.next s.head as' none
  data : as'.map s.pool.node = (insertBuffer new n (as.map p.node)).list
  cur : s.pool.node s.cur = (insertBuffer new n (as.map p.node)).cur
  last : s.pool.next s.cur = none ↔ (insertBuffer new n (as.map p.node)).last = true
  writeLen : s.writeLen = (insertBuffer new n (as.map p.node)).writeLen
  frame : ∀ a < p.brk, a ∉ F → a ∉ as → s.pool.node a = p.node a ∧ s.pool.next a = p.next a

/-- The nodes of the free list, of a list and of a new batch are different nodes. -/
theorem Free.nodup_all (h : p.Free F) {as : List ℕ} (hnd : (F ++ as).Nodup) (hbelow : ∀ a ∈ as, a < p.brk) (k : ℕ) :
    (List.range' p.brk k ++ F ++ as).Nodup := by
  rw [List.append_assoc, List.nodup_append]
  refine ⟨List.nodup_range', hnd, ?_⟩
  intro x hx y hy heq
  have hge : p.brk ≤ x := (List.mem_range'_1.mp hx).1
  rcases List.mem_append.mp hy with hy | hy
  · have := h.below y hy
    omega
  · have := hbelow y hy
    omega

theorem Free.insert (h : p.Free F) {head : Option ℕ} {as : List ℕ} (hlist : Seg p.next head as none)
    (hnd : (F ++ as).Nodup) (hbelow : ∀ a ∈ as, a < p.brk) (hsmall : ∀ b ∈ as.map p.node, b.Small)
    (hsep : Separated ((as.map p.node).map Buffer.ival)) {start : UInt32} {n : ℤ}
    (hnew : Buffer.Small ⟨start, u32 n⟩) :
    ∃ s F' as' k, p.insert head start n = some s ∧ Inserts p F as ⟨start, u32 n⟩ n s F' as' k := by
  obtain ⟨p₁, a, F₁, k, hget, hfree, hbrk, hperm, hsame⟩ := h.getBuffer
  have hall := h.nodup_all hnd hbelow k
  have hA : (F₁ ++ a :: as).Perm (List.range' p.brk k ++ F ++ as) :=
    List.perm_middle.trans (hperm.append_right as)
  have hAnd := hA.nodup_iff.mpr hall
  have hanot : a ∉ as := (List.nodup_cons.mp hAnd.of_append_right).1
  have hAbelow : ∀ x ∈ F₁ ++ a :: as, x < p.brk + k := by
    intro x hx
    have hx' := hA.subset hx
    rw [List.append_assoc, List.mem_append, List.mem_append, List.mem_range'_1] at hx'
    rcases hx' with hx' | hx' | hx'
    · exact hx'.2
    · exact (h.below x hx').trans_le (Nat.le_add_right _ _)
    · exact (hbelow x hx').trans_le (Nat.le_add_right _ _)
  -- the new node has its values, and the list is not touched by that
  set p₂ := (p₁.setNode a ⟨start, u32 n⟩).setNext a none with hp₂
  have hbrk₂ : p₂.brk = p.brk + k := hbrk
  have hold : ∀ x < p.brk, x ≠ a → p₂.node x = p.node x ∧ p₂.next x = p.next x := by
    intro x hx hne
    obtain ⟨h0, h1⟩ := hsame x hx
    exact ⟨(Function.update_of_ne hne _ _).trans h0, (Function.update_of_ne hne _ _).trans h1⟩
  have hkept : ∀ x ∈ as, p₂.node x = p.node x ∧ p₂.next x = p.next x := fun x hx =>
    hold x (hbelow x hx) fun heq => hanot (heq ▸ hx)
  have hdata : as.map p₂.node = as.map p.node := List.map_congr_left fun x hx => (hkept x hx).1
  have hlist₂ : Seg p₂.next head as none := hlist.congr fun x hx => (hkept x hx).2
  have hat : LoopAt (F₁ ++ a :: as) as p₂ ⟨p₂, head, a, head, none, none, false, n⟩
      ⟨[], ⟨start, u32 n⟩, false, false, n, false⟩ F₁ [] as :=
    ⟨hfree.congr rfl, rfl, List.Perm.refl _, hlist₂, rfl, fun hf => absurd hf (by simp), hlist₂.eq_head,
      fun _ => Function.update_self .., rfl, Function.update_self .., rfl, rfl, fun _ => rfl, fun _ _ => ⟨rfl, rfl⟩⟩
  have hrounds : as.length ≤ p₂.brk := by
    rw [hbrk₂]
    exact ItemPool.length_le_brk hnd.of_append_right fun x hx => (hbelow x hx).trans_le (Nat.le_add_right _ _)
  obtain ⟨s, F', pre, rest, hloop, hend, hrest⟩ := hat.loop hAnd (by rwa [hbrk₂]) (by rwa [hdata])
    (by rwa [hdata]) hnew rfl (fun hm => absurd hm (by simp)) hrounds
  rw [hdata] at hend hrest
  obtain ⟨sk, hplaces⟩ := Walk.run_places (w := ⟨[], ⟨start, u32 n⟩, false, false, n, false⟩) hsmall hsep hnew rfl
    (fun hm => absurd hm (by simp))
  obtain ⟨s', as', hlink, hl, hl₁, hl₂, hl₃, hl₄⟩ := hend.link_spec hAnd hrest hplaces
    (insertBuffer_place hsmall hsep hnew).1
  refine ⟨s', F', as', k, ?_, hl.free, hl.brk.trans hbrk₂, hl.perm.trans hA, hl.list, ?_, ?_, ?_, hl.writeLen.trans hl₄, ?_⟩
  · simp only [NodePool.insert, hget]
    rw [hloop]
    exact hlink
  · rw [hl.node, hl₁]
  · rw [hl.node, hl.cur, hl₂]
  · rw [hl.cur, hl₃]
  · intro x hx hxF hxas
    have hxA : x ∉ F₁ ++ a :: as := by
      intro hmem
      have hx' := hA.subset hmem
      rw [List.append_assoc, List.mem_append, List.mem_append, List.mem_range'_1] at hx'
      rcases hx' with hx' | hx' | hx'
      · omega
      · exact hxF hx'
      · exact hxas hx'
    have hxa : x ≠ a := fun heq => hxA (heq ▸ List.mem_append_right F₁ List.mem_cons_self)
    obtain ⟨h0, h1⟩ := hl.frame x hxA
    obtain ⟨h2, h3⟩ := hold x hx hxa
    exact ⟨h0.trans h2, h1.trans h3⟩

/-! ## The end of a list -/

theorem Free.freeAll (h : p.Free F) {o : Option ℕ} {as : List ℕ} (hlist : Seg p.next o as none)
    (hnd : (F ++ as).Nodup) (hbelow : ∀ a ∈ as, a < p.brk) {rounds : ℕ} (hr : as.length ≤ rounds) :
    ∃ p', NodePool.freeAll rounds p o = some p' ∧ p'.Free (as.reverse ++ F) ∧ p'.brk = p.brk ∧
      ∀ a ∉ as, p'.node a = p.node a ∧ p'.next a = p.next a := by
  induction as generalizing p F o rounds with
  | nil =>
    obtain rfl : o = none := hlist
    refine ⟨p, ?_, h, rfl, fun _ _ => ⟨rfl, rfl⟩⟩
    cases rounds <;> rfl
  | cons a as ih =>
    obtain ⟨rfl, htail⟩ := hlist
    obtain ⟨rounds, rfl⟩ : ∃ k, rounds = k + 1 := ⟨rounds - 1, by simp only [List.length_cons] at hr; omega⟩
    have hr' : as.length ≤ rounds := by
      simp only [List.length_cons] at hr
      omega
    have hmid : (F ++ a :: as).Perm ((a :: F) ++ as) := List.perm_middle
    have hnd' := hmid.nodup_iff.mp hnd
    obtain ⟨haF, haas⟩ : a ∉ F ∧ a ∉ as := by
      have hnot : a ∉ F ++ as := (List.nodup_cons.mp hnd').1
      rw [List.mem_append, not_or] at hnot
      exact hnot
    obtain ⟨p', hp', hfree, hbrk, hsame⟩ := ih (h.addToFreeBufferList haF (hbelow a List.mem_cons_self))
      (htail.update haas none) hnd' (fun x hx => hbelow x (List.mem_cons_of_mem a hx)) hr'
    refine ⟨p', hp', ?_, hbrk, ?_⟩
    · simpa using hfree
    · intro x hx
      rw [List.mem_cons, not_or] at hx
      obtain ⟨h0, h1⟩ := hsame x hx.2
      exact ⟨h0.trans (Function.update_of_ne hx.1 _ _), h1.trans (Function.update_of_ne hx.1 _ _)⟩

end NodePool
end Cedos.Dtp
