import Cedos.Dtp.BufferNodes
import Cedos.Dtp.Resize

/-!
# No buffer node is lost

The contexts of a host share one free list of buffer nodes. `HandleNormalPacket` takes a node from it and may
give several back, `dtp_recv` gives back a node it has drained, and `DTPCloseContext` all of a context. The
functions are those of `Receive.lean`, `Socket.lean` and `Close.lean` with `tc_readBufHead` as a pointer. With the
values of its nodes for a list, a context does what it does there; so the list stays sorted, and a sorted list
is what the insertion loop needs in order not to free a node that is still linked.
-/

namespace Cedos.Dtp

open DtpContext

/-! ## The functions with pointers -/

/-- The contexts of a host by their sockets. The field `readBufHead` of a context is not used. -/
structure NodeHost where
  pool : NodePool
  ctx : ℕ → DtpContext
  /-- `tc_readBufHead` -/
  head : ℕ → Option ℕ
  /-- a loop that does not end, or a write through a null pointer -/
  stuck : Bool

def DtpContext.withList (c : DtpContext) (l : List Buffer) : DtpContext := { c with readBufHead := l }

namespace NodeHost

def set (s : NodeHost) (x : ℕ) (c : DtpContext) : NodeHost := { s with ctx := Function.update s.ctx x c }

/-- A context with the first node of its list, which is all that is read through `tc_readBufHead`. -/
def view (s : NodeHost) (x : ℕ) : DtpContext := (s.ctx x).withList ((s.head x).toList.map s.pool.node)

/-- The rest of `HandleNormalPacket` when the segment is in the list. -/
def finishSegment (c : DtpContext) (d : Datagram) (bodyLen : UInt32) (r : Insertion) : DtpContext :=
  let start := c.segmentStart d.hdr.seq
  let bufOff := i32 (start - c.lastByteRead)
  let pktOff := i32 (start - d.hdr.seq)
  let c := { c with
    readBuf := blit c.readBuf bufOff.toNat (fun i => d.body (pktOff.toNat + i)) (c.segmentLen d.hdr.seq bodyLen).toNat
    readBufHead := r.head.toList.map r.pool.node
    fault := c.fault || decide (bufOff < 0) || decide (pktOff < 0) }
  let c := c.advanceExpected
  let c := { c with
    lastByteRcvd := if r.pool.next r.cur = none then (r.pool.node r.cur).stop else c.lastByteRcvd }
  let c := { c with isMyWindowZero := c.isMyWindowZero || c.advertisedWindow == 0 }
  (c.assert c.headMatches).countPacket

def handleNormalPacket (s : NodeHost) (x : ℕ) (d : Datagram) (bodyLen : UInt32) : NodeHost :=
  if (s.ctx x).state = .synRcvd ∨ (s.ctx x).state = .synSent ∨ d.hdr.syn then s
  else
    let c := (s.ctx x).dropInsertedACK.noteSegment d.hdr
    if 0 < c.segmentLen d.hdr.seq bodyLen then
      match s.pool.insert (s.head x) (c.segmentStart d.hdr.seq) (c.segmentLen d.hdr.seq bodyLen) with
      | none => { s with stuck := true }
      | some r =>
        { s.set x (finishSegment c d bodyLen r) with pool := r.pool, head := Function.update s.head x r.head }
    else s.set x c.countPacket

/-- Take `len` bytes off the first node of the list, and free it if it is drained. -/
def consumeHead (s : NodeHost) (x : ℕ) (len : ℤ) : NodeHost :=
  match s.head x with
  | none => s.set x ((s.ctx x).assert false)
  | some a =>
    let b : Buffer := ⟨(s.pool.node a).seq + u32 len, (s.pool.node a).len - u32 len⟩
    let s := { s with pool := s.pool.setNode a b }
    if b.len = 0 then
      let s := { s with
        head := Function.update s.head x (s.pool.next a)
        pool := s.pool.addToFreeBufferList a }
      s.set x ((s.ctx x).assert (s.view x).headMatches)
    else s

/-- The part of `dtp_recv` that a peek skips. -/
def consume (s : NodeHost) (x : ℕ) (len : ℤ) : NodeHost :=
  let s := (s.set x ((s.ctx x).advanceRead len)).consumeHead x len
  s.set x (((s.ctx x).slideReadBuf len).noteDrained.reopenWindow.chargeBlock len)

/-- `dtp_recv` from its waiting loop on. -/
def recvBody (s : NodeHost) (x : ℕ) (length : ℕ) (msgPeek woken : Bool) : NodeHost × CallResult (List UInt8) :=
  let len := minSize length (s.ctx x).getReadBufDataSize
  let s := s.set x ((s.ctx x).assert (!(woken && decide (0 < len) && decide ((s.ctx x).state = .closeWait))))
  if len = 0 then
    if (s.ctx x).state.isClosing then (s, .done [])
    else if (s.ctx x).nonblock then (s, .error .eagain)
    else (s.set x { s.ctx x with isReadBlocked := true }, .blocked)
  else if 0 < len then
    let s := s.set x ((s.ctx x).assert ((s.view x).headHolds len))
    let bytes := peek (s.ctx x).readBuf 0 len.toNat
    if msgPeek then (s, .done bytes) else (s.consume x len, .done bytes)
  else (s, .done [])

def dtpRecv (s : NodeHost) (x : ℕ) (length : ℕ) (msgPeek : Bool) : NodeHost × CallResult (List UInt8) :=
  if !(s.ctx x).isActive then (s, .error .ebadf)
  else if (s.ctx x).connTimedOut then (s, .error .etimedout)
  else if (s.ctx x).connReset then (s, .error .econnreset)
  else if length = 0 then (s, .done [])
  else s.recvBody x length msgPeek false

def dtpRecvWake (s : NodeHost) (x : ℕ) (length : ℕ) (msgPeek : Bool) : NodeHost × CallResult (List UInt8) :=
  let s := s.set x { s.ctx x with isReadBlocked := false }
  if (s.ctx x).connTimedOut then (s, .error .etimedout)
  else if (s.ctx x).connReset then (s, .error .econnreset)
  else s.recvBody x length msgPeek true

/-- `DTPCloseContext`. -/
def dtpCloseContext (s : NodeHost) (x : ℕ) : NodeHost :=
  if !(s.ctx x).isActive then s.set x ((s.ctx x).assert false)
  else if (s.ctx x).waitACK then s
  else if (s.ctx x).state = .timeWait then s
  else match NodePool.freeAll s.pool.brk s.pool (s.head x) with
    | none => { s with stuck := true }
    | some p => { s.set x (s.ctx x).dtpCloseContext with pool := p, head := Function.update s.head x none }

/-- A context with the values of the nodes `as` for its list. -/
def abs (s : NodeHost) (x : ℕ) (as : List ℕ) : DtpContext := (s.ctx x).withList (as.map s.pool.node)

end NodeHost

/-! ## Functions that do not look at the list -/

section WithList
variable {c : DtpContext} {l l' : List Buffer} {len : ℤ}

theorem withList_slideReadBuf : (c.withList l).slideReadBuf len = (c.slideReadBuf len).withList l := by
  simp only [slideReadBuf]
  split_ifs <;> first | rfl | contradiction

theorem withList_noteDrained : (c.withList l).noteDrained = c.noteDrained.withList l := by
  simp only [noteDrained]
  split_ifs <;> first | rfl | contradiction

theorem withList_reopenWindow : (c.withList l).reopenWindow = c.reopenWindow.withList l := by
  simp only [reopenWindow]
  split_ifs <;> first | rfl | contradiction

theorem withList_dropInsertedACK : (c.withList l).dropInsertedACK = c.dropInsertedACK.withList l := by
  have hins : (c.withList l).isACKInserted = c.isACKInserted := rfl
  have hq : (c.withList l).packetQ = c.packetQ := rfl
  simp only [dropInsertedACK, hins, hq]
  cases c.packetQ with
  | nil => split_ifs <;> rfl
  | cons p q =>
    dsimp only
    split_ifs <;> rfl

theorem withList_consumeHead (b : Buffer) : (c.withList (b :: l)).consumeHead len =
    if b.len - u32 len = 0 then (c.withList l).assert (c.withList l).headMatches
    else c.withList (⟨b.seq + u32 len, b.len - u32 len⟩ :: l) := by
  have hdrop : (c.withList (b :: l)).dropHead len =
      c.withList (if b.len - u32 len = 0 then l else ⟨b.seq + u32 len, b.len - u32 len⟩ :: l) := rfl
  have hhead : (c.withList (b :: l)).readBufHead = b :: l := rfl
  simp only [DtpContext.consumeHead, hhead, hdrop]
  split_ifs <;> rfl

/-- The checks look at the first node only. -/
theorem headMatches_head : (c.withList l.head?.toList).headMatches = (c.withList l).headMatches := by
  cases l <;> rfl

theorem headHolds_head : (c.withList l.head?.toList).headHolds len = (c.withList l).headHolds len := by
  cases l <;> rfl

end WithList

/-! ## What a context may do with its nodes -/

namespace NodeHost
variable {s s' : NodeHost} {x y : ℕ} {F F' : List ℕ} {L : ℕ → List ℕ} {as as' : List ℕ} {k : ℕ}

/-- Each node is free or in the list of one context. -/
structure Conserved (s : NodeHost) (F : List ℕ) (L : ℕ → List ℕ) : Prop where
  free : s.pool.Free F
  lists : ∀ x, Seg s.pool.next (s.head x) (L x) none
  below : ∀ x, ∀ a ∈ L x, a < s.pool.brk
  nodup : ∀ x, (F ++ L x).Nodup
  apart : ∀ x y, x ≠ y → ∀ a ∈ L x, a ∉ L y
  all : ∀ a < s.pool.brk, a ∈ F ∨ ∃ x, a ∈ L x

/-- The nodes of the list `as` and of the free list have been distributed anew, with `k` nodes more. -/
structure Reworks (p : NodePool) (F as : List ℕ) (p' : NodePool) (o : Option ℕ) (F' as' : List ℕ) (k : ℕ) : Prop where
  free : p'.Free F'
  brk : p'.brk = p.brk + k
  perm : (F' ++ as').Perm (List.range' p.brk k ++ F ++ as)
  list : Seg p'.next o as' none
  frame : ∀ a < p.brk, a ∉ F → a ∉ as → p'.node a = p.node a ∧ p'.next a = p.next a

theorem Reworks.mem {p p' : NodePool} {o : Option ℕ} (h : Reworks p F as p' o F' as' k) {a : ℕ}
    (ha : a ∈ F' ++ as') : p.brk ≤ a ∧ a < p.brk + k ∨ a ∈ F ∨ a ∈ as := by
  have hmem := h.perm.subset ha
  rwa [List.append_assoc, List.mem_append, List.mem_append, List.mem_range'_1] at hmem

/-- The node of another context is not touched. -/
theorem Conserved.keeps (h : s.Conserved F L) {p' : NodePool} {o : Option ℕ} (hr : Reworks s.pool F (L x) p' o F' as' k)
    (hy : y ≠ x) {a : ℕ} (ha : a ∈ L y) : a ∉ F' ∧ a ∉ as' ∧ p'.node a = s.pool.node a ∧ p'.next a = s.pool.next a := by
  have hbelow := h.below y a ha
  have hF : a ∉ F := fun hmem => (List.nodup_append.mp (h.nodup y)).2.2 a hmem a ha rfl
  have hx : a ∉ L x := h.apart y x hy a ha
  have hnot : a ∉ F' ++ as' := by
    intro hmem
    rcases hr.mem hmem with hmem | hmem | hmem
    · omega
    · exact hF hmem
    · exact hx hmem
  rw [List.mem_append, not_or] at hnot
  exact ⟨hnot.1, hnot.2, hr.frame a hbelow hF hx⟩

/-- A context has done something with its nodes. -/
theorem Conserved.rework (h : s.Conserved F L) {o : Option ℕ} (hr : Reworks s.pool F (L x) s'.pool o F' as' k)
    (hhead : s'.head = Function.update s.head x o) : s'.Conserved F' (Function.update L x as') := by
  have hbrk := hr.brk
  have hall := h.free.nodup_all (h.nodup x) (h.below x) k
  have hself : Function.update L x as' x = as' := Function.update_self ..
  have hother : ∀ y, y ≠ x → Function.update L x as' y = L y := fun y hy => Function.update_of_ne hy _ _
  refine ⟨hr.free, ?_, ?_, ?_, ?_, ?_⟩
  · intro y
    by_cases hy : y = x
    · subst hy
      rw [hself, hhead, Function.update_self]
      exact hr.list
    · rw [hother y hy, hhead, Function.update_of_ne hy]
      exact (h.lists y).congr fun a ha => (h.keeps hr hy ha).2.2.2
  · intro y a ha
    by_cases hy : y = x
    · subst hy
      rw [hself] at ha
      rcases hr.mem (List.mem_append_right F' ha) with hmem | hmem | hmem
      · omega
      · have := h.free.below a hmem
        omega
      · have := h.below y a hmem
        omega
    · rw [hother y hy] at ha
      have := h.below y a ha
      omega
  · intro y
    by_cases hy : y = x
    · subst hy
      rw [hself]
      exact hr.perm.nodup_iff.mpr hall
    · rw [hother y hy, List.nodup_append]
      refine ⟨hr.free.nodup, (h.nodup y).of_append_right, ?_⟩
      intro a haF b hb heq
      exact (h.keeps hr hy hb).1 (heq ▸ haF)
  · intro y z hyz a ha
    by_cases hy : y = x
    · subst hy
      rw [hself] at ha
      rw [hother z (Ne.symm hyz)]
      exact fun haz => (h.keeps hr (Ne.symm hyz) haz).2.1 ha
    · rw [hother y hy] at ha
      by_cases hz : z = x
      · subst hz
        rw [hself]
        exact (h.keeps hr hy ha).2.1
      · rw [hother z hz]
        exact h.apart y z hyz a ha
  · intro a ha
    have hin : a ∈ F' ++ as' → a ∈ F' ∨ ∃ y, a ∈ Function.update L x as' y := by
      intro hmem
      rcases List.mem_append.mp hmem with hmem | hmem
      · exact Or.inl hmem
      · exact Or.inr ⟨x, hself.symm ▸ hmem⟩
    by_cases hnew : s.pool.brk ≤ a
    · refine hin (hr.perm.symm.subset ?_)
      rw [List.append_assoc]
      exact List.mem_append_left _ (List.mem_range'_1.mpr ⟨hnew, by omega⟩)
    · rcases h.all a (by omega) with hF | ⟨y, hy⟩
      · exact hin (hr.perm.symm.subset (List.mem_append_left _ (List.mem_append_right _ hF)))
      · by_cases hyx : y = x
        · subst hyx
          exact hin (hr.perm.symm.subset (List.mem_append_right _ hy))
        · exact Or.inr ⟨y, (hother y hyx).symm ▸ hy⟩

theorem Conserved.congr (h : s.Conserved F L) (hp : s'.pool = s.pool) (hh : s'.head = s.head) : s'.Conserved F L := by
  obtain ⟨pool, ctx, head, stuck⟩ := s'
  subst hp hh
  exact ⟨h.free, h.lists, h.below, h.nodup, h.apart, h.all⟩

/-! ## Steps of one context -/

/-- A step of the context `x` that leaves it, with its list as values, as `c`. -/
structure Does (s : NodeHost) (x : ℕ) (F as : List ℕ) (c : DtpContext) (s' : NodeHost) (F' as' : List ℕ) (k : ℕ) :
    Prop where
  rework : Reworks s.pool F as s'.pool (s'.head x) F' as' k
  head : ∀ y, y ≠ x → s'.head y = s.head y
  ctx : ∀ y, y ≠ x → s'.ctx y = s.ctx y
  stuck : s'.stuck = s.stuck
  abs : s'.abs x as' = c

variable {c c' : DtpContext} {len : ℤ}

theorem ctx_set (s : NodeHost) (x : ℕ) (c : DtpContext) : (s.set x c).ctx x = c := Function.update_self ..

theorem Reworks.refl {p : NodePool} {o : Option ℕ} (hf : p.Free F) (hl : Seg p.next o as none) :
    Reworks p F as p o F as 0 :=
  ⟨hf, rfl, by simp, hl, fun _ _ _ _ => ⟨rfl, rfl⟩⟩

theorem Conserved.set (h : s.Conserved F L) (x : ℕ) (c : DtpContext) :
    Does s x F (L x) (c.withList ((L x).map s.pool.node)) (s.set x c) F (L x) 0 := by
  refine ⟨.refl h.free (h.lists x), fun _ _ => rfl, fun y hy => Function.update_of_ne hy _ _, rfl, ?_⟩
  rw [NodeHost.abs, ctx_set]
  rfl

theorem Does.set_after (h : Does s x F as c s' F' as' k) (c' : DtpContext) :
    Does s x F as (c'.withList (as'.map s'.pool.node)) (s'.set x c') F' as' k := by
  refine ⟨h.rework, h.head, fun y hy => (Function.update_of_ne hy _ _).trans (h.ctx y hy), h.stuck, ?_⟩
  rw [NodeHost.abs, ctx_set]
  rfl

theorem Does.set_before (h : Does (s.set x c') x F as c s' F' as' k) : Does s x F as c s' F' as' k :=
  ⟨h.rework, h.head, fun y hy => (h.ctx y hy).trans (Function.update_of_ne hy _ _), h.stuck, h.abs⟩

theorem Conserved.set_conserved (h : s.Conserved F L) (x : ℕ) (c : DtpContext) : (s.set x c).Conserved F L :=
  h.congr rfl rfl

/-- The list as values begins with the node that is seen. -/
theorem Conserved.view_eq (h : s.Conserved F L) (x : ℕ) :
    s.view x = (s.ctx x).withList ((L x).map s.pool.node).head?.toList := by
  rw [NodeHost.view, (h.lists x).eq_head]
  cases L x <;> rfl

/-! ## `HandleNormalPacket` -/

/-- The pointers say about the new list what the values do. -/
theorem finishSegment_spec {p : NodePool} {r : Insertion} {d : Datagram} {bodyLen : UInt32}
    (h : NodePool.Inserts p F as ⟨c.segmentStart d.hdr.seq, u32 (c.segmentLen d.hdr.seq bodyLen)⟩
      (c.segmentLen d.hdr.seq bodyLen) r F' as' k)
    (hfault : ((c.withList (as.map p.node)).insertSegment d.hdr.seq bodyLen).fault = false) :
    (finishSegment c d bodyLen r).withList (as'.map r.pool.node) =
      ((c.withList (as.map p.node)).storeSegment d bodyLen).1.countPacket := by
  have hdata : as'.map r.pool.node = ((c.withList (as.map p.node)).insertSegment d.hdr.seq bodyLen).list := h.data
  have hcur : r.pool.node r.cur = ((c.withList (as.map p.node)).insertSegment d.hdr.seq bodyLen).cur := h.cur
  have hlast : r.pool.next r.cur = none ↔
      ((c.withList (as.map p.node)).insertSegment d.hdr.seq bodyLen).last = true := h.last
  have hfirst : r.head.toList.map r.pool.node =
      ((c.withList (as.map p.node)).insertSegment d.hdr.seq bodyLen).list.head?.toList := by
    rw [← hdata, h.list.eq_head]
    cases as' <;> rfl
  simp only [finishSegment, storeSegment, hfirst, hdata, hcur, hlast, hfault]
  generalize (c.withList (as.map p.node)).insertSegment d.hdr.seq bodyLen = i
  simp only [Bool.or_false]
  cases i.list <;> rfl

theorem Conserved.stays (h : s.Conserved F L) (x : ℕ) : Does s x F (L x) (s.abs x (L x)) s F (L x) 0 :=
  ⟨.refl h.free (h.lists x), fun _ _ => rfl, fun _ _ => rfl, rfl, rfl⟩

theorem Conserved.handleNormalPacket (h : s.Conserved F L) (hl : LaidOut (s.abs x (L x)).toRecvSide) {d : Datagram}
    {bodyLen : UInt32} (hd : d.hdr.seq.toNat + bodyLen.toNat + (s.ctx x).readBufLen.toNat < 2147483648) :
    ∃ F' as' k, Does s x F (L x) ((s.abs x (L x)).handleNormalPacket d bodyLen).1
      (s.handleNormalPacket x d bodyLen) F' as' k := by
  have hnoted : (s.abs x (L x)).dropInsertedACK.noteSegment d.hdr =
      ((s.ctx x).dropInsertedACK.noteSegment d.hdr).withList ((L x).map s.pool.node) := by
    rw [NodeHost.abs, withList_dropInsertedACK]
    rfl
  have hside := toRecvSide_noteSegment (s.abs x (L x)) d.hdr
  rw [hnoted] at hside
  have hstate : (s.abs x (L x)).state = (s.ctx x).state := rfl
  simp only [NodeHost.handleNormalPacket, DtpContext.handleNormalPacket, hstate, hnoted]
  generalize (s.ctx x).dropInsertedACK.noteSegment d.hdr = c at hside
  have hseg : (c.withList ((L x).map s.pool.node)).segmentLen d.hdr.seq bodyLen = c.segmentLen d.hdr.seq bodyLen := rfl
  simp only [hseg]
  split_ifs with hs hpos
  · exact ⟨F, L x, 0, h.stays x⟩
  · -- the segment is stored
    obtain ⟨S, hS⟩ := hl
    rw [← hside] at hS
    have hlen : (c.withList ((L x).map s.pool.node)).readBufLen = (s.abs x (L x)).readBufLen :=
      congrArg RecvSide.readBufLen hside
    have hat := hS.segmentAt (by rw [hlen]; exact hd) hpos
    have hstop := hat.le_stop
    obtain ⟨hfault, -⟩ := hS.insertSegment hat (by omega)
    have hnew : Buffer.Small ⟨c.segmentStart d.hdr.seq, u32 (c.segmentLen d.hdr.seq bodyLen)⟩ := by
      have hival := hat.ival (by omega)
      exact (congrArg (fun i => Ival.hi i < 2147483648) hival).mpr (by dsimp only; omega)
    obtain ⟨r, F', as', k, hr, hins⟩ := h.free.insert (h.lists x) (h.nodup x) (h.below x) hS.small hS.separated hnew
    simp only [hr]
    refine ⟨F', as', k, ⟨?_, fun y hy => Function.update_of_ne hy _ _, fun y hy => Function.update_of_ne hy _ _, rfl, ?_⟩⟩
    · refine ⟨hins.free, hins.brk, hins.perm, ?_, hins.frame⟩
      simp only [Function.update_self]
      exact hins.list
    · change (Function.update s.ctx x _ x).withList (as'.map r.pool.node) = _
      rw [Function.update_self]
      exact finishSegment_spec hins hfault
  · exact ⟨F, L x, 0, h.set x c.countPacket⟩

/-! ## `dtp_recv` -/

theorem Conserved.consumeHead (h : s.Conserved F L) (x : ℕ) (len : ℤ) :
    ∃ F' as', Does s x F (L x) ((s.abs x (L x)).consumeHead len) (s.consumeHead x len) F' as' 0 := by
  have hlist := h.lists x
  have hnd := h.nodup x
  have hbelow := h.below x
  rw [NodeHost.abs]
  cases hL : L x with
  | nil =>
    rw [hL] at hlist
    have hhead : s.head x = none := hlist
    have hset := h.set x ((s.ctx x).assert false)
    rw [hL] at hset
    refine ⟨F, [], ?_⟩
    simp only [NodeHost.consumeHead, hhead]
    exact hset
  | cons a as =>
    rw [hL] at hlist hnd hbelow
    obtain ⟨hhead, htail⟩ := hlist
    obtain ⟨haF, haas⟩ : a ∉ F ∧ a ∉ as := by
      have hnot : a ∉ F ++ as := (List.nodup_cons.mp (List.perm_middle.nodup_iff.mp hnd)).1
      rwa [List.mem_append, not_or] at hnot
    have hkeep : ∀ v w : Buffer, as.map (Function.update (Function.update s.pool.node a v) a w) = as.map s.pool.node := by
      intro v w
      refine List.map_congr_left fun y hy => ?_
      have hne : y ≠ a := fun heq => haas (heq ▸ hy)
      rw [Function.update_of_ne hne, Function.update_of_ne hne]
    by_cases hz : (s.pool.node a).len - u32 len = 0
    · -- the node is drained
      have hfree : ∀ v, ((s.pool.setNode a v).addToFreeBufferList a).Free (a :: F) := by
        intro v
        have hstored : (s.pool.setNode a v).Free F := h.free.congr rfl
        exact hstored.addToFreeBufferList haF (hbelow a List.mem_cons_self)
      have hperm : (a :: F ++ as).Perm (List.range' s.pool.brk 0 ++ F ++ a :: as) := List.perm_middle.symm
      refine ⟨a :: F, as, ?_⟩
      simp only [NodeHost.consumeHead, hhead, hz, if_true]
      refine ⟨⟨hfree _, rfl, hperm, ?_, ?_⟩, fun y hy => Function.update_of_ne hy _ _,
        fun y hy => Function.update_of_ne hy _ _, rfl, ?_⟩
      · simp only [NodeHost.set, Function.update_self]
        exact htail.update haas none
      · intro y hy hyF hyas
        rw [List.mem_cons, not_or] at hyas
        refine ⟨?_, Function.update_of_ne hyas.1 _ _⟩
        change Function.update (Function.update s.pool.node a _) a _ y = _
        rw [Function.update_of_ne hyas.1, Function.update_of_ne hyas.1]
      · rw [List.map_cons, withList_consumeHead, if_pos hz, NodeHost.abs, ctx_set, ← hkeep _ _, ← headMatches_head]
        have hseen : (as.map (Function.update (Function.update s.pool.node a ⟨(s.pool.node a).seq + u32 len, 0⟩) a
            ⟨0, 0⟩)).head?.toList = (s.pool.next a).toList.map
              (Function.update (Function.update s.pool.node a ⟨(s.pool.node a).seq + u32 len, 0⟩) a ⟨0, 0⟩) := by
          rw [htail.eq_head]
          cases as <;> rfl
        simp only [NodeHost.view, Function.update_self]
        rw [hseen]
        rfl
    · refine ⟨F, a :: as, ?_⟩
      simp only [NodeHost.consumeHead, hhead, hz, if_false]
      refine ⟨⟨h.free.congr rfl, rfl, by simp, ⟨hhead, htail⟩, ?_⟩, fun _ _ => rfl, fun _ _ => rfl, rfl, ?_⟩
      · intro y hy hyF hyas
        rw [List.mem_cons, not_or] at hyas
        exact ⟨Function.update_of_ne hyas.1 _ _, rfl⟩
      · rw [List.map_cons, withList_consumeHead, if_neg hz]
        change (s.ctx x).withList (List.map (Function.update s.pool.node a _) (a :: as)) = _
        rw [List.map_cons, Function.update_self]
        congr 2
        refine List.map_congr_left fun y hy => ?_
        have hne : y ≠ a := fun heq => haas (heq ▸ hy)
        exact Function.update_of_ne hne _ _

/-- A store that is made alike with and without the list. -/
theorem Does.update (h : Does s x F as c s' F' as' k) {f : DtpContext → DtpContext}
    (hf : ∀ (c : DtpContext) (l : List Buffer), f (c.withList l) = (f c).withList l) :
    Does s x F as (f c) (s'.set x (f (s'.ctx x))) F' as' k := by
  have hset := h.set_after (f (s'.ctx x))
  rwa [← hf, ← NodeHost.abs, h.abs] at hset

variable (h : s.Conserved F L)
include h

theorem Conserved.consume (x : ℕ) (len : ℤ) :
    ∃ F' as', Does s x F (L x) ((s.abs x (L x)).consume len) (s.consume x len) F' as' 0 := by
  obtain ⟨F', as', hdoes⟩ := (h.set_conserved x ((s.ctx x).advanceRead len)).consumeHead x len
  have hread : (s.set x ((s.ctx x).advanceRead len)).abs x (L x) = (s.abs x (L x)).advanceRead len := by
    rw [NodeHost.abs, ctx_set]
    rfl
  rw [hread] at hdoes
  have hrest := hdoes.set_before.update (f := fun c => (c.slideReadBuf len).noteDrained.reopenWindow.chargeBlock len)
    fun c l => by
      rw [withList_slideReadBuf, withList_noteDrained, withList_reopenWindow]
      rfl
  exact ⟨F', as', hrest⟩

theorem Conserved.recvBody (x length : ℕ) (msgPeek woken : Bool) :
    ∃ F' as', Does s x F (L x) ((s.abs x (L x)).recvBody length msgPeek woken).1
      (s.recvBody x length msgPeek woken).1 F' as' 0 := by
  have hsize : (s.abs x (L x)).getReadBufDataSize = (s.ctx x).getReadBufDataSize := rfl
  have hstate : (s.abs x (L x)).state = (s.ctx x).state := rfl
  simp only [NodeHost.recvBody, DtpContext.recvBody, hsize, hstate]
  generalize minSize length (s.ctx x).getReadBufDataSize = len
  generalize (!(woken && decide (0 < len) && decide ((s.ctx x).state = .closeWait))) = b
  have habs : ∀ b, (s.set x ((s.ctx x).assert b)).abs x (L x) = (s.abs x (L x)).assert b := by
    intro b
    rw [NodeHost.abs, ctx_set]
    rfl
  have hclosing : ((s.abs x (L x)).assert b).state = ((s.ctx x).assert b).state := rfl
  have hnonblock : ((s.abs x (L x)).assert b).nonblock = ((s.ctx x).assert b).nonblock := rfl
  have hholds : ((s.set x ((s.ctx x).assert b)).view x).headHolds len = ((s.abs x (L x)).assert b).headHolds len := by
    rw [(h.set_conserved x _).view_eq, headHolds_head, ← habs b]
    rfl
  simp only [ctx_set, hclosing, hnonblock, hholds]
  generalize ((s.abs x (L x)).assert b).headHolds len = holds
  have hmade := h.set x ((s.ctx x).assert b)
  split_ifs
  · exact ⟨F, L x, hmade⟩
  · exact ⟨F, L x, hmade⟩
  · exact ⟨F, L x, hmade.set_after { (s.ctx x).assert b with isReadBlocked := true }⟩
  · exact ⟨F, L x, hmade.set_after (((s.ctx x).assert b).assert holds)⟩
  · have hset := (h.set_conserved x ((s.ctx x).assert b)).set_conserved x (((s.ctx x).assert b).assert holds)
    obtain ⟨F', as', hdoes⟩ := hset.consume x len
    rw [NodeHost.abs, ctx_set] at hdoes
    exact ⟨F', as', hdoes.set_before.set_before⟩
  · exact ⟨F, L x, hmade⟩

theorem Conserved.dtpRecv (x length : ℕ) (msgPeek : Bool) :
    ∃ F' as', Does s x F (L x) ((s.abs x (L x)).dtpRecv length msgPeek).1 (s.dtpRecv x length msgPeek).1 F' as' 0 := by
  have hactive : (s.abs x (L x)).isActive = (s.ctx x).isActive := rfl
  have htimedOut : (s.abs x (L x)).connTimedOut = (s.ctx x).connTimedOut := rfl
  have hreset : (s.abs x (L x)).connReset = (s.ctx x).connReset := rfl
  simp only [NodeHost.dtpRecv, DtpContext.dtpRecv, hactive, htimedOut, hreset]
  split_ifs
  · exact ⟨F, L x, h.stays x⟩
  · exact ⟨F, L x, h.stays x⟩
  · exact ⟨F, L x, h.stays x⟩
  · exact ⟨F, L x, h.stays x⟩
  · exact h.recvBody x length msgPeek false

theorem Conserved.dtpRecvWake (x length : ℕ) (msgPeek : Bool) :
    ∃ F' as', Does s x F (L x) ((s.abs x (L x)).dtpRecvWake length msgPeek).1 (s.dtpRecvWake x length msgPeek).1
      F' as' 0 := by
  have hmade := h.set x { s.ctx x with isReadBlocked := false }
  obtain ⟨F', as', hbody⟩ := (h.set_conserved x { s.ctx x with isReadBlocked := false }).recvBody x length msgPeek true
  rw [NodeHost.abs, ctx_set] at hbody
  have htimedOut : (s.abs x (L x)).connTimedOut = (s.ctx x).connTimedOut := rfl
  have hreset : (s.abs x (L x)).connReset = (s.ctx x).connReset := rfl
  simp only [NodeHost.dtpRecvWake, DtpContext.dtpRecvWake, ctx_set, htimedOut, hreset]
  split_ifs
  · exact ⟨F, L x, hmade⟩
  · exact ⟨F, L x, hmade⟩
  · exact ⟨F', as', hbody.set_before⟩

/-! ## `DTPCloseContext` -/

theorem Conserved.dtpCloseContext (x : ℕ) :
    ∃ F' as', Does s x F (L x) (s.abs x (L x)).dtpCloseContext (s.dtpCloseContext x) F' as' 0 := by
  have hactive : (s.abs x (L x)).isActive = (s.ctx x).isActive := rfl
  have hwait : (s.abs x (L x)).waitACK = (s.ctx x).waitACK := rfl
  have hstate : (s.abs x (L x)).state = (s.ctx x).state := rfl
  simp only [NodeHost.dtpCloseContext, DtpContext.dtpCloseContext, hactive, hwait, hstate]
  split_ifs with h1 h2 h3
  · exact ⟨F, L x, h.set x ((s.ctx x).assert false)⟩
  · exact ⟨F, L x, h.stays x⟩
  · exact ⟨F, L x, h.stays x⟩
  · -- no more rounds than nodes
    have hrounds := ItemPool.length_le_brk (h.nodup x).of_append_right (h.below x)
    obtain ⟨p, hp, hfree, hbrk, hframe⟩ := h.free.freeAll (h.lists x) (h.nodup x) (h.below x) hrounds
    simp only [hp]
    refine ⟨(L x).reverse ++ F, [], ⟨hfree, hbrk, ?_, ?_, fun a _ _ ha => hframe a ha⟩,
      fun y hy => Function.update_of_ne hy _ _, fun y hy => Function.update_of_ne hy _ _, rfl, ?_⟩
    · simp only [List.range'_zero, List.nil_append, List.append_nil]
      exact ((List.reverse_perm _).append_right F).trans List.perm_append_comm
    · exact Function.update_self ..
    · change (Function.update s.ctx x _ x).withList _ = _
      rw [Function.update_self]
      rfl

end NodeHost

/-! ## Runs -/

/-- A step of the library that deals with buffer nodes. -/
inductive BufferEvent
  /-- a context is opened -/
  | create (x : ℕ) (c : DtpContext)
  | segment (x : ℕ) (d : Datagram) (bodyLen : UInt32)
  | recv (x length : ℕ) (msgPeek : Bool)
  /-- `dtp_recv` goes on after its wait -/
  | wake (x length : ℕ) (msgPeek : Bool)
  | close (x : ℕ)

/-- A context that has received nothing yet. -/
structure NodeHost.Unread (c : DtpContext) : Prop where
  expected : c.nextByteExpected = c.lastByteRead
  rcvd : c.lastByteRcvd = c.lastByteRead
  len_nonneg : 0 ≤ c.readBufLen
  small : c.lastByteRead.toNat + c.readBufLen.toNat < 2147483648

/-- Any number of contexts get segments, are read from, closed and opened again. The pool is empty at first. -/
def buffering : Machine NodeHost BufferEvent where
  init s := s.pool.free = .init ∧ s.pool.count = 0 ∧ s.pool.brk = 0 ∧ (∀ x, s.head x = none) ∧
    (∀ x, (s.ctx x).isActive = true → NodeHost.Unread (s.ctx x)) ∧ s.stuck = false
  allowed s e :=
    match e with
    | .create x c => (s.ctx x).isActive = false ∧ NodeHost.Unread c
    | .segment x d bodyLen => (s.ctx x).isActive = true ∧
        d.hdr.seq.toNat + bodyLen.toNat + (s.ctx x).readBufLen.toNat < 2147483648
    | .recv _ _ _ => True
    | .wake x _ _ => (s.ctx x).isReadBlocked = true
    | .close _ => True
  apply s e :=
    match e with
    | .create x c => s.set x c
    | .segment x d bodyLen => s.handleNormalPacket x d bodyLen
    | .recv x length msgPeek => (s.dtpRecv x length msgPeek).1
    | .wake x length msgPeek => (s.dtpRecvWake x length msgPeek).1
    | .close x => s.dtpCloseContext x

namespace NodeHost
variable {s s' : NodeHost} {x : ℕ} {F F' : List ℕ} {L : ℕ → List ℕ} {as' : List ℕ} {k : ℕ} {c : DtpContext}

/-- The list of a context is sorted while it is open, and empty when it is closed. -/
structure Settled (c : DtpContext) : Prop where
  laidOut : c.isActive = true → LaidOut c.toRecvSide
  closed : c.isActive = false → c.readBufHead = []

/-- The nodes are conserved, and each context is settled with the values of its nodes. -/
structure Owned (s : NodeHost) (F : List ℕ) (L : ℕ → List ℕ) : Prop where
  conserved : s.Conserved F L
  settled : ∀ x, Settled (s.abs x (L x))
  stuck : s.stuck = false

theorem Owned.step (h : s.Owned F L) (hd : Does s x F (L x) c s' F' as' k) (hc : Settled c) :
    s'.Owned F' (Function.update L x as') := by
  have hhead : s'.head = Function.update s.head x (s'.head x) := by
    funext y
    by_cases hy : y = x
    · rw [hy, Function.update_self]
    · rw [Function.update_of_ne hy, hd.head y hy]
  refine ⟨h.conserved.rework hd.rework hhead, fun y => ?_, hd.stuck.trans h.stuck⟩
  by_cases hy : y = x
  · rw [hy, Function.update_self, hd.abs]
    exact hc
  · have hsame : s'.abs y (L y) = s.abs y (L y) := by
      rw [NodeHost.abs, NodeHost.abs, hd.ctx y hy]
      congr 1
      exact List.map_congr_left fun a ha => (h.conserved.keeps hd.rework hy ha).2.2.1
    rw [Function.update_of_ne hy, hsame]
    exact h.settled y

theorem Settled.unread (h : Unread c) : Settled (c.withList []) :=
  ⟨fun _ => ⟨fun _ => 0, .of_empty _ rfl h.expected h.rcvd h.len_nonneg h.small⟩, fun _ => rfl⟩

theorem Settled.handleNormalPacket (h : Settled c) (ha : c.isActive = true) {d : Datagram} {bodyLen : UInt32}
    (hd : d.hdr.seq.toNat + bodyLen.toNat + c.readBufLen.toNat < 2147483648) :
    Settled (c.handleNormalPacket d bodyLen).1 := by
  have hactive : (c.handleNormalPacket d bodyLen).1.isActive = true := by
    have hdrop : c.dropInsertedACK.isActive = c.isActive := by
      obtain heq | heq | ⟨p, q, -, heq⟩ := dropInsertedACK_cases c <;> rw [heq]
      rfl
    simp only [DtpContext.handleNormalPacket]
    split_ifs
    · exact ha
    · exact hdrop.trans ha
    · exact hdrop.trans ha
  exact ⟨fun _ => (h.laidOut ha).handleNormalPacket hd, fun hc => absurd (hactive.symm.trans hc) (by decide)⟩

theorem consume_nil (h : c.readBufHead = []) (len : ℤ) : (c.consume len).readBufHead = [] := by
  have hlist : c = c.withList [] := by rw [← h, DtpContext.withList]
  have hhead : ((c.withList []).advanceRead len).consumeHead len = ((c.advanceRead len).assert false).withList [] := rfl
  rw [hlist, DtpContext.consume, hhead, withList_slideReadBuf, withList_noteDrained, withList_reopenWindow]
  rfl

/-- Reading does not refill the list. -/
theorem recvBody_nil (h : c.readBufHead = []) (length : ℕ) (msgPeek woken : Bool) :
    (c.recvBody length msgPeek woken).1.readBufHead = [] := by
  simp only [DtpContext.recvBody]
  generalize minSize length c.getReadBufDataSize = len
  generalize (!(woken && decide (0 < len) && decide (c.state = .closeWait))) = b
  split_ifs
  · exact h
  · exact h
  · exact h
  · exact h
  · exact consume_nil (c := (c.assert b).assert ((c.assert b).headHolds len)) h len
  · exact h

theorem Settled.recvBody (h : Settled c) (length : ℕ) (msgPeek woken : Bool) :
    Settled (c.recvBody length msgPeek woken).1 := by
  have hactive : (c.recvBody length msgPeek woken).1.isActive = c.isActive :=
    congrArg Lifecycle.isActive (RecvFrame.recvBody c length msgPeek woken).lifecycle
  exact ⟨fun ha => (h.laidOut (hactive.symm.trans ha)).recvBody length msgPeek woken,
    fun ha => recvBody_nil (h.closed (hactive.symm.trans ha)) length msgPeek woken⟩

theorem Settled.dtpRecv (h : Settled c) (length : ℕ) (msgPeek : Bool) : Settled (c.dtpRecv length msgPeek).1 := by
  simp only [DtpContext.dtpRecv]
  split_ifs
  · exact h
  · exact h
  · exact h
  · exact h
  · exact h.recvBody length msgPeek false

theorem Settled.dtpRecvWake (h : Settled c) (length : ℕ) (msgPeek : Bool) :
    Settled (c.dtpRecvWake length msgPeek).1 := by
  have hwoken : Settled { c with isReadBlocked := false } := ⟨h.laidOut, h.closed⟩
  simp only [DtpContext.dtpRecvWake]
  split_ifs
  · exact hwoken
  · exact hwoken
  · exact hwoken.recvBody length msgPeek true

theorem Settled.dtpCloseContext (h : Settled c) : Settled c.dtpCloseContext := by
  simp only [DtpContext.dtpCloseContext]
  split_ifs
  · exact ⟨h.laidOut, h.closed⟩
  · exact h
  · exact h
  · exact ⟨fun hc => absurd hc Bool.false_ne_true, fun _ => rfl⟩

end NodeHost

open NodeHost in
theorem owned_of_reachable {s : NodeHost} (hs : buffering.Reachable s) : ∃ F L, s.Owned F L := by
  refine Machine.Reachable.invariant (P := fun s => ∃ F L, s.Owned F L) ?_ ?_ hs
  · rintro s ⟨hfree, hcount, hbrk, hhead, hunread, hstuck⟩
    have hempty : s.pool.Free [] := ⟨hfree ▸ TailQueues.holds_init, hcount, by simp⟩
    refine ⟨[], fun _ => [], ⟨hempty, hhead, by simp, by simp, by simp, by omega⟩, fun x => ?_, hstuck⟩
    exact ⟨fun ha => (Settled.unread (hunread x ha)).laidOut ha, fun _ => rfl⟩
  · rintro s e ⟨F, L, h⟩ he
    cases e with
    | create x c =>
      obtain ⟨hclosed, hunread⟩ := he
      have hnil : L x = [] := List.map_eq_nil_iff.mp ((h.settled x).closed hclosed)
      refine ⟨_, _, h.step (h.conserved.set x c) ?_⟩
      rw [hnil]
      exact .unread hunread
    | segment x d bodyLen =>
      obtain ⟨hactive, hseq⟩ := he
      obtain ⟨F', as', k, hd⟩ := h.conserved.handleNormalPacket ((h.settled x).laidOut hactive) hseq
      exact ⟨_, _, h.step hd ((h.settled x).handleNormalPacket hactive hseq)⟩
    | recv x length msgPeek =>
      obtain ⟨F', as', hd⟩ := h.conserved.dtpRecv x length msgPeek
      exact ⟨_, _, h.step hd ((h.settled x).dtpRecv length msgPeek)⟩
    | wake x length msgPeek =>
      obtain ⟨F', as', hd⟩ := h.conserved.dtpRecvWake x length msgPeek
      exact ⟨_, _, h.step hd ((h.settled x).dtpRecvWake length msgPeek)⟩
    | close x =>
      obtain ⟨F', as', hd⟩ := h.conserved.dtpCloseContext x
      exact ⟨_, _, h.step hd (h.settled x).dtpCloseContext⟩

/-- In every run each node that was ever allocated is either in the free list or in the list of one context. -/
theorem nodes_conserved {s : NodeHost} (hs : buffering.Reachable s) :
    s.stuck = false ∧ ∃ (F : List ℕ) (L : ℕ → List ℕ),
      s.pool.free.Holds (fun _ => F) ∧ s.pool.count = F.length ∧ F.Nodup ∧ (∀ a ∈ F, a < s.pool.brk) ∧
      (∀ x, Seg s.pool.next (s.head x) (L x) none ∧ (L x).Nodup ∧ ∀ a ∈ L x, a < s.pool.brk) ∧
      ∀ a < s.pool.brk, (a ∈ F ∧ ∀ x, a ∉ L x) ∨ (a ∉ F ∧ ∃! x, a ∈ L x) := by
  obtain ⟨F, L, ⟨h, -, hstuck⟩⟩ := owned_of_reachable hs
  have hapart : ∀ a ∈ F, ∀ x, a ∉ L x := fun a ha x hx => (List.nodup_append.mp (h.nodup x)).2.2 a ha a hx rfl
  refine ⟨hstuck, F, L, h.free.holds, h.free.count, h.free.nodup, h.free.below,
    fun x => ⟨h.lists x, (h.nodup x).of_append_right, h.below x⟩, fun a ha => ?_⟩
  rcases h.all a ha with hF | ⟨x, hx⟩
  · exact Or.inl ⟨hF, hapart a hF⟩
  · refine Or.inr ⟨fun hF => hapart a hF x hx, x, hx, fun y hy => ?_⟩
    by_contra hne
    exact h.apart y x hne a hy hx

def sampleNodes : NodeHost where
  pool := { toItemPool := .empty, node := fun _ => ⟨0, 0⟩, next := fun _ => none }
  ctx _ := sampleReceiver
  head _ := none
  stuck := false

def sampleNodeRun : NodeHost :=
  buffering.run sampleNodes [.segment 0 (sampleSegment 1 2) 2, .segment 0 (sampleSegment 5 2) 2,
    .segment 0 (sampleSegment 2 4) 4, .recv 0 6 false, .close 0]

/-- Two segments come out of order, a third joins them, the application reads in vain, and the context is closed. -/
theorem nodes_conserved_sample : sampleNodeRun.stuck = false ∧
    ∃ F : List ℕ, sampleNodeRun.pool.free.Holds (fun _ => F) ∧ sampleNodeRun.pool.count = F.length := by
  have hunread : NodeHost.Unread sampleReceiver := ⟨rfl, rfl, by decide, by decide⟩
  have hinit : buffering.init sampleNodes := ⟨rfl, rfl, rfl, fun _ => rfl, fun _ _ => hunread, rfl⟩
  have hrun : buffering.Reachable sampleNodeRun :=
    Machine.Reachable.run (.init hinit)
      ⟨⟨rfl, by decide⟩, ⟨by decide +kernel, by decide +kernel⟩, ⟨by decide +kernel, by decide +kernel⟩,
        trivial, trivial, trivial⟩
  obtain ⟨hstuck, F, -, hfree, hcount, -⟩ := nodes_conserved hrun
  exact ⟨hstuck, F, hfree, hcount⟩

end Cedos.Dtp
