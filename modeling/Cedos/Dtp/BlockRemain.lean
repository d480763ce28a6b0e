import Cedos.Dtp.InFlight
import Cedos.Dtp.Reassembly

/-!
# What remains of the blocks

The application announces a block with `DTP_SO_BLOCKSIZE`, and `dtp_recv` counts what it returns against
`tc_blockRemain`. It does so from the first byte on, also when no block has been announced: the header of
a response, which is read before the size of the block is known, is counted against the block that
follows.
-/

namespace Cedos.Dtp

open DtpContext

/-- The bytes that are there for a `dtp_recv`, unless it fails; a peek does not take them. -/
def ConnEvent.demand (c : DtpContext) : ConnEvent → ℕ
  | .own (.recv length false) =>
    if c.isActive && !c.connTimedOut && !c.connReset then (minSize length c.getReadBufDataSize).toNat else 0
  | .own (.recvWake length false) =>
    if !c.connTimedOut && !c.connReset then (minSize length c.getReadBufDataSize).toNat else 0
  | _ => 0

/-- The block that a call of `dtp_setsockopt` announces. -/
def ConnEvent.blockSet (c : DtpContext) : ConnEvent → Option UInt32
  | .option (.blockSize n) env => if c.isActive && env.lenOk then some n else none
  | _ => none

/-- The bytes that a `dtp_recv` without `MSG_PEEK` returns. -/
def ConnEvent.bytesRead (c : DtpContext) : ConnEvent → List UInt8
  | .own (.recv length false) => (c.dtpRecv length false).2.bytes
  | .own (.recvWake length false) => (c.dtpRecvWake length false).2.bytes
  | _ => []

section Events
variable {c c' : DtpContext}

/-- Only reading and the options change the count. -/
theorem blockRemain_of_acts {K : List ActKind} (h : Acts K c c')
    (hK : ∀ k ∈ K, k ∉ [.charge, .tune]) : c'.blockRemain = c.blockRemain :=
  h.invariant (P := fun x => x.blockRemain = c.blockRemain)
    (fun k hk _ _ ha ih => by
      refine Eq.trans ?_ ih
      have hkind := hK k hk
      cases ha with
      | fallBack _ _ =>
        rw [fallBack, unsendFIN]
        split_ifs <;> rfl
      | reconnect _ | switch _ _ _ =>
        simp only [dtpReconnect]
        split <;> rfl
      | released _ =>
        simp only [dtpCloseContext]
        split_ifs <;> rfl
      | charge _ _ | tune => exact absurd hkind (by decide)
      | _ => rfl)
    rfl

section
variable (c : DtpContext)

theorem blockRemain_consume {len : ℤ} (hpos : 0 < len) :
    (c.consume len).blockRemain = c.blockRemain - UInt32.ofNat len.toNat := by
  have hsame := blockRemain_of_acts (Acts.uncharged c len) (by decide)
  have hword : u32 len = UInt32.ofNat len.toNat := by
    rw [← u32_natCast, Int.toNat_of_nonneg hpos.le]
  rw [consume, chargeBlock, hsame, hword]

/-- The waiting part of `dtp_recv` returns the bytes that are there and counts them. -/
theorem recvBody_charges (length : ℕ) (woken : Bool) : (c.recvBody length false woken).1.blockRemain =
    c.blockRemain - UInt32.ofNat (minSize length c.getReadBufDataSize).toNat ∧
    (c.recvBody length false woken).2.bytes.length = (minSize length c.getReadBufDataSize).toNat := by
  have hzero {n : ℤ} (h : ¬0 < n) : c.blockRemain = c.blockRemain - UInt32.ofNat n.toNat := by
    rw [Int.toNat_of_nonpos (not_lt.mp h)]
    exact (UInt32.sub_zero _).symm
  simp only [recvBody, Bool.false_eq_true, if_false]
  split_ifs with hlen hclosing hnonblock hpos
  · exact ⟨hzero hlen.not_gt, by simp [hlen, CallResult.bytes]⟩
  · exact ⟨hzero hlen.not_gt, by simp [hlen, CallResult.bytes]⟩
  · exact ⟨hzero hlen.not_gt, by simp [hlen, CallResult.bytes]⟩
  · exact ⟨blockRemain_consume _ hpos, by simp [CallResult.bytes]⟩
  · exact ⟨hzero hpos, by simp [Int.toNat_of_nonpos (not_lt.mp hpos), CallResult.bytes]⟩

theorem blockRemain_dtpSetsockopt (o : SockOpt) (env : SockoptEnv) :
    (c.dtpSetsockopt o env).1.blockRemain = c.blockRemain + ((ConnEvent.option o env).blockSet c).getD 0 := by
  by_cases hblock : ∃ n, o = .blockSize n
  · obtain ⟨n, rfl⟩ := hblock
    simp only [dtpSetsockopt, ConnEvent.blockSet, setOption, addBlock, SockOpt.checksLen, Bool.true_and]
    cases c.isActive <;> cases env.lenOk <;> simp
  · have hset : (ConnEvent.option o env).blockSet c = none := by
      cases o with
      | blockSize n => exact absurd ⟨n, rfl⟩ hblock
      | _ => rfl
    rw [hset]
    have hadj := adjusts_dtpSetsockopt c o env
    generalize (c.dtpSetsockopt o env).1 = c' at hadj ⊢
    cases hadj with
    | block n => exact absurd ⟨n, rfl⟩ hblock
    | _ => exact (UInt32.add_zero _).symm

theorem dtpRecv_charges (length : ℕ) : (c.dtpRecv length false).1.blockRemain =
    c.blockRemain - UInt32.ofNat ((ConnEvent.own (.recv length false)).demand c) ∧
    (c.dtpRecv length false).2.bytes.length = (ConnEvent.own (.recv length false)).demand c := by
  rw [dtpRecv]
  split_ifs with hoff htime hreset hlen
  · have hactive : c.isActive = false := by simpa using hoff
    simp [ConnEvent.demand, hactive, CallResult.bytes]
  · simp [ConnEvent.demand, htime, CallResult.bytes]
  · simp [ConnEvent.demand, hreset, CallResult.bytes]
  · have hempty : (minSize length c.getReadBufDataSize).toNat = 0 := by
      rw [hlen, minSize]
      split_ifs
      · rfl
      · omega
    simp [ConnEvent.demand, hempty, CallResult.bytes]
  · have hactive : c.isActive = true := by simpa using hoff
    simpa [ConnEvent.demand, hactive, htime, hreset] using recvBody_charges c length false

theorem dtpRecvWake_charges (length : ℕ) : (c.dtpRecvWake length false).1.blockRemain =
    c.blockRemain - UInt32.ofNat ((ConnEvent.own (.recvWake length false)).demand c) ∧
    (c.dtpRecvWake length false).2.bytes.length = (ConnEvent.own (.recvWake length false)).demand c := by
  simp only [dtpRecvWake]
  split_ifs with htime hreset
  · simp [ConnEvent.demand, htime, CallResult.bytes]
  · simp [ConnEvent.demand, hreset, CallResult.bytes]
  · have hbody := recvBody_charges { c with isReadBlocked := false } length true
    have hdemand : (ConnEvent.own (.recvWake length false)).demand c = (minSize length c.getReadBufDataSize).toNat := by
      simp [ConnEvent.demand, htime, hreset]
    rw [hdemand]
    exact hbody

end

theorem ConnEvent.charges (k : Crypto) (c : DtpContext) (e : ConnEvent) : (e.apply k c).blockRemain =
    c.blockRemain - UInt32.ofNat (e.demand c) + (e.blockSet c).getD 0 ∧ (e.bytesRead c).length = e.demand c := by
  have hkept {x : DtpContext} (h : x.blockRemain = c.blockRemain) :
      x.blockRemain = c.blockRemain - UInt32.ofNat 0 + 0 := by
    simpa using h
  have hacts {e : ConnEvent} (h : ∀ a ∈ e.kinds, a ∉ [.charge, .tune]) :=
    hkept (blockRemain_of_acts (Acts.conn k c e) h)
  cases e with
  | syn d addr hid key pad => exact ⟨hacts (by simp only [ConnEvent.kinds]; decide), rfl⟩
  | option o env =>
    refine ⟨(blockRemain_dtpSetsockopt c o env).trans ?_, rfl⟩
    simp [ConnEvent.demand]
  | own e =>
    cases e with
    | recv length msgPeek =>
      cases msgPeek with
      | true =>
        refine ⟨hkept ?_, rfl⟩
        simp only [ConnEvent.apply, Event.apply, dtpRecv, recvBody, if_true]
        split_ifs <;> rfl
      | false =>
        obtain ⟨hremain, hlen⟩ := dtpRecv_charges c length
        exact ⟨hremain.trans (UInt32.add_zero _).symm, hlen⟩
    | recvWake length msgPeek =>
      cases msgPeek with
      | true =>
        refine ⟨hkept ?_, rfl⟩
        simp only [ConnEvent.apply, Event.apply, dtpRecvWake, recvBody, if_true]
        split_ifs <;> rfl
      | false =>
        obtain ⟨hremain, hlen⟩ := dtpRecvWake_charges c length
        exact ⟨hremain.trans (UInt32.add_zero _).symm, hlen⟩
    | _ => exact ⟨hacts (by simp only [ConnEvent.kinds, Event.kinds]; decide), rfl⟩

end Events

/-! ## Runs -/

/-- A connection, the blocks announced so far, and the bytes that calls of `dtp_recv` have returned since the first of
them. -/
structure BlockLedger where
  ctx : DtpContext
  sizes : List UInt32 := []
  read : ℕ := 0
  /-- a subtraction has gone below zero -/
  wrapped : Bool := false

def BlockLedger.total (s : BlockLedger) : ℕ := (s.sizes.map UInt32.toNat).sum

/-- The events of a connection on which nothing has been counted. -/
def blocks (k : Crypto) (c₀ : DtpContext) : Machine BlockLedger ConnEvent where
  init s := s = { ctx := c₀ }
  allowed s e := e.offered s.ctx
  apply s e :=
    { ctx := e.apply k s.ctx
      sizes := s.sizes ++ (e.blockSet s.ctx).toList
      read := if s.sizes = [] then s.read else s.read + (e.bytesRead s.ctx).length
      wrapped := s.wrapped || decide (s.ctx.blockRemain.toNat < (e.bytesRead s.ctx).length) }

/-- `tc_blockRemain` is what has been announced less what has been read, and no subtraction has wrapped. -/
def BlockLedger.Exact (s : BlockLedger) : Prop :=
  s.ctx.blockRemain.toNat + s.read = s.total ∧ s.wrapped = false

/-- Nothing is read before the first block is announced, no more is read than has been announced, and what is
outstanding stays below `2 ^ 32`. -/
def Announced (s : BlockLedger) (e : ConnEvent) : Prop :=
  (0 < e.demand s.ctx → s.sizes ≠ [] ∧ s.read + e.demand s.ctx ≤ s.total) ∧
    ∀ n, e.blockSet s.ctx = some n → s.total + n.toNat < s.read + 4294967296

section Runs
variable {k : Crypto} {c₀ : DtpContext} {s : BlockLedger}

theorem BlockLedger.Exact.step (h : s.Exact) {e : ConnEvent} (he : Announced s e) :
    ((blocks k c₀).apply s e).Exact := by
  obtain ⟨hremain, hlen⟩ := e.charges k s.ctx
  obtain ⟨hexact, hwrap⟩ := h
  obtain ⟨hdemand, hset⟩ := he
  have hsum (l : List UInt32) : ((s.sizes ++ l).map UInt32.toNat).sum = s.total + (l.map UInt32.toNat).sum := by
    rw [List.map_append, List.sum_append, BlockLedger.total]
  have hread : (if s.sizes = [] then s.read else s.read + (e.bytesRead s.ctx).length) = s.read + e.demand s.ctx := by
    rw [hlen]
    split_ifs with hnone
    · by_contra hpos
      exact (hdemand (by omega)).1 hnone
    · rfl
  have hle : s.read + e.demand s.ctx ≤ s.total := by
    by_cases hpos : 0 < e.demand s.ctx
    · exact (hdemand hpos).2
    · omega
  have hword : (UInt32.ofNat (e.demand s.ctx)).toNat = e.demand s.ctx :=
    UInt32.toNat_ofNat_of_lt' (lt_of_le_of_lt (by omega) s.ctx.blockRemain.toNat_lt)
  have hsub : (s.ctx.blockRemain - UInt32.ofNat (e.demand s.ctx)).toNat = s.ctx.blockRemain.toNat - e.demand s.ctx := by
    rw [toNat_sub_word (by omega), hword]
  refine ⟨?_, ?_⟩
  · change (e.apply k s.ctx).blockRemain.toNat + (if s.sizes = [] then s.read else _) =
      ((s.sizes ++ (e.blockSet s.ctx).toList).map UInt32.toNat).sum
    rw [hremain, hread, hsum]
    cases hblock : e.blockSet s.ctx with
    | none =>
      simp only [Option.getD_none, UInt32.add_zero, Option.toList_none, List.map_nil, List.sum_nil, hsub]
      omega
    | some n =>
      have hroom := hset n hblock
      rw [Option.getD_some, toNat_add_word (by omega), hsub]
      simp only [Option.toList_some, List.map_cons, List.map_nil, List.sum_singleton]
      omega
  · change (s.wrapped || decide (s.ctx.blockRemain.toNat < (e.bytesRead s.ctx).length)) = false
    rw [hwrap, hlen, Bool.false_or, decide_eq_false_iff_not]
    omega

/-- **Remaining-block accounting.**  If nothing is read that has not been announced, and what is outstanding fits the
word, then in every state `tc_blockRemain` is the sum of the blocks less the bytes read since the first of them. -/
theorem block_remain_exact (hc₀ : c₀.blockRemain = 0) (hs : ((blocks k c₀).restrict Announced).Reachable s) :
    s.Exact := by
  refine Machine.Reachable.invariant (P := BlockLedger.Exact) ?_ ?_ hs
  · rintro s rfl
    exact ⟨by simp [hc₀, BlockLedger.total], rfl⟩
  · intro s e h he
    have hstep : ((blocks k c₀).apply s e).Exact := h.step he.2
    exact hstep

end Runs

def fourBytes : ConnEvent := .own (.batch ⟨none, [sampleSegment 0 4]⟩)

/-- An option call that gets its value. -/
def announce (n : UInt32) : ConnEvent := .option (.blockSize n) ⟨true, true, .done ()⟩

/-- A block of six bytes is announced before four of them are read. -/
theorem block_remain_exact_announced :
    ∃ s, ((blocks sampleCrypto sampleReceiver).restrict Announced).Reachable s ∧ s.read = 4 ∧ s.Exact := by
  have hadm : ((blocks sampleCrypto sampleReceiver).restrict Announced).Admits { ctx := sampleReceiver }
      [announce 6, fourBytes, .own (.recv 10 false)] := by
    refine ⟨⟨trivial, ?_⟩, ⟨⟨by decide, by decide⟩, ?_⟩, ⟨trivial, ?_⟩, trivial⟩
    · exact ⟨by decide +kernel, fun n hn => by cases hn; decide⟩
    · exact ⟨by decide +kernel, fun n hn => by cases hn⟩
    · exact ⟨by decide +kernel, fun n hn => by cases hn⟩
  have hrun := Machine.Reachable.run (.init rfl) hadm
  exact ⟨_, hrun, by decide +kernel, block_remain_exact rfl hrun⟩

/-- Four bytes are read before a block of six is announced: they are counted against it, after a subtraction that has
wrapped. -/
theorem header_counted : ∃ s, (blocks sampleCrypto sampleReceiver).Reachable s ∧ s.sizes = [6] ∧ s.read = 0 ∧
    s.ctx.blockRemain = 2 ∧ s.wrapped = true ∧ ¬s.Exact := by
  have hadm : (blocks sampleCrypto sampleReceiver).Admits { ctx := sampleReceiver }
      [fourBytes, .own (.recv 10 false), announce 6] :=
    ⟨⟨by decide, by decide⟩, trivial, trivial, trivial⟩
  refine ⟨_, Machine.Reachable.run (.init rfl) hadm, by decide +kernel, by decide +kernel, by decide +kernel,
    by decide +kernel, ?_⟩
  unfold BlockLedger.Exact
  decide +kernel

end Cedos.Dtp
