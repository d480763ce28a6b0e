import Cedos.Lib.Bytes
import Cedos.Lib.Run

/-!
# `ngx_linux_sendfile_chain` on a DTP socket

The proxy sends a chain of buffers in memory, with special buffers in between. Neighbouring buffers are joined into
vectors, up to a limit that can cut the last one; the vectors are written one by one, until `dtp_write` takes less
than it is given; and the number of bytes taken is subtracted from the chain. The vectors are at most `limit` bytes
together, so they and the result of the writes fit into an `int`.

A chain has no file buffers here, so that the part of the function about `dtp_sendfile` is not reached. `dtp_write`
does not fail with `EINTR`.
-/

namespace Cedos.Proxy

/-- `ngx_buf_t`: a special buffer, or the memory from `pos` to `last`. -/
structure Buf where
  special : Bool
  pos : ℕ
  last : ℕ
  deriving DecidableEq, Repr

/-- `ngx_buf_size`. -/
def Buf.size (b : Buf) : ℕ := b.last - b.pos

structure Iovec where
  base : ℕ
  len : ℕ
  deriving DecidableEq, Repr

/-- What a `dtp_write` comes to: up to `n` bytes are taken, there is no room, or it fails otherwise. -/
inductive WriteResult
  | took (n : ℕ)
  | eagain
  | error

def iovMax : ℕ := 1024

/-- `NGX_HEADERS`. -/
def nHeaders : ℕ := 64

def sendfileLimit : ℤ := 2147483647

/-! ## The vectors -/

/-- The vectors, the last one first, the end of the last one, and the number of bytes. -/
structure Gather where
  header : List Iovec
  prev : Option ℕ
  send : ℤ

/-- `iov->iov_len += size`. -/
def extend (n : ℕ) : List Iovec → List Iovec
  | [] => []
  | v :: vs => { v with len := v.len + n } :: vs

/-- Create the vectors and coalesce the neighbouring buffers; `none` if the array cannot grow. -/
def gather (limit : ℤ) (alloc : ℕ → Bool) : Gather → List Buf → Option Gather
  | g, [] => some g
  | g, b :: bs =>
    if limit ≤ g.send then some g
    else if b.special then gather limit alloc g bs
    else
      let size := if limit < g.send + b.size then limit - g.send else (b.size : ℤ)
      let prev := some (b.pos + size.toNat)
      if g.prev = some b.pos then gather limit alloc ⟨extend size.toNat g.header, prev, g.send + size⟩ bs
      else if iovMax ≤ g.header.length then some g
      else if nHeaders ≤ g.header.length ∧ alloc g.header.length = false then none
      else gather limit alloc ⟨⟨b.pos, size.toNat⟩ :: g.header, prev, g.send + size⟩ bs

/-! ## The writes -/

/-- The calls of `dtp_write` so far and the bytes they have taken, `rc`, and whether an error other than `EAGAIN` has
ended the loop. -/
structure Written where
  writes : ℕ
  out : List UInt8
  rc : ℤ
  failed : Bool

/-- `rc > 0 ? rc : 0`. -/
def Written.sent (w : Written) : ℕ := if 0 < w.rc then w.rc.toNat else 0

section Loops
variable (mem : ℕ → UInt8) (res : ℕ → WriteResult)

def writeLoop (w : Written) : List Iovec → Written
  | [] => w
  | v :: vs =>
    match res w.writes with
    | .eagain => { w with writes := w.writes + 1, rc := if w.rc = 0 then -1 else w.rc }
    | .error => { w with writes := w.writes + 1, rc := -1, failed := true }
    | .took n =>
      let w := { w with
        writes := w.writes + 1
        out := w.out ++ peek mem v.base (min n v.len)
        rc := w.rc + (min n v.len : ℕ) }
      if min n v.len < v.len then w else writeLoop w vs

/-- Take the bytes that were sent off the chain. -/
def update : ℕ → List Buf → List Buf
  | _, [] => []
  | sent, b :: bs =>
    if b.special then update sent bs
    else if sent = 0 then b :: bs
    else if b.size ≤ sent then update (sent - b.size) bs
    else { b with pos := b.pos + sent } :: bs

/-! ## The call -/

/-- The connection: `c->sent`, `wev->ready`, and the writes. -/
structure Conn where
  sent : ℕ
  ready : Bool
  writes : ℕ
  out : List UInt8
  deriving DecidableEq

/-- What a call returns; `spin` when the loop has not ended. -/
inductive Result
  | spin
  | error
  | chain (c : Conn) (cl : List Buf)
  deriving DecidableEq

def sendLoop (limit : ℤ) (alloc : ℕ → Bool) : ℕ → Conn → ℤ → List Buf → Result
  | 0, _, _, _ => .spin
  | fuel + 1, c, send, chain =>
    match gather limit alloc ⟨[], none, send⟩ chain with
    | none => .error
    | some g =>
      let w := writeLoop mem res ⟨c.writes, c.out, 0, false⟩ g.header.reverse
      if w.failed then .error
      else
        let c := { c with sent := c.sent + w.sent, writes := w.writes, out := w.out }
        let cl := update w.sent chain
        if g.send - send ≠ w.sent then .chain { c with ready := false } cl
        else if limit ≤ g.send ∨ cl = [] then .chain c cl
        else sendLoop limit alloc fuel c g.send cl

/-- The bytes of a chain. -/
def chainBytes (chain : List Buf) : List UInt8 :=
  chain.flatMap fun b => if b.special then [] else peek mem b.pos b.size

/-- `ngx_linux_sendfile_chain`. -/
def sendfileChain (page : ℤ) (c : Conn) (chain : List Buf) (limit : ℤ) (alloc : ℕ → Bool) : Result :=
  if c.ready then
    let most := sendfileLimit - page
    sendLoop mem res (if limit = 0 ∨ most < limit then most else limit) alloc ((chainBytes mem chain).length + 1) c 0
      chain
  else .chain c chain

/-- The bytes of the vectors. -/
def vectorBytes (vs : List Iovec) : List UInt8 := vs.flatMap fun v => peek mem v.base v.len

end Loops

/-- A buffer of a chain is special or not empty. -/
def Buf.Wf (b : Buf) : Prop := b.special = false → b.pos < b.last

section Loops
variable {mem : ℕ → UInt8} {res : ℕ → WriteResult} {limit : ℤ} {alloc : ℕ → Bool}

theorem chainBytes_cons (b : Buf) (bs : List Buf) : chainBytes mem (b :: bs) =
    (if b.special then [] else peek mem b.pos b.size) ++ chainBytes mem bs := List.flatMap_cons

/-! ## The loops -/

/-- The last vector ends at `prev`. -/
def Gather.Linked (g : Gather) : Prop := ∀ p, g.prev = some p → ∃ v vs, g.header = v :: vs ∧ v.base + v.len = p

/-- The vectors of `g'` are those of `g` with the first bytes of the chain behind them. -/
def Gathered (mem : ℕ → UInt8) (g g' : Gather) (chain : List Buf) : Prop :=
  ∃ n : ℕ, g'.send = g.send + n ∧ n ≤ (chainBytes mem chain).length ∧
    vectorBytes mem g'.header.reverse = vectorBytes mem g.header.reverse ++ (chainBytes mem chain).take n

theorem Gathered.refl (g : Gather) (chain : List Buf) : Gathered mem g g chain := ⟨0, by simp⟩

/-- First `n` bytes of a buffer; what follows it is looked at only if these are all. -/
theorem Gathered.cons {g g₁ g' : Gather} {b : Buf} {bs : List Buf} {n : ℕ} (hspec : ¬b.special = true)
    (hn : n ≤ b.size) (hsend : g₁.send = g.send + n)
    (hbytes : vectorBytes mem g₁.header.reverse = vectorBytes mem g.header.reverse ++ peek mem b.pos n)
    (hcut : n < b.size → g' = g₁) (h : Gathered mem g₁ g' bs) : Gathered mem g g' (b :: bs) := by
  have hchain : chainBytes mem (b :: bs) = peek mem b.pos b.size ++ chainBytes mem bs := by
    rw [chainBytes_cons, if_neg hspec]
  obtain hlt | rfl := hn.lt_or_eq
  · obtain rfl := hcut hlt
    refine ⟨n, hsend, ?_, by rw [hbytes, hchain, take_peek_append mem b.pos hn]⟩
    rw [hchain, List.length_append, length_peek]
    omega
  · obtain ⟨k, hk, hle, hv⟩ := h
    refine ⟨b.size + k, ?_, ?_, ?_⟩
    · rw [hk, hsend]
      push_cast
      ring
    · rw [hchain, List.length_append, length_peek]
      omega
    · rw [hv, hbytes, hchain, take_add_peek_append, List.append_assoc]

theorem vectorBytes_extend {g : Gather} (hl : g.Linked) {p : ℕ} (hp : g.prev = some p) (n : ℕ) (s : ℤ) :
    vectorBytes mem (extend n g.header).reverse = vectorBytes mem g.header.reverse ++ peek mem p n ∧
      Gather.Linked ⟨extend n g.header, some (p + n), s⟩ := by
  obtain ⟨v, vs, hh, rfl⟩ := hl p hp
  rw [hh, extend]
  refine ⟨by simp [vectorBytes, peek_add], fun q hq => ⟨_, _, rfl, ?_⟩⟩
  obtain rfl := Option.some.inj hq
  exact (Nat.add_assoc ..).symm

theorem gather_full {g : Gather} (h : limit ≤ g.send) (chain : List Buf) : gather limit alloc g chain = some g := by
  cases chain with
  | nil => rfl
  | cons b bs => rw [gather, if_pos h]

/-- The vectors hold what was counted of the chain. -/
theorem gather_bytes {g g' : Gather} {chain : List Buf} (hl : g.Linked) (h : gather limit alloc g chain = some g') :
    Gathered mem g g' chain := by
  induction chain generalizing g with
  | nil =>
    obtain rfl := Option.some.inj h
    exact .refl g []
  | cons b bs ih =>
    by_cases hlim : limit ≤ g.send
    · rw [gather_full hlim] at h
      obtain rfl := Option.some.inj h
      exact .refl g _
    -- the bytes of `b` that are counted; `b` is cut only at the limit
    obtain ⟨n, hn, hle, hcut⟩ : ∃ n : ℕ, (if limit < g.send + b.size then limit - g.send else (b.size : ℤ)) = n ∧
        n ≤ b.size ∧ (n < b.size → limit ≤ g.send + n) := by
      split_ifs with hcut
      · exact ⟨(limit - g.send).toNat, by omega, by omega, by omega⟩
      · exact ⟨b.size, rfl, le_rfl, fun h => absurd h (lt_irrefl _)⟩
    simp only [gather, hlim, hn, Int.toNat_natCast, if_false] at h
    split_ifs at h with hspec hprev hmany hmem
    · obtain ⟨n, hn⟩ := ih hl h
      refine ⟨n, ?_⟩
      rwa [chainBytes_cons, if_pos hspec, List.nil_append]
    · obtain ⟨hbytes, hl'⟩ := vectorBytes_extend hl hprev n (g.send + n)
      refine .cons hspec hle rfl hbytes (fun hlt => ?_) (ih hl' h)
      rw [gather_full (hcut hlt)] at h
      exact (Option.some.inj h).symm
    · obtain rfl := Option.some.inj h
      exact .refl g _
    · have hl' : Gather.Linked ⟨⟨b.pos, n⟩ :: g.header, some (b.pos + n), g.send + n⟩ :=
        fun q hq => ⟨_, _, rfl, Option.some.inj hq⟩
      refine .cons hspec hle rfl (by simp [vectorBytes]) (fun hlt => ?_) (ih hl' h)
      rw [gather_full (hcut hlt)] at h
      exact (Option.some.inj h).symm

/-- Something is gathered below the limit, unless all buffers are special. -/
theorem special_of_gather {g : Gather} {send : ℤ} {chain : List Buf} (hwf : ∀ b ∈ chain, b.Wf) (hlim : send < limit)
    (h : gather limit alloc ⟨[], none, send⟩ chain = some g) (hsend : g.send = send) : update 0 chain = [] := by
  induction chain with
  | nil => rfl
  | cons b bs ih =>
    rw [update]
    by_cases hspec : b.special = true
    · rw [if_pos hspec]
      refine ih (fun x hx => hwf x (List.mem_cons_of_mem _ hx)) ?_
      simpa only [gather, not_le.mpr hlim, if_false, hspec, if_true] using h
    · have hpos : 0 < b.size := Nat.sub_pos_of_lt (hwf b (by simp) (by simpa using hspec))
      have hroom : ¬iovMax ≤ 0 ∧ ¬nHeaders ≤ 0 := by decide
      simp only [gather, not_le.mpr hlim, if_false, hspec, Bool.false_eq_true, reduceCtorEq, List.length_nil, hroom,
        false_and] at h
      obtain ⟨n, hn, -⟩ : Gathered (fun _ => 0) _ g bs := gather_bytes (fun q hq => ⟨_, _, rfl, Option.some.inj hq⟩) h
      rw [hsend] at hn
      simp only at hn
      split_ifs at hn <;> omega

theorem Written.sent_eq {w : Written} (h : 0 ≤ w.rc) : (w.sent : ℤ) = w.rc := by
  rw [sent]
  split_ifs <;> omega

variable (mem res) in
/-- What the writes have taken is at the front of the vectors, and `rc` counts it. -/
theorem writeLoop_bytes {w : Written} (hrc : 0 ≤ w.rc) (hw : w.failed = false) (vs : List Iovec) :
    ∃ n ≤ (vectorBytes mem vs).length, (writeLoop mem res w vs).out = w.out ++ (vectorBytes mem vs).take n ∧
      ((writeLoop mem res w vs).failed = false → ((writeLoop mem res w vs).sent : ℤ) = w.rc + n) := by
  induction vs generalizing w with
  | nil => exact ⟨0, by simp, by simp [writeLoop], fun _ => by simp [writeLoop, Written.sent_eq hrc]⟩
  | cons v vs ih =>
    have hcons : vectorBytes mem (v :: vs) = peek mem v.base v.len ++ vectorBytes mem vs := List.flatMap_cons
    have hlen : (vectorBytes mem (v :: vs)).length = v.len + (vectorBytes mem vs).length := by simp [hcons]
    rw [writeLoop]
    cases res w.writes with
    | eagain =>
      refine ⟨0, by simp, by simp, fun _ => ?_⟩
      simp only [Written.sent]
      split_ifs <;> simp_all; omega
    | error => exact ⟨0, by simp, by simp, fun h => absurd h (by simp)⟩
    | took n =>
      have hm : min n v.len ≤ v.len := min_le_right _ _
      simp only
      generalize min n v.len = m at hm
      split_ifs with hpart
      · refine ⟨m, by omega, by rw [hcons, take_peek_append mem v.base hm], fun _ => ?_⟩
        exact Written.sent_eq (by simp only; omega)
      · obtain rfl : m = v.len := le_antisymm hm (not_lt.mp hpart)
        obtain ⟨k, hk, hout, hcount⟩ := ih (w := ⟨w.writes + 1, w.out ++ peek mem v.base v.len, w.rc + v.len, w.failed⟩)
          (by positivity) hw
        refine ⟨v.len + k, by omega, ?_, fun hf => ?_⟩
        · rw [hout, hcons, take_add_peek_append, List.append_assoc]
        · rw [hcount hf]
          push_cast
          ring

theorem chainBytes_update (n : ℕ) (chain : List Buf) :
    chainBytes mem (update n chain) = (chainBytes mem chain).drop n := by
  induction chain generalizing n with
  | nil => simp [update, chainBytes]
  | cons b bs ih =>
    rw [update, chainBytes_cons]
    split_ifs with hspec hzero hall
    · rw [ih, List.nil_append]
    · rw [chainBytes_cons, if_neg hspec, hzero, List.drop_zero]
    · have hnone : (peek mem b.pos b.size).drop n = [] := List.drop_of_length_le (by simpa using hall)
      rw [ih, List.drop_append, hnone, length_peek, List.nil_append]
    · obtain ⟨k, hk⟩ := Nat.exists_eq_add_of_le (not_le.mp hall).le
      have hsize : Buf.size { b with pos := b.pos + n } = k := by
        simp only [Buf.size] at hk ⊢
        omega
      rw [chainBytes_cons, if_neg hspec, hsize, hk, peek_add, List.append_assoc, List.drop_left' (length_peek ..)]

theorem wf_update {n : ℕ} {chain : List Buf} (h : ∀ b ∈ chain, b.Wf) : ∀ b ∈ update n chain, b.Wf := by
  induction chain generalizing n with
  | nil => simp [update]
  | cons b bs ih =>
    have htail := fun x hx => h x (List.mem_cons_of_mem b hx)
    rw [update]
    split_ifs with hspec hzero hall
    · exact ih htail
    · exact h
    · exact ih htail
    · refine List.forall_mem_cons.mpr ⟨fun _ => ?_, htail⟩
      rw [Buf.size] at hall
      change b.pos + n < b.last
      omega

/-! ## The call -/

/-- Both calls and chain have moved on by the bytes that were taken. -/
structure Moved (mem : ℕ → UInt8) (c : Conn) (chain : List Buf) (c' : Conn) (chain' : List Buf) : Prop where
  bytes : c'.out ++ chainBytes mem chain' = c.out ++ chainBytes mem chain
  sent : c'.sent + c.out.length = c.sent + c'.out.length
  wf : ∀ b ∈ chain', b.Wf

theorem Moved.trans {c c' c'' : Conn} {l l' l'' : List Buf} (h : Moved mem c l c' l') (h' : Moved mem c' l' c'' l'') :
    Moved mem c l c'' l'' where
  bytes := h'.bytes.trans h.bytes
  sent := by
    have h0 := h.sent
    have h1 := h'.sent
    omega
  wf := h'.wf

/-- The loop ends, with an error or with the rest of the chain. -/
theorem sendLoop_moved {fuel : ℕ} {c : Conn} {s : ℤ} {chain : List Buf} (hwf : ∀ b ∈ chain, b.Wf)
    (hfuel : (chainBytes mem chain).length < fuel) :
    sendLoop mem res limit alloc fuel c s chain = .error ∨
      ∃ c' cl, sendLoop mem res limit alloc fuel c s chain = .chain c' cl ∧ Moved mem c chain c' cl := by
  induction fuel generalizing c s chain with
  | zero => omega
  | succ fuel ih =>
    rw [sendLoop]
    cases hg : gather limit alloc ⟨[], none, s⟩ chain with
    | none => exact .inl rfl
    | some g =>
      obtain ⟨n, hsend, hle, hvec⟩ : Gathered mem _ g chain := gather_bytes (by simp [Gather.Linked]) hg
      obtain ⟨k, hk, hout, hcount⟩ := writeLoop_bytes mem res (w := ⟨c.writes, c.out, 0, false⟩) le_rfl rfl g.header.reverse
      simp only
      generalize writeLoop mem res ⟨c.writes, c.out, 0, false⟩ g.header.reverse = w at hout hcount ⊢
      have hnil : vectorBytes mem ([] : List Iovec).reverse = [] := rfl
      rw [hvec, hnil, List.nil_append] at hk hout
      rw [List.length_take, Nat.min_eq_left hle] at hk
      simp only at hsend hout
      cases hf : w.failed with
      | true => exact .inl rfl
      | false =>
        obtain rfl : w.sent = k := by exact_mod_cast (hcount hf).trans (zero_add _)
        -- the bytes are the first `w.sent` ones of the chain
        rw [List.take_take, Nat.min_eq_left hk] at hout
        have hmoved (ready : Bool) : Moved mem c chain ⟨c.sent + w.sent, ready, w.writes, w.out⟩ (update w.sent chain) := by
          refine ⟨?_, ?_, wf_update hwf⟩
          · rw [chainBytes_update, hout, List.append_assoc, List.take_append_drop]
          · rw [hout, List.length_append, List.length_take]
            change c.sent + w.sent + c.out.length = _
            omega
        simp only [Bool.false_eq_true, if_false]
        split_ifs with hpart hend
        · exact .inr ⟨_, _, rfl, hmoved false⟩
        · exact .inr ⟨_, _, rfl, hmoved c.ready⟩
        · -- all that was gathered has been taken, and it was not nothing
          rw [not_or, not_le] at hend
          have hpos : 0 < w.sent := by
            by_contra hzero
            have hnone : w.sent = 0 := by omega
            refine hend.2 ?_
            rw [hnone]
            exact special_of_gather hwf (by omega) hg (by omega)
          have hless : (chainBytes mem (update w.sent chain)).length < fuel := by
            rw [chainBytes_update, List.length_drop]
            omega
          obtain herr | ⟨c', cl, heq, hrest⟩ := ih (c := ⟨c.sent + w.sent, c.ready, w.writes, w.out⟩) (s := g.send)
            (wf_update hwf) hless
          · exact .inl herr
          · exact .inr ⟨c', cl, heq, (hmoved c.ready).trans hrest⟩

variable (mem res limit alloc) in
theorem sendfileChain_moved (page : ℤ) (c : Conn) {chain : List Buf} (hwf : ∀ b ∈ chain, b.Wf) :
    sendfileChain mem res page c chain limit alloc = .error ∨
      ∃ c' cl, sendfileChain mem res page c chain limit alloc = .chain c' cl ∧ Moved mem c chain c' cl := by
  rw [sendfileChain]
  split_ifs
  · exact sendLoop_moved hwf (Nat.lt_succ_self _)
  · exact .inr ⟨c, chain, rfl, rfl, rfl, hwf⟩

end Loops

/-! ## Runs -/

/-- The connection and the chain that is left. -/
structure Sending where
  conn : Conn
  chain : List Buf

/-- The socket has become writable, or the function is called. -/
inductive ProxyEvent
  | writable
  | call (limit : ℤ) (alloc : ℕ → Bool)

section Runs
variable (mem : ℕ → UInt8) (res : ℕ → WriteResult) (page : ℤ)

/-- The call on what is left of the chain. -/
def Sending.call (s : Sending) (limit : ℤ) (alloc : ℕ → Bool) : Result :=
  sendfileChain mem res page s.conn s.chain limit alloc

def Sending.apply (s : Sending) : ProxyEvent → Sending
  | .writable => { s with conn := { s.conn with ready := true } }
  | .call limit alloc =>
    match s.call mem res page limit alloc with
    | .chain c cl => ⟨c, cl⟩
    | _ => s

/-- Any number of calls that return no error, beginning with the chain `chain₀`. -/
def sending (c₀ : Conn) (chain₀ : List Buf) : Machine Sending ProxyEvent where
  init s := s = ⟨c₀, chain₀⟩
  allowed s e := ∀ limit alloc, e = .call limit alloc → s.call mem res page limit alloc ≠ .error
  apply := Sending.apply mem res page

end Runs

/-- The bytes that `dtp_write` has taken and the bytes of the chain that was returned last are the bytes of the chain,
each once and in order, and `c->sent` has counted them; and every call returns. -/
theorem sendfile_each_byte_once {mem : ℕ → UInt8} {res : ℕ → WriteResult} {page : ℤ} {c₀ : Conn} {chain₀ : List Buf}
    (hwf : ∀ b ∈ chain₀, b.Wf) (hout : c₀.out = []) {s : Sending}
    (hs : (sending mem res page c₀ chain₀).Reachable s) :
    s.conn.out ++ chainBytes mem s.chain = chainBytes mem chain₀ ∧ s.conn.sent = c₀.sent + s.conn.out.length ∧
      ∀ limit alloc, s.call mem res page limit alloc ≠ .spin := by
  have hmoved : Moved mem c₀ chain₀ s.conn s.chain := by
    refine hs.invariant (P := fun s => Moved mem c₀ chain₀ s.conn s.chain) ?_ ?_
    · rintro _ rfl
      exact ⟨rfl, rfl, hwf⟩
    · intro s e h he
      cases e with
      | writable => exact ⟨h.bytes, h.sent, h.wf⟩
      | call limit alloc =>
        obtain herr | ⟨c', cl, heq, hcall⟩ := sendfileChain_moved mem res limit alloc page s.conn h.wf
        · exact absurd herr (he limit alloc rfl)
        · simp only [sending, Sending.apply, Sending.call, heq]
          exact h.trans hcall
  have hbytes := hmoved.bytes
  have hsent := hmoved.sent
  rw [hout] at hbytes hsent
  refine ⟨hbytes, hsent, fun limit alloc => ?_⟩
  obtain herr | ⟨c', cl, heq, -⟩ := sendfileChain_moved mem res limit alloc page s.conn hmoved.wf
  · rw [Sending.call, herr]
    exact nofun
  · rw [Sending.call, heq]
    exact nofun

/-- Two neighbouring buffers with a special one in between, and another. -/
def sampleChain : List Buf := [⟨false, 0, 3⟩, ⟨true, 0, 0⟩, ⟨false, 3, 6⟩, ⟨false, 10, 12⟩]

/-- The first write takes four bytes, the second all it is given, then there is no room. -/
def sampleWrites : ℕ → WriteResult
  | 0 => .took 4
  | 1 => .took 9
  | _ => .eagain

/-- Two calls: the second begins inside the second buffer. -/
def sampleCalls : Sending :=
  (sending UInt8.ofNat sampleWrites 4096 ⟨0, true, 0, []⟩ sampleChain).run ⟨⟨0, true, 0, []⟩, sampleChain⟩
    [.call 0 fun _ => true, .writable, .call 0 fun _ => true]

theorem sendfile_each_byte_once_sample :
    (sampleCalls.conn.out ++ chainBytes UInt8.ofNat sampleCalls.chain = chainBytes UInt8.ofNat sampleChain ∧
      sampleCalls.conn.sent = 0 + sampleCalls.conn.out.length ∧
      ∀ limit alloc, sampleCalls.call UInt8.ofNat sampleWrites 4096 limit alloc ≠ .spin) ∧
    sampleCalls.conn.out = [0, 1, 2, 3, 4, 5] ∧ sampleCalls.chain = [⟨false, 10, 12⟩] := by
  have hs : (sending UInt8.ofNat sampleWrites 4096 ⟨0, true, 0, []⟩ sampleChain).Reachable sampleCalls := by
    refine Machine.Reachable.run (.init rfl) ⟨?_, nofun, ?_, trivial⟩
    · rintro _ _ ⟨⟩
      decide +kernel
    · rintro _ _ ⟨⟩
      decide +kernel
  exact ⟨sendfile_each_byte_once (by simp [sampleChain, Buf.Wf]) rfl hs, by decide +kernel, by decide +kernel⟩

end Cedos.Proxy
