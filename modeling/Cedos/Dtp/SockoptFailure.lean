import Cedos.Dtp.EarliestDeadline

/-!
# A socket option that cannot be set

`dtp_setsockopt` with all the fields it stores to. Two options store before they know that they will
succeed. A buffer option writes the new length and then reallocates; when that fails it also frees the
buffer. `DTP_SO_DEADLINE` writes the deadline and then refuses it, if it is negative or if no block size
has been set.
-/

namespace Cedos.Dtp

open DtpContext

/-- A context with the other fields `dtp_setsockopt` stores to. -/
structure OptionContext extends MobileContext where
  /-- `tc_readBuf` is not `NULL` -/
  hasReadBuf : Bool
  /-- `tc_writeBuf` is not `NULL` -/
  hasWriteBuf : Bool
  keepAliveTime : ℤ
  keepAliveIntvl : ℤ
  blockRemainLast : UInt32
  networkTimeLast : ℚ
  schedAllowTime : ℤ

namespace OptionContext

/-- The stores to the fields that `DtpContext` and `MobileContext.afterOption` leave out. `value` is the `int` of
the options that `SockOpt` gives no value to. -/
def storeRest (m : OptionContext) (value : ℤ) (env : SockoptEnv) (now : Timeval) : SockOpt → OptionContext
  -- `FREE_MEM` sets the pointer of a buffer that could not be reallocated to `NULL`
  | .rcvBuf n => if u32 n < m.ctx.rcvLoBufHB then m else { m with hasReadBuf := env.alloc }
  | .sndBuf _ => { m with hasWriteBuf := env.alloc }
  | .keepIdle => { m with keepAliveTime := value }
  | .keepIntvl => { m with keepAliveIntvl := value }
  | .wifiOnly => { m with isWifiOnly := decide (value ≠ 0), useMobile := decide (value = 0) }
  | .blockSize _ =>
    { m with schedAllowTime := 0, networkTimeLast := now.seconds, blockRemainLast := m.ctx.blockRemain }
  | _ => m

/-- The checks made before the value is looked at. -/
def reaches (c : DtpContext) (o : SockOpt) (env : SockoptEnv) : Bool :=
  c.isActive && (!o.checksLen || env.lenOk)

def dtpSetsockopt (m : OptionContext) (o : SockOpt) (value : ℤ) (env : SockoptEnv) (now : Timeval) :
    OptionContext × CallResult Unit :=
  let r := m.ctx.dtpSetsockopt o env
  let m' := { m with toMobileContext := m.toMobileContext.afterOption o r now }
  (if reaches m.ctx o env then m'.storeRest value env now o else m', r.2.1)

/-- What an option stores before it fails is there already. -/
def KeepsOnFailure (m : OptionContext) (env : SockoptEnv) : SockOpt → Prop
  | .rcvBuf n => env.alloc = true ∨ u32 n < m.ctx.rcvLoBufHB ∨ m.hasReadBuf = false ∧ n = m.ctx.readBufLen
  | .sndBuf n => env.alloc = true ∨ m.hasWriteBuf = false ∧ i32 (u32 (2 * n)) = m.ctx.writeBufLen
  | .deadline n => n = 0 ∨ 0 < n ∧ 0 < m.ctx.blockSize ∨ n = m.ctx.deadline
  | _ => True

/-- The call fails only in a state that is the one before it. -/
def Unchanged (m : OptionContext) (o : SockOpt) (value : ℤ) (env : SockoptEnv) (now : Timeval) : Prop :=
  ∀ e, (m.dtpSetsockopt o value env now).2 = .error e → (m.dtpSetsockopt o value env now).1 = m

variable {m : OptionContext} {o : SockOpt} {value n : ℤ} {env : SockoptEnv} {now : Timeval}

/-! ## The call up to the value -/

/-- A call that leaves the queue alone stores nothing of the scheduler's. -/
theorem afterOption_of_not_requeued {m : MobileContext} {r : DtpContext × CallResult Unit × Bool}
    (h : r.2.2 = false) : m.afterOption o r now = { m with ctx := r.1 } := by
  cases o <;> simp [MobileContext.afterOption, h]

theorem dtpSetsockopt_of_not_reaches (h : reaches m.ctx o env = false) : (m.dtpSetsockopt o value env now).1 = m := by
  have hr : (m.ctx.dtpSetsockopt o env).1 = m.ctx ∧ (m.ctx.dtpSetsockopt o env).2.2 = false := by
    unfold reaches at h
    unfold DtpContext.dtpSetsockopt
    cases ha : m.ctx.isActive
    · simp
    · rw [ha, Bool.true_and] at h
      have hl : (o.checksLen && !env.lenOk) = true := by
        cases hc : o.checksLen <;> simp_all
      simp [hl]
  simp only [dtpSetsockopt, h, Bool.false_eq_true, if_false, afterOption_of_not_requeued hr.2, hr.1]

theorem dtpSetsockopt_of_reaches (h : reaches m.ctx o env = true) :
    m.dtpSetsockopt o value env now =
      ({ m with toMobileContext := m.toMobileContext.afterOption o (m.ctx.setOption env o) now }.storeRest value env
        now o, (m.ctx.setOption env o).2.1) := by
  have hr : m.ctx.dtpSetsockopt o env = m.ctx.setOption env o := by
    obtain ⟨ha, hl⟩ := Bool.and_eq_true_iff.1 h
    have hl' : (o.checksLen && !env.lenOk) = false := by
      cases hc : o.checksLen <;> simp_all
    simp [DtpContext.dtpSetsockopt, ha, hl']
  simp only [dtpSetsockopt, h, if_true, hr]

/-! ## The options that store first -/

theorem unchanged_rcvBuf (h : reaches m.ctx (.rcvBuf n) env = true) :
    m.Unchanged (.rcvBuf n) value env now ↔ m.KeepsOnFailure env (.rcvBuf n) := by
  rw [Unchanged, dtpSetsockopt_of_reaches h]
  by_cases hb : u32 n < m.ctx.rcvLoBufHB
  · have hset : m.ctx.setOption env (.rcvBuf n) = (m.ctx, .error .einval, false) := if_pos hb
    simp [KeepsOnFailure, hset, afterOption_of_not_requeued, storeRest, hb]
  · have hset : m.ctx.setOption env (.rcvBuf n) =
        (m.ctx.setReadBufLen n, if env.alloc then .done () else .error .enomem, false) := if_neg hb
    have hb' : ¬u32 n < (m.ctx.setReadBufLen n).rcvLoBufHB := hb
    cases ha : env.alloc
    · simp only [KeepsOnFailure, hset, afterOption_of_not_requeued, storeRest, hb, hb', ha, if_false,
        Bool.false_eq_true, false_or]
      constructor
      · intro hk
        have he := hk .enomem rfl
        have hbuf : false = m.hasReadBuf := congrArg OptionContext.hasReadBuf he
        have hlen : n = m.ctx.readBufLen := congrArg (fun m => m.ctx.readBufLen) he
        exact ⟨hbuf.symm, hlen⟩
      · rintro ⟨hbuf, hlen⟩ e -
        have hc : m.ctx.setReadBufLen n = m.ctx := by rw [hlen]; rfl
        rw [hc, ← hbuf]
    · simp [KeepsOnFailure, hset, ha]

theorem unchanged_sndBuf (h : reaches m.ctx (.sndBuf n) env = true) :
    m.Unchanged (.sndBuf n) value env now ↔ m.KeepsOnFailure env (.sndBuf n) := by
  rw [Unchanged, dtpSetsockopt_of_reaches h]
  have hset : m.ctx.setOption env (.sndBuf n) =
      (m.ctx.setWriteBufLen n, if env.alloc then .done () else .error .enomem, false) := rfl
  cases ha : env.alloc
  · simp only [KeepsOnFailure, hset, afterOption_of_not_requeued, storeRest, ha, if_false, Bool.false_eq_true, false_or]
    constructor
    · intro hk
      have he := hk .enomem rfl
      have hbuf : false = m.hasWriteBuf := congrArg OptionContext.hasWriteBuf he
      have hlen : i32 (u32 (2 * n)) = m.ctx.writeBufLen := congrArg (fun m => m.ctx.writeBufLen) he
      exact ⟨hbuf.symm, hlen⟩
    · rintro ⟨hbuf, hlen⟩ e -
      have hc : m.ctx.setWriteBufLen n = m.ctx := by rw [setWriteBufLen, hlen]
      rw [hc, ← hbuf]
  · simp [KeepsOnFailure, hset, ha]

theorem unchanged_deadline (h : reaches m.ctx (.deadline n) env = true) :
    m.Unchanged (.deadline n) value env now ↔ m.KeepsOnFailure env (.deadline n) := by
  rw [Unchanged, dtpSetsockopt_of_reaches h]
  by_cases hok : 0 < n ∧ 0 < m.ctx.blockSize
  · simp [KeepsOnFailure, setOption, setDeadline, hok]
  · have hset : m.ctx.setOption env (.deadline n) = ({ m.ctx with deadline := n },
        if decide (n = 0) then .done () else .error .einval, decide (n = 0)) := by
      simp only [setOption, setDeadline, if_neg hok]
    by_cases hn : n = 0
    · rw [hset]
      simp [KeepsOnFailure, hn]
    · simp only [KeepsOnFailure, hset, hn, hok, decide_false, Bool.false_eq_true, if_false,
        afterOption_of_not_requeued, storeRest, false_or]
      constructor
      · intro hk
        exact congrArg (fun m => m.ctx.deadline) (hk .einval rfl)
      · rintro hlen e -
        rw [hlen]

/-- The other options check first, or do not fail. -/
theorem unchanged_of_checks (h : reaches m.ctx o env = true) (hr : ∀ n, o ≠ .rcvBuf n) (hs : ∀ n, o ≠ .sndBuf n)
    (hd : ∀ n, o ≠ .deadline n) : m.Unchanged o value env now := by
  rw [Unchanged, dtpSetsockopt_of_reaches h]
  cases o with
  | rcvBuf n => exact absurd rfl (hr n)
  | sndBuf n => exact absurd rfl (hs n)
  | deadline n => exact absurd rfl (hd n)
  | rcvLoBuf high low =>
    intro e he
    by_cases hb : u32 m.ctx.readBufLen < high ∨ high ≤ low
    · simp [setOption, hb, afterOption_of_not_requeued, storeRest]
    · simp [setOption, hb] at he
  | _ => simp [setOption, afterOption_of_not_requeued, storeRest]

end OptionContext

/-! ## Every option -/

/-- A failed call changes nothing exactly when the store it leaves behind, if there is one, changes nothing. -/
theorem failed_setsockopt_iff (m : OptionContext) (o : SockOpt) (value : ℤ) (env : SockoptEnv) (now : Timeval) :
    m.Unchanged o value env now ↔ (m.ctx.isActive = true → env.lenOk = true → m.KeepsOnFailure env o) := by
  by_cases h : OptionContext.reaches m.ctx o env = true
  · have ha : m.ctx.isActive = true := (Bool.and_eq_true_iff.1 h).1
    have hlen : o.checksLen = true → env.lenOk = true := by
      intro hc
      simpa [hc] using (Bool.and_eq_true_iff.1 h).2
    cases o with
    | rcvBuf n => simp only [OptionContext.unchanged_rcvBuf h, ha, hlen rfl, true_imp_iff]
    | sndBuf n => simp only [OptionContext.unchanged_sndBuf h, ha, hlen rfl, true_imp_iff]
    | deadline n => simp only [OptionContext.unchanged_deadline h, ha, hlen rfl, true_imp_iff]
    | _ =>
      have hu : m.Unchanged _ value env now := OptionContext.unchanged_of_checks h (by simp) (by simp) (by simp)
      simp [hu, OptionContext.KeepsOnFailure]
  · have h' := Bool.eq_false_iff.2 h
    refine iff_of_true (fun _ _ => OptionContext.dtpSetsockopt_of_not_reaches h') fun ha hl => ?_
    simp [OptionContext.reaches, ha, hl] at h'

/-- A socket as `dtp_socket` leaves it: no block size has been set. -/
def freshOptions : OptionContext where
  ctx := dtpCreateContext
  deadlineTime := ⟨0, 0⟩
  hasReadBuf := true
  hasWriteBuf := true
  keepAliveTime := 7200
  keepAliveIntvl := 9
  blockRemainLast := 0
  networkTimeLast := 0
  schedAllowTime := 0

/-- A positive deadline is refused and stays, and a send buffer that cannot be reallocated is freed. -/
theorem failed_setsockopt_stores : (freshOptions.dtpSetsockopt (.deadline 60) 0 ⟨true, true, .done ()⟩ ⟨5, 0⟩).2 =
    .error .einval ∧ freshOptions.ctx.deadline = 0 ∧
    (freshOptions.dtpSetsockopt (.deadline 60) 0 ⟨true, true, .done ()⟩ ⟨5, 0⟩).1.ctx.deadline = 60 ∧
    (freshOptions.dtpSetsockopt (.sndBuf 8) 0 ⟨true, false, .done ()⟩ ⟨5, 0⟩).2 = .error .enomem ∧
    (freshOptions.dtpSetsockopt (.sndBuf 8) 0 ⟨true, false, .done ()⟩ ⟨5, 0⟩).1.hasWriteBuf = false ∧
    (freshOptions.dtpSetsockopt (.sndBuf 8) 0 ⟨true, false, .done ()⟩ ⟨5, 0⟩).1.ctx.writeBufLen = 16 := by
  decide +kernel

end Cedos.Dtp
