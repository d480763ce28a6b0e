import Cedos.Lib.Checked
import Cedos.Lib.Run
import Cedos.Dtp.Sockopt

/-!
# The range of the congestion window

`MoveCongestionWindow`, `CongestionAvoidance`, `TimeoutSlowStart` and `DTPSlowStart` compute with `int`s.
Here they are written with operations that notice a division by zero and a result that does not fit, and
compared with the functions that the handlers use.

The state keeps in range (`WindowRange`) but for one product: `MoveCongestionWindow` multiplies the number of bytes
acknowledged by `DTP_MTU`. That fits while no more than 1458888 bytes are outstanding, and a
send buffer can hold more.
-/

namespace Cedos.Dtp

open DtpContext

namespace DtpContext

/-! ## The functions, with checks -/

/-- The first `if` of `MoveCongestionWindow`: the window, and what is left of `acked`. -/
def slowStartChecked (c : DtpContext) (acked : ℤ) : Option (ℤ × ℤ) :=
  if c.cwnd < c.ssthresh then do
    let cwnd ← Checked.int (c.cwnd + acked)
    let acked ← Checked.int (acked - c.ssthresh)
    pure (cwnd, acked)
  else pure (c.cwnd, acked)

/-- The second. -/
def growChecked (cwnd acked : ℤ) : Option ℤ :=
  if 0 < acked then do
    let product ← Checked.int (acked * mtu)
    let share ← Checked.div product cwnd
    Checked.int (cwnd + share)
  else pure cwnd

def moveCongestionWindowChecked (c : DtpContext) (acked : ℤ) : Option DtpContext := do
  let r ← c.slowStartChecked acked
  let cwnd ← growChecked r.1 r.2
  pure { c with cwnd := if c.writeBufLen < cwnd then c.writeBufLen else cwnd }

/-- `tc_cwnd / 2`, but at least one full packet. -/
def halvedWindowChecked (c : DtpContext) : Option ℤ := do
  let half ← Checked.div c.cwnd 2
  let packet ← Checked.int ((mtu : ℤ) - hdrSize)
  pure (if half < packet then packet else half)

def congestionAvoidanceChecked (c : DtpContext) : Option DtpContext := do
  let ssthresh ← c.halvedWindowChecked
  let packet ← Checked.int ((mtu : ℤ) - hdrSize)
  let three ← Checked.int (3 * packet)
  let cwnd ← Checked.int (ssthresh + three)
  pure { c with ssthresh := ssthresh, cwnd := cwnd }

def timeoutSlowStartChecked (c : DtpContext) : Option DtpContext := do
  let ssthresh ← c.halvedWindowChecked
  let packet ← Checked.int ((mtu : ℤ) - hdrSize)
  pure { c with ssthresh := ssthresh, cwnd := packet }

/-- `DTPSlowStart`. -/
def dtpSlowStartChecked (c : DtpContext) : Option DtpContext := do
  let packet ← Checked.int ((mtu : ℤ) - hdrSize)
  pure { c.dtpSlowStart with cwnd := packet }

end DtpContext

/-! ## The steps -/

/-- The steps that change the congestion window. -/
inductive WindowStep
  /-- `MoveCongestionWindow`, for some of the outstanding bytes -/
  | move (acked outstanding : ℤ)
  | avoid
  | timeout
  | slowStart

namespace WindowStep

def apply (c : DtpContext) : WindowStep → DtpContext
  | .move acked _ => c.moveCongestionWindow acked
  | .avoid => c.congestionAvoidance
  | .timeout => c.timeoutSlowStart
  | .slowStart => c.dtpSlowStart

/-- The same, or `none` if one of its operations is undefined. -/
def checked (c : DtpContext) : WindowStep → Option DtpContext
  | .move acked _ => c.moveCongestionWindowChecked acked
  | .avoid => c.congestionAvoidanceChecked
  | .timeout => c.timeoutSlowStartChecked
  | .slowStart => c.dtpSlowStartChecked

/-- At least one byte is acknowledged and at most those outstanding, which are `limit` at most. -/
def Possible (limit : ℤ) : WindowStep → Prop
  | .move acked outstanding => 1 ≤ acked ∧ acked ≤ outstanding ∧ outstanding ≤ limit
  | _ => True

end WindowStep

/-! ## What stays in range -/

/-- The windows of a context with the send buffer `size`. The last bound on the window leaves room for the
one byte by which a large window can grow. -/
structure WindowRange (size : ℤ) (c : DtpContext) : Prop where
  writeBufLen : c.writeBufLen = size
  readBufLen : c.readBufLen = 32768
  ssthresh_ge : 1452 ≤ c.ssthresh
  ssthresh_le : c.ssthresh ≤ 1073741824
  cwnd_ge : 2 ≤ c.cwnd
  cwnd_le : c.cwnd ≤ 2147483646

/-- The step is defined, gives the result the handlers use, and shrinks the window only to the size of the send
buffer if it is to grow. -/
structure StepSane (c : DtpContext) (e : WindowStep) : Prop where
  defined : e.checked c = some (e.apply c)
  grows : ∀ acked outstanding, e = .move acked outstanding →
    (e.apply c).cwnd < c.cwnd → (e.apply c).cwnd = c.writeBufLen

namespace DtpContext
variable {c : DtpContext} {size acked : ℤ}

theorem cast_mtu : ((mtu : ℕ) : ℤ) = 1472 := rfl

theorem cast_packet : ((mtu : ℕ) : ℤ) - (hdrSize : ℕ) = 1452 := rfl

theorem checked_packet : Checked.int (((mtu : ℕ) : ℤ) - (hdrSize : ℕ)) = some 1452 := by decide

/-- The window before the cap. -/
def grownWindow (c : DtpContext) (acked : ℤ) : ℤ :=
  if c.cwnd < c.ssthresh then
    (if 0 < acked - c.ssthresh
      then c.cwnd + acked + ((acked - c.ssthresh) * 1472).tdiv (c.cwnd + acked) else c.cwnd + acked)
  else (if 0 < acked then c.cwnd + (acked * 1472).tdiv c.cwnd else c.cwnd)

theorem cwnd_moveCongestionWindow (c : DtpContext) (acked : ℤ) :
    (c.moveCongestionWindow acked).cwnd =
      if c.writeBufLen < c.grownWindow acked then c.writeBufLen else c.grownWindow acked := by
  by_cases hslow : c.cwnd < c.ssthresh
  · simp [moveCongestionWindow, grownWindow, hslow, cast_mtu]
  · simp [moveCongestionWindow, grownWindow, hslow, cast_mtu]

theorem tdiv_bounds {k w : ℤ} (hk : 0 ≤ k) (hw : 0 < w) : 0 ≤ k.tdiv w ∧ k.tdiv w * w ≤ k := by
  rw [Int.tdiv_eq_ediv_of_nonneg hk]
  exact ⟨Int.ediv_nonneg hk hw.le, Int.ediv_mul_le k hw.ne'⟩

theorem growChecked_of_pos {w k : ℤ} (hpos : 0 < k) (hfit : k * 1472 < 2147483648) (hw : 0 < w)
    (h0 : 0 ≤ (k * 1472).tdiv w) (h1 : w + (k * 1472).tdiv w < 2147483648) :
    growChecked w k = some (w + (k * 1472).tdiv w) := by
  have hprod := Checked.int_of_fits (n := k * 1472) ⟨by omega, by omega⟩
  have hdiv := Checked.div_of_ne (a := k * 1472) hw.ne' ⟨by omega, by omega⟩
  have hnew := Checked.int_of_fits (n := w + (k * 1472).tdiv w) ⟨by omega, by omega⟩
  rw [growChecked, if_pos hpos, cast_mtu, hprod]
  simp only [Option.bind_eq_bind, Option.bind_some, hdiv, hnew]

variable (h : WindowRange size c)
include h

/-- Slow start, with what is acknowledged beyond the threshold. -/
theorem share_slow (hpos : 0 < acked - c.ssthresh) : 0 ≤ ((acked - c.ssthresh) * 1472).tdiv (c.cwnd + acked) ∧
    ((acked - c.ssthresh) * 1472).tdiv (c.cwnd + acked) ≤ 1472 := by
  have hge := h.ssthresh_ge
  have hcw := h.cwnd_ge
  have hk : 0 ≤ (acked - c.ssthresh) * 1472 := by omega
  have hw : 0 < c.cwnd + acked := by omega
  refine ⟨(tdiv_bounds hk hw).1, ?_⟩
  rw [Int.tdiv_eq_ediv_of_nonneg hk]
  exact Int.ediv_le_of_le_mul hw (by omega)

/-- Beyond the threshold the share is a little more than what is acknowledged, and one byte when the window is
large. -/
theorem share_avoid (hslow : ¬c.cwnd < c.ssthresh) (hpos : 0 < acked) (hfit : acked * 1472 < 2147483648) : 0 ≤
    (acked * 1472).tdiv c.cwnd ∧ c.cwnd + (acked * 1472).tdiv c.cwnd < 2147483648 := by
  have hge := h.ssthresh_ge
  have hle := h.cwnd_le
  obtain ⟨h0, hmul⟩ := tdiv_bounds (k := acked * 1472) (w := c.cwnd) (by omega) (by omega)
  refine ⟨h0, ?_⟩
  rcases Int.lt_or_le c.cwnd 2000000000 with hsmall | hbig
  · have hthousand := Int.mul_le_mul_of_nonneg_left (show 1452 ≤ c.cwnd by omega) h0
    omega
  · have hone := Int.mul_le_mul_of_nonneg_left hbig h0
    omega

theorem growth_slow (hpos : 1 ≤ acked) (hfit : acked * 1472 < 2147483648)
    (hslow : c.cwnd < c.ssthresh) :
    (∃ r, c.slowStartChecked acked = some r ∧ growChecked r.1 r.2 = some (c.grownWindow acked)) ∧
    c.cwnd ≤ c.grownWindow acked := by
  have hge := h.ssthresh_ge
  have hle := h.ssthresh_le
  have hcw := h.cwnd_ge
  have hsum : Checked.int (c.cwnd + acked) = some (c.cwnd + acked) :=
    Checked.int_of_fits ⟨by omega, by omega⟩
  have hdiff : Checked.int (acked - c.ssthresh) = some (acked - c.ssthresh) :=
    Checked.int_of_fits ⟨by omega, by omega⟩
  have hfirst : c.slowStartChecked acked = some (c.cwnd + acked, acked - c.ssthresh) := by
    simp [slowStartChecked, hslow, hsum, hdiff]
  by_cases hrest : 0 < acked - c.ssthresh
  · obtain ⟨h0, h1⟩ := share_slow h hrest
    have hgrown : c.grownWindow acked = c.cwnd + acked + ((acked - c.ssthresh) * 1472).tdiv (c.cwnd + acked) := by
      rw [grownWindow, if_pos hslow, if_pos hrest]
    refine ⟨⟨_, hfirst, ?_⟩, by omega⟩
    rw [hgrown, growChecked_of_pos hrest (by omega) (by omega) h0 (by omega)]
  · have hgrown : c.grownWindow acked = c.cwnd + acked := by
      rw [grownWindow, if_pos hslow, if_neg hrest]
    refine ⟨⟨_, hfirst, ?_⟩, by omega⟩
    rw [growChecked, if_neg hrest, hgrown]
    rfl

theorem growth_avoid (hpos : 1 ≤ acked) (hfit : acked * 1472 < 2147483648)
    (hslow : ¬c.cwnd < c.ssthresh) :
    (∃ r, c.slowStartChecked acked = some r ∧ growChecked r.1 r.2 = some (c.grownWindow acked)) ∧
    c.cwnd ≤ c.grownWindow acked := by
  have hge := h.ssthresh_ge
  have hacked : 0 < acked := by omega
  obtain ⟨h0, h1⟩ := share_avoid h hslow hacked hfit
  have hgrown : c.grownWindow acked = c.cwnd + (acked * 1472).tdiv c.cwnd := by
    rw [grownWindow, if_neg hslow, if_pos hacked]
  refine ⟨⟨(c.cwnd, acked), ?_, ?_⟩, by omega⟩
  · rw [slowStartChecked, if_neg hslow]
    rfl
  · rw [hgrown, growChecked_of_pos hacked (by omega) (by omega) h0 (by omega)]

/-- The growth is defined, and it is growth. -/
theorem growth (hpos : 1 ≤ acked) (hfit : acked * 1472 < 2147483648) :
    (∃ r, c.slowStartChecked acked = some r ∧ growChecked r.1 r.2 = some (c.grownWindow acked)) ∧
    c.cwnd ≤ c.grownWindow acked := by
  by_cases hslow : c.cwnd < c.ssthresh
  · exact growth_slow h hpos hfit hslow
  · exact growth_avoid h hpos hfit hslow

theorem halvedWindow_bounds :
    c.halvedWindowChecked = some c.halvedWindow ∧ 1452 ≤ c.halvedWindow ∧ c.halvedWindow ≤ 1073741824 := by
  have hge := h.cwnd_ge
  have hle := h.cwnd_le
  have hhalf : c.cwnd.tdiv 2 = c.cwnd / 2 := Int.tdiv_eq_ediv_of_nonneg (by omega)
  have hdiv : Checked.div c.cwnd 2 = some (c.cwnd / 2) := by
    rw [← hhalf]
    exact Checked.div_of_ne (by norm_num) ⟨by omega, by omega⟩
  refine ⟨?_, ?_, ?_⟩
  · rw [halvedWindowChecked, halvedWindow, hdiv, checked_packet, cast_packet, hhalf]
    rfl
  · rw [halvedWindow, cast_packet, hhalf]
    split_ifs <;> omega
  · rw [halvedWindow, cast_packet, hhalf]
    split_ifs <;> omega

end DtpContext

section Steps
variable {c : DtpContext} {size limit : ℤ} (hlimit : limit * 1472 < 2147483648)

/-- What is acknowledged fits after the multiplication. -/
theorem acked_fits (hlimit : limit * 1472 < 2147483648) {acked outstanding : ℤ}
    (hp : (WindowStep.move acked outstanding).Possible limit) : acked * 1472 < 2147483648 := by
  have hle := hp.2.1
  have hlim := hp.2.2
  omega

include hlimit in
theorem WindowRange.sane (h : WindowRange size c) {e : WindowStep} (hp : e.Possible limit) : StepSane c e := by
  cases e with
  | move acked outstanding =>
    obtain ⟨⟨r, hfirst, hsecond⟩, hgrows⟩ := growth h hp.1 (acked_fits hlimit hp)
    constructor
    · simp only [WindowStep.checked, WindowStep.apply, moveCongestionWindowChecked, hfirst,
        hsecond, Option.bind_eq_bind, Option.bind_some, Option.pure_def, ← cwnd_moveCongestionWindow]
      rfl
    · rintro - - -
      simp only [WindowStep.apply, cwnd_moveCongestionWindow]
      split_ifs
      · exact fun _ => rfl
      · omega
  | avoid =>
    obtain ⟨hhalf, hge, hle⟩ := halvedWindow_bounds h
    have hthree : Checked.int (3 * 1452) = some 4356 := by decide
    have hcwnd : Checked.int (c.halvedWindow + 4356) = some (c.halvedWindow + 4356) :=
      Checked.int_of_fits ⟨by omega, by omega⟩
    refine ⟨?_, by rintro - - ⟨⟩⟩
    simp only [WindowStep.checked, congestionAvoidanceChecked, hhalf, checked_packet,
      Option.bind_eq_bind, Option.bind_some, hthree, hcwnd]
    rfl
  | timeout =>
    obtain ⟨hhalf, -, -⟩ := halvedWindow_bounds h
    refine ⟨?_, by rintro - - ⟨⟩⟩
    simp only [WindowStep.checked, timeoutSlowStartChecked, hhalf, checked_packet,
      Option.bind_eq_bind, Option.bind_some]
    rfl
  | slowStart =>
    refine ⟨?_, by rintro - - ⟨⟩⟩
    simp only [WindowStep.checked, dtpSlowStartChecked, checked_packet,
      Option.bind_eq_bind, Option.bind_some]
    rfl

include hlimit in
theorem WindowRange.step (h : WindowRange size c) (hsize : 2 ≤ size ∧ size ≤ 2147483646) {e : WindowStep}
    (hp : e.Possible limit) : WindowRange size (e.apply c) := by
  cases e with
  | move acked outstanding =>
    obtain ⟨-, hgrows⟩ := growth h hp.1 (acked_fits hlimit hp)
    have hge := h.cwnd_ge
    have hcwnd : 2 ≤ (c.moveCongestionWindow acked).cwnd ∧ (c.moveCongestionWindow acked).cwnd ≤ 2147483646 := by
      rw [cwnd_moveCongestionWindow, h.writeBufLen]
      split_ifs <;> omega
    exact { h with cwnd_ge := hcwnd.1, cwnd_le := hcwnd.2 }
  | avoid =>
    obtain ⟨-, hge, hle⟩ := halvedWindow_bounds h
    constructor
    · exact h.writeBufLen
    · exact h.readBufLen
    · exact hge
    · exact hle
    all_goals
      simp only [WindowStep.apply, congestionAvoidance, cast_packet]
      omega
  | timeout =>
    obtain ⟨-, hge, hle⟩ := halvedWindow_bounds h
    constructor
    · exact h.writeBufLen
    · exact h.readBufLen
    · exact hge
    · exact hle
    all_goals
      simp only [WindowStep.apply, timeoutSlowStart, cast_packet]
      omega
  | slowStart =>
    have hlen := h.readBufLen
    constructor
    · exact h.writeBufLen
    · exact h.readBufLen
    all_goals
      simp only [WindowStep.apply, dtpSlowStart, cast_packet]
      omega

end Steps

/-! ## Runs -/

/-- `dtp_setsockopt (DTP_SO_SNDBUF)` with the value `n` succeeds on a fresh context and leaves `c`.
`realloc` returns a buffer only for a positive size. -/
def SndBufAccepted (n : ℤ) (c : DtpContext) : Prop :=
  ∃ env, DtpContext.dtpCreateContext.dtpSetsockopt (.sndBuf n) env = (c, .done (), false) ∧ 0 < c.writeBufLen

/-- The runs of the four functions with the send buffer that `n` sets, and at most `limit` bytes outstanding. -/
def windowing (n limit : ℤ) : Machine DtpContext WindowStep where
  init := SndBufAccepted n
  allowed _ e := e.Possible limit
  apply := WindowStep.apply

/-- Both windows are positive, and every step that can follow is sane. -/
structure WindowSane (limit : ℤ) (c : DtpContext) : Prop where
  cwnd : 0 < c.cwnd
  ssthresh : 0 < c.ssthresh
  steps : ∀ e : WindowStep, e.Possible limit → StepSane c e

section Runs
variable {n limit : ℤ} {c : DtpContext}

/-- The option sets the send buffer, and nothing else. -/
theorem accepted_fields (h : SndBufAccepted n c) :
    c.writeBufLen = i32 (u32 (2 * n)) ∧ c.readBufLen = 32768 ∧ c.ssthresh = 32768 ∧ c.cwnd = 1452 := by
  obtain ⟨env, hset, -⟩ := h
  have hc : c = dtpCreateContext.setWriteBufLen n := by
    simp only [dtpSetsockopt] at hset
    split_ifs at hset
    · cases hset
    · cases hset
    · exact (congrArg Prod.fst hset).symm
  rw [hc]
  exact ⟨rfl, rfl, rfl, rfl⟩

/-- The size is positive and even. -/
theorem windowRange_of_accepted (h : SndBufAccepted n c) :
    WindowRange c.writeBufLen c ∧ 2 ≤ c.writeBufLen ∧ c.writeBufLen ≤ 2147483646 := by
  obtain ⟨hlen, hread, hss, hcw⟩ := accepted_fields h
  obtain ⟨env, -, hpos⟩ := h
  have hword : (u32 (2 * n)).toNat % 2 = 0 := by
    rw [u32, UInt32.toNat_ofNat']
    omega
  have hlt := toNat_lt_word (u32 (2 * n))
  have hsize : c.writeBufLen = (u32 (2 * n)).toNat ∧ (u32 (2 * n)).toNat < 2147483648 := by
    rcases Nat.lt_or_ge (u32 (2 * n)).toNat 2147483648 with hsmall | hbig
    · exact ⟨by rw [hlen, i32_of_lt hsmall], hsmall⟩
    · rw [hlen, i32_of_ge hbig] at hpos
      omega
  refine ⟨?_, by omega, by omega⟩
  constructor <;> omega

theorem windowRange_of_reachable (hlimit : limit * 1472 < 2147483648) (hc : (windowing n limit).Reachable c) :
    ∃ size, 2 ≤ size ∧ size ≤ 2147483646 ∧ WindowRange size c := by
  refine Machine.Reachable.invariant (P := fun c => ∃ size, 2 ≤ size ∧ size ≤ 2147483646 ∧ WindowRange size c)
    ?_ ?_ hc
  · intro c h
    obtain ⟨hr, hge, hle⟩ := windowRange_of_accepted h
    exact ⟨_, hge, hle, hr⟩
  · rintro c e ⟨size, hge, hle, hr⟩ he
    exact ⟨size, hge, hle, hr.step hlimit ⟨hge, hle⟩ he⟩

/-- After a timeout on a fresh context the window has reached the threshold, and the next acknowledgement is
multiplied as it is. -/
theorem undefined_after_timeout (h : SndBufAccepted n c) :
    (WindowStep.move 1458889 1458889).checked (WindowStep.timeout.apply c) = none := by
  obtain ⟨-, -, -, hcw⟩ := accepted_fields h
  have hwindow : (WindowStep.timeout.apply c).cwnd = 1452 ∧ (WindowStep.timeout.apply c).ssthresh = 1452 := by
    simp only [WindowStep.apply, timeoutSlowStart, halvedWindow, hcw]
    decide
  have hfirst : (WindowStep.timeout.apply c).slowStartChecked 1458889 = some (1452, 1458889) := by
    rw [slowStartChecked, if_neg (by omega), hwindow.1]
    rfl
  have hgrow : growChecked 1452 1458889 = none := by decide
  simp only [WindowStep.checked, moveCongestionWindowChecked, hfirst, hgrow, Option.bind_eq_bind,
    Option.bind_some, Option.bind_none]

/-- The windows stay sane in all runs if and only if what is outstanding fits an `int` when it is multiplied
by `DTP_MTU`. The outstanding bytes are those the send buffer can hold, so `limit` is its size, or one more if the
FIN is to be counted. -/
theorem windowSane_iff (n limit : ℤ) (hn : ∃ c, SndBufAccepted n c) :
    (∀ c, (windowing n limit).Reachable c → WindowSane limit c) ↔ limit * mtu < 2147483648 := by
  rw [DtpContext.cast_mtu]
  constructor
  · intro h
    by_contra hbig
    obtain ⟨c, hc⟩ := hn
    have hreach : (windowing n limit).Reachable (WindowStep.timeout.apply c) :=
      Machine.Reachable.step (M := windowing n limit) (.init hc) (e := .timeout) trivial
    have hstep : (WindowStep.move 1458889 1458889).Possible limit := ⟨by omega, le_rfl, by omega⟩
    have hsane := ((h _ hreach).steps _ hstep).defined
    rw [undefined_after_timeout hc] at hsane
    cases hsane
  · intro hlimit c hc
    obtain ⟨size, -, -, hr⟩ := windowRange_of_reachable hlimit hc
    have hcw := hr.cwnd_ge
    have hss := hr.ssthresh_ge
    exact ⟨by omega, by omega, fun e he => hr.sane hlimit he⟩

/-- Two megabytes are accepted, and doubled. -/
theorem sndBufAccepted_large : SndBufAccepted 2097152 (dtpCreateContext.setWriteBufLen 2097152) :=
  ⟨⟨true, true, .done ()⟩, rfl, by decide⟩

/-- `DTP_SO_SNDBUF` doubles 16384 to the default size, which is small enough. -/
theorem windowSane_iff_default : (32768 : ℤ) * mtu < 2147483648 ∧
    ∀ c, (windowing 16384 32768).Reachable c → WindowSane 32768 c := by
  have haccepted : ∃ c, SndBufAccepted 16384 c :=
    ⟨DtpContext.dtpCreateContext.setWriteBufLen 16384, ⟨true, true, .done ()⟩, rfl, by decide⟩
  have hlimit : (32768 : ℤ) * mtu < 2147483648 := by decide
  exact ⟨hlimit, (windowSane_iff 16384 32768 haccepted).mpr hlimit⟩

/-- After a timeout with 1458889 bytes outstanding, of the 4194304 that the buffer holds, the acknowledgement of
all of them overflows. -/
theorem move_overflows : ∃ c, (windowing 2097152 4194304).Reachable c ∧ 1458889 ≤ c.writeBufLen ∧
    (WindowStep.move 1458889 1458889).Possible 4194304 ∧ c.moveCongestionWindowChecked 1458889 = none ∧
    ¬WindowSane 4194304 c := by
  have hnone := undefined_after_timeout sndBufAccepted_large
  have hpos : (WindowStep.move 1458889 1458889).Possible 4194304 := by
    simp [WindowStep.Possible]
  have hreach : (windowing 2097152 4194304).Reachable
      (WindowStep.timeout.apply (DtpContext.dtpCreateContext.setWriteBufLen 2097152)) :=
    Machine.Reachable.step (M := windowing 2097152 4194304) (.init sndBufAccepted_large) (e := .timeout) trivial
  refine ⟨_, hreach, by decide, hpos, hnone, ?_⟩
  intro h
  have hdef := (h.steps _ hpos).defined
  rw [hnone] at hdef
  cases hdef

end Runs

end Cedos.Dtp
