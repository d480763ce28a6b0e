import Cedos.Dtp.Context

/-!
# The loop of `DTPSendPacket`

`DTPSendPacket` calls `sendto` or `sendmsg` until one of them has sent the packet or failed for good. It
tries again after `EAGAIN`, and also after `ENETUNREACH` unless it has been given a context that is
connected. Four of its callers give it none.
-/

namespace Cedos.Dtp

/-- The functions that call `DTPSendPacket`. -/
inductive SendCaller
  | dtpWriteAvail | dtpSendACKPacket | dtpSendFINPacket | dtpSendProbePacket | dtpHandleKey | dtpRetransmit
  | sendRSTPacket | sendCHGPacket | sendRSPPacket | sendAUTHPacket
  deriving DecidableEq

/-- The last argument of the call, `NULL` or the context. -/
def SendCaller.ctx (c : DtpContext) : SendCaller → Option DtpContext
  | .dtpSendACKPacket | .dtpSendProbePacket | .sendRSTPacket | .sendAUTHPacket => none
  | .dtpWriteAvail | .dtpSendFINPacket | .dtpHandleKey | .dtpRetransmit | .sendCHGPacket | .sendRSPPacket => some c

/-- The errors that are told apart. -/
inductive SendErrno
  | enetunreach | eagain | ebadf | other
  deriving DecidableEq

/-- What `sendto` or `sendmsg` returns. -/
inductive SendOutcome
  | sent (res : ℕ)
  | failed (errno : SendErrno)
  deriving DecidableEq

/-- The value, and whether the context has been wiped out. -/
structure SendReturn where
  res : ℤ
  wiped : Bool := false
  deriving DecidableEq

/-- A round of the loop; `none` if there is another one. -/
def sendRound (ctx : Option DtpContext) (len : ℕ) : SendOutcome → Option SendReturn
  | .failed .enetunreach => if ctx.any fun c => c.isNetConnected then some ⟨-1, false⟩ else none
  | .failed .eagain => none
  | .failed .ebadf => some ⟨-1, ctx.any fun c => c.isActive⟩
  | .failed .other => some ⟨-1, false⟩
  | .sent res => if res ≠ len then some ⟨-1, false⟩ else some ⟨res, false⟩

/-- The loop, at most so many rounds; `outcomes` is what the calls return. -/
def dtpSendPacket (ctx : Option DtpContext) (len : ℕ) (outcomes : ℕ → SendOutcome) : ℕ → ℕ → Option SendReturn
  | 0, _ => none
  | fuel + 1, i =>
    match sendRound ctx len (outcomes i) with
    | some r => some r
    | none => dtpSendPacket ctx len outcomes fuel (i + 1)

section Loop
variable {ctx : Option DtpContext} {len : ℕ} {outcomes : ℕ → SendOutcome}

/-- The loop ends with the first round that has no other after it. -/
theorem isSome_dtpSendPacket {fuel i : ℕ} :
    (dtpSendPacket ctx len outcomes fuel i).isSome = true ↔
      ∃ j < fuel, (sendRound ctx len (outcomes (i + j))).isSome = true := by
  induction fuel generalizing i with
  | zero => simp [dtpSendPacket]
  | succ fuel ih =>
    rw [dtpSendPacket]
    cases hround : sendRound ctx len (outcomes i) with
    | some r => exact iff_of_true rfl ⟨0, Nat.succ_pos fuel, by rw [Nat.add_zero, hround]; rfl⟩
    | none =>
      simp only [ih]
      constructor
      · rintro ⟨j, hj, hsome⟩
        exact ⟨j + 1, by omega, by rwa [← Nat.add_assoc, Nat.add_right_comm]⟩
      · rintro ⟨j, hj, hsome⟩
        cases j with
        | zero => simp [hround] at hsome
        | succ j => exact ⟨j, by omega, by rwa [Nat.add_assoc, Nat.add_comm 1 j]⟩

theorem isSome_sendRound {o : SendOutcome} : (sendRound ctx len o).isSome = true ↔ o ≠ .failed .eagain ∧
    (o ≠ .failed .enetunreach ∨ ctx.any (fun c => c.isNetConnected) = true) := by
  cases o with
  | sent res =>
    rw [sendRound]
    split_ifs <;> simp
  | failed errno => cases errno <;> simp [sendRound]

end Loop

end Cedos.Dtp
