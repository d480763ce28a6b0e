import Cedos.Dtp.CloseOrder

/-!
# The FIN and the data before it

`DTPWriteAvail` sends what the windows allow and then decides about the FIN. Once the peer's
FIN is in, it does not ask whether all data has gone: the FIN takes the sequence number of the
first byte that is left, and that byte is never sent.
-/

namespace Cedos.Dtp

open DtpContext

theorem drains_of_finAfterData {x : DtpContext} (hid : x.localID.length = sha1DigestLength) (hs : x.state ≠ .synSent)
    (h : FinAfterData x) : DrainsBeforeFIN x := by
  intro hrcvd hclose hfin hmay
  have hframe := FlushFrame.writeFlush (fun _ => true) x
  have hwants : (x.writeFlush fun _ => true).1.wantsFIN = true := by
    have hclose' := (congrArg Lifecycle.closeCalled hframe.lifecycle).trans hclose
    have hfin' := (congrArg Lifecycle.isFINSent hframe.lifecycle).trans hfin
    have hrcvd' := (congrArg Lifecycle.isFINRcvd hframe.lifecycle).trans hrcvd
    simp [wantsFIN, hclose', hfin', hrcvd']
  have hall := h (by simp [sendsFIN, (writeFlush_closed hid hs hclose hmay).2, hwants])
  rw [hframe.written] at hall
  exact (sent_all_iff hid hs hclose hmay).mp hall

section Runs
variable {k : Crypto} {base : ℕ} {opening : List UInt8} {c₀ : DtpContext}

theorem isFINSent_dtpWriteAvail (x : DtpContext) : x.dtpWriteAvail.isFINSent = (x.isFINSent || x.sendsFIN) := by
  have hfin := congrArg Lifecycle.isFINSent (FlushFrame.writeFlush (fun _ => true) x).lifecycle
  rw [dtpWriteAvail_eq]
  split_ifs with h
  · rw [h, Bool.or_true]
    rfl
  · rw [Bool.eq_false_iff.mpr h, Bool.or_false]
    exact hfin

/-- **The FIN after the data.**  A call of `DTPWriteAvail` sends the FIN only with everything
sent just when it finds room for what is left; and in runs whose calls do, the FIN's sequence
number is the end of all that `dtp_send` has accepted. -/
theorem fin_after_data (k : Crypto) :
    (∀ x : DtpContext, x.localID.length = sha1DigestLength → x.state ≠ .synSent →
      (FinAfterData x ↔ DrainsBeforeFIN x)) ∧
    ∀ (base : ℕ) (opening : List UInt8) (c₀ : DtpContext), FreshSender base opening c₀ →
      ∀ (s : Sending) (e : Event) (x : DtpContext), (closingSender k base opening c₀).Reachable s →
        (closingSender k base opening c₀).allowed s e → e.flush k s.ctx = some x → FinAfterData x ∧ (x.sendsFIN = true →
          (x.writeFlush fun _ => true).1.lastByteSent.toNat = (s.stream ++ e.accepted s.ctx).length) := by
  constructor
  · intro x hid hs
    exact ⟨drains_of_finAfterData hid hs, finAfterData_of_drains hid fun _ => hs⟩
  · intro base opening c₀ h₀ s e x hs he hx
    have hafter := (sendOrder_of_closing h₀ hs).finAfterData hx (he.2.2 x hx)
    refine ⟨hafter, fun hsends => ?_⟩
    -- the offsets after the step count the FIN as one more
    have hnext := sendOrder_of_closing h₀ (hs.step he)
    have hsame := (apply_of_flush hx).1
    have hwritten := hnext.written
    have hsmall := hnext.written_lt
    have hfin : (e.apply k s.ctx).isFINSent = true := by
      rw [hsame.finSent, isFINSent_dtpWriteAvail, hsends, Bool.or_true]
    change (e.apply k s.ctx).lastByteWritten.toNat = _ + (e.apply k s.ctx).isFINSent.toNat at hwritten
    change (e.apply k s.ctx).lastByteWritten.toNat < _ at hsmall
    have hone : ((x.writeFlush fun _ => true).1.lastByteWritten + 1).toNat =
        (e.apply k s.ctx).lastByteWritten.toNat := by
      rw [hsame.written, dtpWriteAvail_eq, if_pos hsends]
      rfl
    rw [hfin, Bool.toNat_true] at hwritten
    rw [hafter hsends]
    have h1 : (1 : UInt32).toNat = 1 := rfl
    rw [UInt32.toNat_add, h1] at hone
    change _ = (s.stream ++ e.accepted s.ctx).length + 1 at hwritten
    have hlt := toNat_lt_word (x.writeFlush fun _ => true).1.lastByteWritten
    omega

end Runs

/-! ## Two closes -/

/-- The FIN of a peer that has sent nothing. -/
def peerFIN : DtpHdr :=
  { fin := true, ack := true, fid := 0, seq := 0, ackSeq := 0, doff := 5, windowSize := 100 }

/-- Three bytes are sent, the peer closes, and then `dtp_close` is called: the FIN has the number
after the three bytes. -/
theorem fin_after_data_quiet : ∃ s x, (closingSender sampleCrypto 0 [] sampleSender).Reachable s ∧
      Event.close.flush sampleCrypto s.ctx = some x ∧ x.isFINRcvd = true ∧ x.sendsFIN = true ∧
      (x.writeFlush fun _ => true).1.lastByteSent.toNat = s.stream.length := by
  have hadm : (closingSender sampleCrypto 0 [] sampleSender).Admits ⟨sampleSender, []⟩
      [.send [1, 2, 3], .fin peerFIN] := by
    decide +kernel
  have hrun := Machine.Reachable.run (.init rfl) hadm
  have hclose : (closingSender sampleCrypto 0 [] sampleSender).allowed
      ((closingSender sampleCrypto 0 [] sampleSender).run ⟨sampleSender, []⟩
        [.send [1, 2, 3], .fin peerFIN]) .close := by
    decide +kernel
  refine ⟨_, _, hrun, rfl, ?_, ?_, ?_⟩
  · decide +kernel
  · decide +kernel
  · have hseq := ((fin_after_data sampleCrypto).2 0 [] sampleSender sampleSender_fresh _ .close _ hrun
      hclose rfl).2 (by decide +kernel)
    exact hseq

/-- The peer has room for two bytes only and closes; then `dtp_close` is called, and the FIN
goes out with the number of the third byte, which has not been sent. -/
theorem fin_cuts_off_byte : ∃ s x, (sender sampleCrypto 0 [] sampleSender).Reachable s ∧
      (sender sampleCrypto 0 [] sampleSender).allowed s .close ∧
      Event.close.flush sampleCrypto s.ctx = some x ∧ x.sendsFIN = true ∧
      (x.writeFlush fun _ => true).1.lastByteSent = 2 ∧
      (x.writeFlush fun _ => true).1.lastByteWritten = 3 ∧ s.stream = [1, 2, 3] := by
  have hadm : (sender sampleCrypto 0 [] sampleSender).Admits ⟨sampleSender, []⟩
      [.batch (ackOnly 0 2), .send [1, 2, 3], .fin peerFIN] := by
    decide +kernel
  refine ⟨_, _, Machine.Reachable.run (.init rfl) hadm, ?_, rfl, ?_, ?_, ?_, ?_⟩
  · decide +kernel
  · decide +kernel
  · decide +kernel
  · decide +kernel
  · decide +kernel

end Cedos.Dtp
