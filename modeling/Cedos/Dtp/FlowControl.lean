import Cedos.Dtp.CloseOrder
import Cedos.Dtp.Flush
import Cedos.Dtp.Onward

/-!
# Flow control

`DTPWriteAvail` sends no more than `tc_rcvWindow` less what is in flight. The difference is
unsigned: when the window is smaller than what is in flight it wraps around, and everything
goes. That happens when the peer's window moves back, which it does by a few bytes whenever the
free space is shifted for the header. And `DTPSlowStart` overwrites the peer's window with the
length of the local read buffer.
-/

namespace Cedos.Dtp

open DtpContext

/-- The data `DTPWriteAvail` sends lies in a window from the last byte acknowledged on. -/
def InsideWindow (x : DtpContext) (window : UInt32) : Prop :=
  ∃ ds, x.dtpWriteAvail.wire = x.wire ++ ds ∧ ∀ y ∈ ds, y.2.payload ≠ [] →
    (y.2.hdr.seq - x.lastByteAcked).toNat + y.2.payload.length ≤ window.toNat

/-- The window in the context is not larger than the peer's, and what is in flight fits it. -/
structure KnowsWindow (x : DtpContext) (window : UInt32) : Prop where
  inFlight : x.lastByteSent - x.lastByteAcked ≤ x.rcvWindow
  known : x.rcvWindow ≤ window

section Loop
variable {c x : DtpContext} {f : Flags} {l : ℤ} {w : ℕ}

theorem writeOne_window (hid : c.localID.length = sha1DigestLength) (hs : c.state ≠ .synSent) (hl : 0 < l)
    (hw : w < 4294967296) (hfit : ((c.lastByteSent - c.lastByteAcked).toNat : ℤ) + l ≤ w) :
    (c.writeDatagram f l).payload.length = (c.writeLen f l).toNat ∧ (c.writeDatagram f l).hdr.seq = c.lastByteSent ∧
    (((c.writeOne f l).lastByteSent - c.lastByteAcked).toNat : ℤ) =
    (c.lastByteSent - c.lastByteAcked).toNat + c.writeLen f l := by
  obtain ⟨hpos, hmax⟩ := writeLen_bounds (f := f) hid hs hl
  refine ⟨?_, writeHeader_seq c f, ?_⟩
  · rw [writeDatagram, payload_mkDatagram (writeHeader_wf c f hid), length_peek]
  · have hsum : (c.writeOne f l).lastByteSent - c.lastByteAcked =
        c.lastByteSent - c.lastByteAcked + u32 (c.writeLen f l) := by
      change c.lastByteSent + u32 (c.writeLen f l) - c.lastByteAcked = _
      rw [UInt32.sub_eq_add_neg, UInt32.sub_eq_add_neg, UInt32.add_assoc, UInt32.add_assoc, UInt32.add_comm (u32 _)]
    rw [hsum, toNat_add_u32 hpos.le (by omega)]
    omega

theorem writeLoop_window (hid : c.localID.length = sha1DigestLength) (hs : c.state ≠ .synSent)
    (hw : w < 4294967296) (h0 : (c.lastByteSent - c.lastByteAcked).toNat ≤ w)
    (hfit : ((c.lastByteSent - c.lastByteAcked).toNat : ℤ) + l ≤ w) (fuel k : ℕ) :
    ∃ ds, (writeLoop (fun _ => true) fuel k f l c).1.wire = c.wire ++ ds ∧ ∀ y ∈ ds,
      (y.2.hdr.seq - c.lastByteAcked).toNat + y.2.payload.length ≤ w := by
  induction fuel generalizing k f l c with
  | zero => exact ⟨[], by simp [writeLoop], by simp⟩
  | succ fuel ih =>
    simp only [writeLoop, Bool.not_true, Bool.false_eq_true, if_false, hs]
    by_cases hg : c.writeGuard l = true
    · have hl := pos_of_writeGuard hg
      obtain ⟨hpos, hmax⟩ := writeLen_bounds (f := f) hid hs hl
      obtain ⟨hlen, hseq, hnext⟩ := writeOne_window (f := f) hid hs hl hw hfit
      obtain ⟨ds, hwire, hds⟩ := ih (c := c.writeOne f l) (f := laterFlags f)
        (l := l - c.writeLen f l) hid hs (by change (_ - c.lastByteAcked).toNat ≤ w; omega)
        (by change ((_ - c.lastByteAcked).toNat : ℤ) + _ ≤ w; omega) (k + 1)
      simp only [hg, Bool.not_true, Bool.false_eq_true, if_false]
      refine ⟨(c.peerAddr, c.writeDatagram f l) :: ds, ?_, ?_⟩
      · rw [hwire]
        simp [writeOne]
      · intro y hy
        rcases List.mem_cons.mp hy with rfl | hy
        · rw [hlen, hseq]
          omega
        · exact hds y hy
    · simp only [hg, Bool.not_false, if_true]
      exact ⟨[], by simp, by simp⟩

/-- What the windows leave. -/
theorem sendLen_le_window (h : x.lastByteSent - x.lastByteAcked ≤ x.rcvWindow) :
    ((x.lastByteSent - x.lastByteAcked).toNat : ℤ) + x.sendLen ≤ x.rcvWindow.toNat := by
  have hle := UInt32.le_iff_toNat_le.mp h
  have hroom := toNat_sub_word hle
  have hmin := toNat_min (u32 (i32 (x.lastByteWritten - x.lastByteSent)))
    (x.rcvWindow - (x.lastByteSent - x.lastByteAcked))
  have hread (m : UInt32) : i32 m ≤ m.toNat := by
    simp only [i32]
    split_ifs <;> omega
  have hm := hread (min (u32 (i32 (x.lastByteWritten - x.lastByteSent)))
    (x.rcvWindow - (x.lastByteSent - x.lastByteAcked)))
  simp only [sendLen]
  omega

/-- A context that knows the window stays inside it. -/
theorem insideWindow_of_knows (hid : x.localID.length = sha1DigestLength) (hs : x.state ≠ .synSent)
    {window : UInt32} (h : KnowsWindow x window) : InsideWindow x window := by
  have hin := UInt32.le_iff_toNat_le.mp h.inFlight
  have hknown := UInt32.le_iff_toNat_le.mp h.known
  have hflush : ∃ ds, (x.writeFlush fun _ => true).1.wire = x.wire ++ ds ∧ ∀ y ∈ ds,
      (y.2.hdr.seq - x.lastByteAcked).toNat + y.2.payload.length ≤ window.toNat := by
    have hnone : ∃ ds, x.wire = x.wire ++ ds ∧ ∀ y ∈ ds,
        (y.2.hdr.seq - x.lastByteAcked).toNat + y.2.payload.length ≤ window.toNat :=
      ⟨[], by simp, by simp⟩
    simp only [writeFlush]
    split_ifs
    · exact hnone
    · exact hnone
    · have hlen := sendLen_le_window h.inFlight
      exact writeLoop_window (c := x.beginWrite) hid hs (toNat_lt_word window)
        (by change (x.lastByteSent - x.lastByteAcked).toNat ≤ _; omega)
        (by change ((x.lastByteSent - x.lastByteAcked).toNat : ℤ) + _ ≤ _; omega) _ 0
  obtain ⟨ds, hwire, hds⟩ := hflush
  rcases dtpWriteAvail_cases x with heq | ⟨heq, -, -⟩
  · exact ⟨ds, by rw [heq, hwire], fun y hy _ => hds y hy⟩
  · refine ⟨ds ++ [((x.writeFlush fun _ => true).1.peerAddr,
      mkDatagram (x.writeFlush fun _ => true).1.finHeader [])], ?_, ?_⟩
    · rw [heq, ← List.append_assoc, ← hwire]
      rfl
    · intro y hy hne
      rcases List.mem_append.mp hy with hy | hy
      · exact hds y hy
      · simp only [List.mem_singleton] at hy
        subst hy
        exact absurd (payload_mkDatagram (wf_dtpGenerateHeader ..) []) hne

end Loop

/-! ## Runs -/

/-- The window `HandleACKPacket` records. -/
def Event.ackWindow (c : DtpContext) : Event → Option UInt32
  | .batch p =>
    match p.ack with
    | none => none
    | some (ackNum, window) =>
      if c.state = .timeWait ∨ c.isNetConnected = false ∨
        (ackNum < c.lastByteAcked ∧ ¬c.lastByteAcked + 1472 < c.lastByteAcked) then none
      else some (scaledWindow window c.sendWindowScale)
  | _ => none

/-- A packet whose window `HandleNormalPacket` records. -/
def DtpContext.takesData (c : DtpContext) (d : Datagram) : Bool :=
  hasData d && c.isActive && !(c.state == .synRcvd || c.state == .synSent || d.hdr.syn)

/-- The window `HandleNormalPacket` records last. -/
def Event.dataWindow (c : DtpContext) : Event → Option UInt32
  | .batch p =>
    ((p.pkts.filter (c.processACK p.ack).takesData).getLast?).map fun d =>
      scaledWindow d.hdr.windowSize (c.processACK p.ack).sendWindowScale
  | _ => none

/-- A context and the last window of its peer that was recorded. -/
structure Windowed where
  ctx : DtpContext
  window : Option UInt32

/-- The last window recorded when the event calls `DTPWriteAvail`: the ACK of a batch comes
first, its data after. -/
def Windowed.atFlush (s : Windowed) (e : Event) : Option UInt32 := (e.ackWindow s.ctx).or s.window

/-- The runs of an established context, whatever its peer sends. -/
def flowing (k : Crypto) (c₀ : DtpContext) : Machine Windowed Event where
  init s := s = ⟨c₀, none⟩
  allowed s e := s.ctx.state = .established ∧ e.offered s.ctx
  apply s e := ⟨e.apply k s.ctx, (e.dataWindow s.ctx).or (s.atFlush e)⟩

/-- The runs in which every call of `DTPWriteAvail` finds that what is in flight fits the window,
and, if no ACK has just brought one, that the window is still the peer's. -/
def knowing (k : Crypto) (c₀ : DtpContext) : Machine Windowed Event :=
  (flowing k c₀).restrict fun s e => ∀ x, e.flush k s.ctx = some x → x.lastByteSent - x.lastByteAcked ≤ x.rcvWindow ∧
      (e.ackWindow s.ctx = none → ∀ window, s.window = some window → x.rcvWindow ≤ window)

section Runs
variable {k : Crypto} {c c₀ x : DtpContext} {e : Event}

instance (s : Windowed) (e : Event) : Decidable ((flowing k c₀).allowed s e) :=
  inferInstanceAs (Decidable (_ ∧ _))

instance (s : Windowed) (e : Event) : Decidable ((knowing k c₀).allowed s e) :=
  -- not by a check of all windows
  have (x : DtpContext) : Decidable (∀ w ∈ s.window, x.rcvWindow ≤ w) := Option.decidableForallMem _
  inferInstanceAs (Decidable ((flowing k c₀).allowed s e ∧ ∀ x ∈ e.flush k s.ctx,
    x.lastByteSent - x.lastByteAcked ≤ x.rcvWindow ∧
      (e.ackWindow s.ctx = none → ∀ window ∈ s.window, x.rcvWindow ≤ window)))

/-- The window recorded by an ACK is the one `DTPWriteAvail` works with. -/
theorem rcvWindow_of_ackWindow {window : UInt32} (hx : e.flush k c = some x)
    (hw : e.ackWindow c = some window) : x.rcvWindow = window := by
  cases e with
  | batch p =>
    cases hack : p.ack with
    | none => simp [Event.ackWindow, hack] at hw
    | some aw =>
      simp only [Event.flush, hack] at hx
      simp only [Event.ackWindow, hack] at hw
      split_ifs at hw with hskip
      simp only [Option.some.injEq] at hw
      split_ifs at hx
      have hnote : ((c.noteWrap aw.1).noteAckWindow aw.2).rcvWindow = window := by
        rw [← hw]
        simp only [noteWrap]
        split_ifs <;> rfl
      simp only [flushACK] at hx
      generalize (c.noteWrap aw.1).noteAckWindow aw.2 = c₁ at hx hnote
      split_ifs at hx
      · simp only [Option.some.injEq] at hx
        rw [← hx, ← hnote]
        rfl
      · simp only [Option.some.injEq] at hx
        rw [← hx, ← hnote]
        simp only [recordACK, creditACK, establish, DtpContext.countDuplicate]
        split_ifs <;> rfl
  | _ => simp [Event.ackWindow] at hw

/-- The host ID of an established context stays. -/
theorem localID_of_flowing {s : Windowed} (hs : (flowing k c₀).Reachable s) : s.ctx.localID = c₀.localID := by
  refine Machine.Reachable.invariant (P := fun s => s.ctx.localID = c₀.localID) ?_ ?_ hs
  · intro t ht
    obtain rfl : t = ⟨c₀, none⟩ := ht
    rfl
  · intro t e ht he
    have hopen : t.ctx.state ≠ .synSent := by
      rw [he.1]
      decide
    exact (congrArg Settled.localID (Onward.apply k (.inl hopen)).settled).trans ht

/-- **Flow control.**  In runs whose calls of `DTPWriteAvail` know the window, no call sends data
beyond the window that was recorded last. -/
theorem flow_control (hid : c₀.localID.length = sha1DigestLength) {s : Windowed} (hs : (knowing k c₀).Reachable s)
    (he : (knowing k c₀).allowed s e) (hx : e.flush k s.ctx = some x) {window : UInt32}
    (hw : s.atFlush e = some window) : InsideWindow x window := by
  have hstart := (apply_of_flush hx).2
  obtain ⟨hin, hknown⟩ := he.2 x hx
  have hknows : KnowsWindow x window := by
    refine ⟨hin, ?_⟩
    rw [Windowed.atFlush] at hw
    cases hack : e.ackWindow s.ctx with
    | none => exact hknown hack window (by simpa [hack] using hw)
    | some w =>
      have heq : w = window := by simpa [hack] using hw
      rw [rcvWindow_of_ackWindow hx hack, heq]
      exact UInt32.le_refl window
  refine insideWindow_of_knows ?_ ?_ hknows
  · rw [hstart.localID, localID_of_flowing hs.of_restrict]
    exact hid
  · intro hsyn
    have hopen := hstart.state hsyn
    rw [he.1.1] at hopen
    cases hopen

end Runs

/-! ## A window of two bytes -/

/-- A peer with room for two bytes. -/
def smallPeer : DtpContext :=
  { dtpCreateContext with state := .established, readBufLen := 2, recvWindowScale := 0 }

/-- Its ACK, and five bytes to send. -/
def smallWindow : List Event := [.batch (ackOnly 0 2), .send [1, 2, 3, 4, 5]]

example :
    smallPeer.dtpSendACKPacket.wire.map (fun y => (y.2.hdr.ackSeq, y.2.hdr.windowSize)) = [(0, 2)] := by
  decide +kernel

/-- The first two bytes go. -/
theorem flow_control_small_window : ∃ s x, (knowing sampleCrypto sampleSender).Reachable s ∧
    (Event.send [1, 2, 3, 4, 5]).flush sampleCrypto s.ctx = some x ∧ InsideWindow x 2 := by
  have hadm : (knowing sampleCrypto sampleSender).Admits ⟨sampleSender, none⟩ [.batch (ackOnly 0 2)] := by
    decide +kernel
  have hsend : (knowing sampleCrypto sampleSender).allowed ((knowing sampleCrypto sampleSender).run
      ⟨sampleSender, none⟩ [.batch (ackOnly 0 2)]) (.send [1, 2, 3, 4, 5]) := by
    decide +kernel
  have hrun := Machine.Reachable.run (.init rfl) hadm
  exact ⟨_, _, hrun, rfl, flow_control (by decide) hrun hsend rfl (by decide +kernel)⟩

/-- The peer has moved and is authenticated again: `DTPSlowStart` takes the local read buffer for
its window, and the other three bytes go, which no packet has carried before. -/
theorem migration_overruns_window : ∃ s x, (flowing sampleCrypto sampleSender).Reachable s ∧
    (flowing sampleCrypto sampleSender).allowed s (.auth s.ctx.peerAddr 1) ∧
    (Event.auth s.ctx.peerAddr 1).flush sampleCrypto s.ctx = some x ∧
    s.atFlush (.auth s.ctx.peerAddr 1) = some 2 ∧ x.lastByteAcked = 0 ∧
    (∀ z ∈ s.ctx.wire, z.2.hdr.seq.toNat + z.2.payload.length ≤ 2) ∧
    ((x.dtpWriteAvail.wire.map fun z => (z.2.hdr.seq, z.2.payload)).getLast? = some (2, [3, 4, 5])) := by
  have hadm : (flowing sampleCrypto sampleSender).Admits ⟨sampleSender, none⟩ smallWindow := by
    decide +kernel
  refine ⟨_, _, Machine.Reachable.run (.init rfl) hadm, ?_, rfl, ?_, ?_, ?_, ?_⟩
  · decide +kernel
  · decide +kernel
  · decide +kernel
  · decide +kernel
  · decide +kernel

/-- A window that has moved back, from byte 3 to byte 2, with two bytes in flight: the difference
wraps around, and the two bytes that are left go as well. -/
example : (((flowing sampleCrypto sampleSender).run ⟨sampleSender, none⟩
    [.batch (ackOnly 0 3), .send [1, 2, 3, 4, 5], .batch (ackOnly 1 1)]).ctx.wire.map
      fun z => (z.2.hdr.seq, z.2.payload)) = [(0, [1, 2, 3]), (3, [4, 5])] := by
  decide +kernel

end Cedos.Dtp
