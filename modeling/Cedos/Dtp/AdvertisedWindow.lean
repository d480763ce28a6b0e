import Cedos.Dtp.Receive
import Cedos.Dtp.Handshake
import Cedos.Dtp.Challenge

/-!
# The window a packet announces

Every packet carries the free space of the read buffer in 16 bits: `DTPGenerateHeader` clamps its
argument to `0x7FFF`, and the peer shifts what it reads by the scale it was told. The senders
therefore pass the free space shifted right by `tc_recvWindowScale`.

`DTPSendFINPacket` does not shift: a FIN announces up to `2 ^ tc_recvWindowScale` times the space there
is. `fairWindow_iff` says of each sender when what it announces is right.
-/

namespace Cedos.Dtp

open DtpContext

/-! ## Words -/

theorem toNat_windowSize_dtpGenerateHeader (seq ackSeq fid : UInt32) (flags : Flags) (w : UInt32) :
    (dtpGenerateHeader seq ackSeq fid flags w).hdr.windowSize.toNat = min w.toNat 0x7FFF := by
  simp only [dtpGenerateHeader]
  by_cases h : w > 0x7FFF
  · have hlt : 0x7FFF < w.toNat := UInt32.lt_iff_toNat_lt.mp h
    rw [if_pos h, Nat.min_eq_right hlt.le]
    rfl
  · have hle : w.toNat ≤ 0x7FFF := by
      rw [gt_iff_lt, UInt32.lt_iff_toNat_lt, not_lt] at h
      exact h
    rw [if_neg h, Nat.min_eq_left hle, UInt32.toNat_toUInt16]
    omega

section Scale
variable {s : UInt8} (hs : s ≤ maxWinscaleShift)
include hs

theorem toNat_scale_le : s.toNat ≤ 14 := UInt8.le_iff_toNat_le.mp hs

theorem toNat_shift_scale : s.toUInt32.toNat % 32 = s.toNat := by
  have h14 := toNat_scale_le hs
  rw [UInt8.toNat_toUInt32]
  omega

theorem toNat_scaledWindow {w : UInt16} (hw : w.toNat ≤ 0x7FFF) : (scaledWindow w s).toNat = w.toNat * 2 ^ s.toNat := by
  have h14 := toNat_scale_le hs
  have hpow : 2 ^ s.toNat ≤ 2 ^ 14 := Nat.pow_le_pow_right (by norm_num) h14
  have hlt : w.toNat * 2 ^ s.toNat < 2 ^ 32 := by
    calc w.toNat * 2 ^ s.toNat ≤ 0x7FFF * 2 ^ 14 := Nat.mul_le_mul hw hpow
      _ < 2 ^ 32 := by norm_num
  rw [scaledWindow, UInt32.toNat_shiftLeft, toNat_shift_scale hs, UInt16.toNat_toUInt32,
    Nat.shiftLeft_eq, Nat.mod_eq_of_lt hlt]

end Scale

theorem DtpContext.toNat_advertisedWindow {c : DtpContext} (hs : c.recvWindowScale ≤ maxWinscaleShift) :
    c.advertisedWindow.toNat = c.getAvailReadBufSize.toNat / 2 ^ c.recvWindowScale.toNat := by
  rw [advertisedWindow, UInt32.toNat_shiftRight, toNat_shift_scale hs, Nat.shiftRight_eq_div_pow]

/-! ## The senders -/

/-- The packets that carry a window. -/
inductive Carrier
  /-- a packet of `DTPWriteAvail`, the SYN among them -/
  | data (flags : Flags) (len : ℤ)
  /-- the SYN+ACK of `DTPHandleKey` -/
  | synAck (cipher : List UInt8)
  | ack
  | probe
  | fin
  | chg (addr : SockAddr) (rnd : UInt32)
  | rsp (hmac : List UInt8 → List UInt8 → List UInt8)
  | auth

namespace Carrier

/-- The function that sends the packet. -/
def send : Carrier → DtpContext → DtpContext
  | .data flags len, c => c.writeOne flags len
  | .synAck cipher, c => c.sendKey cipher
  | .ack, c => c.dtpSendACKPacket
  | .probe, c => c.dtpSendProbePacket
  | .fin, c => c.dtpSendFINPacket
  | .chg addr rnd, c => c.sendCHGPacket addr rnd
  | .rsp hmac, c => c.sendRSPPacket hmac
  | .auth, c => c.sendAUTHPacket

/-- What it passes to `DTPGenerateHeader` as the window. -/
def winSize (c : DtpContext) : Carrier → UInt32
  | .fin => c.getAvailReadBufSize
  | _ => c.advertisedWindow

variable (k : Carrier) (c : DtpContext)

/-- Every sender sends one packet, with the window it passes. -/
theorem wire_send : ∃ a d, (k.send c).wire = c.wire ++ [(a, d)] ∧
    d.hdr.windowSize.toNat = min (k.winSize c).toNat 0x7FFF := by
  cases k with
  | data flags len =>
    refine ⟨_, _, rfl, ?_⟩
    rw [← toNat_windowSize_dtpGenerateHeader c.lastByteSent c.nextByteExpected c.flowID flags]
    simp only [writeDatagram, mkDatagram, writeHeader]
    split_ifs <;> rfl
  | synAck cipher =>
    refine ⟨_, _, rfl, ?_⟩
    rw [← toNat_windowSize_dtpGenerateHeader c.lastByteSent c.nextByteExpected c.flowID
      { syn := true, ack := true }]
    simp only [mkDatagram, keyHeader]
    split_ifs <;> rfl
  | ack => exact ⟨_, _, rfl, toNat_windowSize_dtpGenerateHeader ..⟩
  | probe => exact ⟨_, _, rfl, toNat_windowSize_dtpGenerateHeader ..⟩
  | fin => exact ⟨_, _, rfl, toNat_windowSize_dtpGenerateHeader ..⟩
  | chg addr rnd => exact ⟨_, _, rfl, toNat_windowSize_dtpGenerateHeader ..⟩
  | rsp hmac => exact ⟨_, _, rfl, toNat_windowSize_dtpGenerateHeader ..⟩
  | auth => exact ⟨_, _, rfl, toNat_windowSize_dtpGenerateHeader ..⟩

end Carrier

/-! ## What is announced -/

/-- The peer may send what fits, and is told of all of it but for the bits that the scale drops. The
clamp leaves `0x7FFF` behind. -/
structure FairWindow (c : DtpContext) (window : UInt16) : Prop where
  le : scaledWindow window c.recvWindowScale ≤ c.getAvailReadBufSize
  close : window ≠ 0x7FFF →
    c.getAvailReadBufSize.toNat < (scaledWindow window c.recvWindowScale).toNat + 2 ^ c.recvWindowScale.toNat

section FairWindow
variable {c : DtpContext} (hs : c.recvWindowScale ≤ maxWinscaleShift) {w : UInt16}
include hs

/-- The shifted free space is announced as it should be. -/
theorem fairWindow_advertisedWindow (hw : w.toNat = min c.advertisedWindow.toNat 0x7FFF) : FairWindow c w := by
  have hscaled := toNat_scaledWindow hs (hw ▸ Nat.min_le_right _ _)
  have hpos : 0 < 2 ^ c.recvWindowScale.toNat := Nat.two_pow_pos _
  rw [toNat_advertisedWindow hs] at hw
  have hdiv := Nat.div_add_mod' c.getAvailReadBufSize.toNat (2 ^ c.recvWindowScale.toNat)
  have hmod := Nat.mod_lt c.getAvailReadBufSize.toNat hpos
  constructor
  · rw [UInt32.le_iff_toNat_le, hscaled]
    have hle : w.toNat ≤ c.getAvailReadBufSize.toNat / 2 ^ c.recvWindowScale.toNat :=
      hw ▸ Nat.min_le_left _ _
    calc w.toNat * 2 ^ c.recvWindowScale.toNat
        ≤ c.getAvailReadBufSize.toNat / 2 ^ c.recvWindowScale.toNat * 2 ^ c.recvWindowScale.toNat :=
          Nat.mul_le_mul_right _ hle
      _ ≤ c.getAvailReadBufSize.toNat := by omega
  · intro hne
    have hfull : w.toNat = c.getAvailReadBufSize.toNat / 2 ^ c.recvWindowScale.toNat := by
      have hclamp : w.toNat ≠ 0x7FFF := fun h => hne (UInt16.toNat_inj.mp h)
      omega
    rw [hscaled, hfull]
    omega

/-- The free space itself is announced as it should be only if the shift would not have changed it, or
if the clamp cuts it far enough. -/
theorem fairWindow_getAvailReadBufSize (hw : w.toNat = min c.getAvailReadBufSize.toNat 0x7FFF) :
    FairWindow c w ↔ c.recvWindowScale = 0 ∨ c.getAvailReadBufSize = 0 ∨
      0x7FFF * 2 ^ c.recvWindowScale.toNat ≤ c.getAvailReadBufSize.toNat := by
  have hscaled := toNat_scaledWindow hs (hw ▸ Nat.min_le_right _ _)
  constructor
  · intro h
    by_contra hcon
    simp only [not_or, not_le] at hcon
    obtain ⟨hscale, havail, hlarge⟩ := hcon
    have hle := UInt32.le_iff_toNat_le.mp h.le
    rw [hscaled] at hle
    -- at least doubled
    have htwo : 2 ≤ 2 ^ c.recvWindowScale.toNat := by
      have hne : c.recvWindowScale.toNat ≠ 0 := fun h0 => hscale (UInt8.toNat_inj.mp h0)
      exact Nat.le_self_pow hne 2
    have hpos : c.getAvailReadBufSize.toNat ≠ 0 := fun h0 => havail (UInt32.toNat_inj.mp h0)
    rcases Nat.le_total c.getAvailReadBufSize.toNat 0x7FFF with hsmall | hbig
    · rw [hw, Nat.min_eq_left hsmall] at hle
      have hdouble := Nat.mul_le_mul_left c.getAvailReadBufSize.toNat htwo
      omega
    · rw [hw, Nat.min_eq_right hbig] at hle
      omega
  · intro h
    rcases h with hscale | havail | hlarge
    · -- without a scale, shifting changes nothing
      refine fairWindow_advertisedWindow hs ?_
      rw [toNat_advertisedWindow hs, hscale, hw]
      simp
    · refine fairWindow_advertisedWindow hs ?_
      rw [toNat_advertisedWindow hs, hw, havail]
      simp
    · have hpos : 0 < 2 ^ c.recvWindowScale.toNat := Nat.two_pow_pos _
      have hbig : 0x7FFF ≤ c.getAvailReadBufSize.toNat := by
        have hself := Nat.le_mul_of_pos_right 0x7FFF hpos
        omega
      have hclamp : w.toNat = 0x7FFF := by rw [hw, Nat.min_eq_right hbig]
      constructor
      · rw [UInt32.le_iff_toNat_le, hscaled, hclamp]
        exact hlarge
      · intro hne
        exact absurd (UInt16.toNat_inj.mp hclamp) hne

end FairWindow

/-- The packets of every sender announce the free space, but for a FIN, which is right only without a scale,
with a full buffer, or with more space than any scaled window can name. Nothing is assumed of the offsets of
the read buffer. -/
theorem fairWindow_iff {c : DtpContext} (hs : c.recvWindowScale ≤ maxWinscaleShift) (k : Carrier) :
    ∃ a d, (k.send c).wire = c.wire ++ [(a, d)] ∧ (FairWindow c d.hdr.windowSize ↔
        (k = .fin → c.recvWindowScale = 0 ∨ c.getAvailReadBufSize = 0 ∨
          0x7FFF * 2 ^ c.recvWindowScale.toNat ≤ c.getAvailReadBufSize.toNat)) := by
  obtain ⟨a, d, hwire, hwin⟩ := k.wire_send c
  refine ⟨a, d, hwire, ?_⟩
  by_cases hk : k = .fin
  · subst hk
    rw [fairWindow_getAvailReadBufSize hs hwin]
    simp
  · have hshift : k.winSize c = c.advertisedWindow := by
      cases k <;> first | rfl | exact absurd rfl hk
    rw [hshift] at hwin
    exact iff_of_true (fairWindow_advertisedWindow hs hwin) fun h => absurd h hk

/-- A context with the scale and the buffer every context is created with. -/
def defaultBuffers : DtpContext := { readBufLen := 32 * 1024, recvWindowScale := 4 }

theorem fairWindow_iff_ack :
    ∃ a d, (Carrier.ack.send defaultBuffers).wire = [(a, d)] ∧ FairWindow defaultBuffers d.hdr.windowSize := by
  obtain ⟨a, d, hwire, hiff⟩ := fairWindow_iff (c := defaultBuffers) (by decide) .ack
  exact ⟨a, d, hwire, hiff.mpr fun h => by cases h⟩

/-- The FIN of such a context announces 524272 bytes; it has room for 32768. -/
theorem fin_overpromises : ∃ a d, (Carrier.fin.send defaultBuffers).wire = [(a, d)] ∧
    defaultBuffers.lastByteRead ≤ defaultBuffers.nextByteExpected ∧
    (defaultBuffers.nextByteExpected.toNat : ℤ) ≤ defaultBuffers.lastByteRead.toNat + defaultBuffers.readBufLen ∧
    (scaledWindow d.hdr.windowSize defaultBuffers.recvWindowScale).toNat = 524272 ∧
    defaultBuffers.getAvailReadBufSize = 32768 ∧ ¬FairWindow defaultBuffers d.hdr.windowSize := by
  refine ⟨_, _, rfl, by decide, by decide, by decide, by decide, fun h => ?_⟩
  exact absurd h.le (by decide)

end Cedos.Dtp
