import Cedos.Dtp.AckEffect
import Cedos.Dtp.InFlight

/-!
# ACKs for data that was never sent

The number up to which data has been acknowledged changes only when `HandleACKPacket` records
one. As long as every number above all that was transmitted is ignored, it stays below those
numbers, and each of them looks like a new ACK.
-/

namespace Cedos.Dtp

open DtpContext

/-- No ACK is recorded, and nothing that was sent is forgotten. -/
structure SameAck (c c' : DtpContext) : Prop where
  acked : c'.lastByteAcked = c.lastByteAcked
  wire : ∀ x ∈ c.wire, x ∈ c'.wire

namespace SameAck
variable {c c' c'' : DtpContext}

theorem refl (c : DtpContext) : SameAck c c := ⟨rfl, fun _ hx => hx⟩

theorem trans (h : SameAck c c') (h' : SameAck c' c'') : SameAck c c'' :=
  ⟨h'.acked.trans h.acked, fun x hx => h'.wire x (h.wire x hx)⟩

theorem quiet (ha : c'.lastByteAcked = c.lastByteAcked) (hw : c'.wire = c.wire) : SameAck c c' :=
  ⟨ha, fun _ hx => hw ▸ hx⟩

theorem sends (ha : c'.lastByteAcked = c.lastByteAcked) {ds : List (SockAddr × Datagram)}
    (hw : c'.wire = c.wire ++ ds) : SameAck c c' :=
  ⟨ha, fun _ hx => hw ▸ List.mem_append_left ds hx⟩

theorem of_act {k : ActKind} (h : Act k c c') (hk : k ≠ .acked) : SameAck c c' := by
  have hreconnect (c : DtpContext) : SameAck c c.dtpReconnect := by
    simp only [DtpContext.dtpReconnect]
    split
    · exact sends rfl rfl
    · exact quiet rfl rfl
  cases h with
  | acked => exact absurd rfl hk
  | data | fin | ack | probe | rst | auth | again | challenge | respond | sendKey => exact sends rfl rfl
  | fallBack =>
    simp only [fallBack, unsendFIN]
    split_ifs <;> exact quiet rfl rfl
  | reconnect => exact hreconnect c
  | switch _ _ b =>
    have hset : SameAck c { c with limitRcvBuf := b } := quiet rfl rfl
    exact hset.trans (hreconnect _)
  | released =>
    simp only [DtpContext.dtpCloseContext]
    split_ifs <;> exact quiet rfl rfl
  | _ => exact quiet rfl rfl

theorem of_acts {K : List ActKind} (h : Acts K c c') (hK : .acked ∉ K) : SameAck c c' := by
  refine h.invariant (P := SameAck c) ?_ (refl c)
  intro k hk x y ha hx
  exact hx.trans (of_act ha fun heq => hK (heq ▸ hk))

theorem apply {k : Crypto} {e : ConnEvent} (he : ∀ p, e ≠ .own (.batch p)) :
    SameAck c (e.apply k c) := by
  refine of_acts (.conn k c e) ?_
  cases e with
  | syn | option => simp only [ConnEvent.kinds]; decide
  | own e =>
    cases e with
    | batch p => exact absurd rfl (he p)
    | _ => simp only [ConnEvent.kinds, Event.kinds]; decide

end SameAck

/-! ## ACKs -/

/-- The number is above all sequence numbers transmitted so far, a FIN counting as one. -/
def DtpContext.Beyond (c : DtpContext) (a : UInt32) : Prop :=
  0 < a ∧ ∀ x ∈ c.wire, x.2.hdr.chg = false → x.2.hdr.rsp = false →
    x.2.hdr.seq.toNat + x.2.payload.length + x.2.hdr.fin.toNat < a.toNat

/-- The context is disconnected, or the ACK opens the window again and `DTPWriteAvail` then has
nothing to send. -/
def DtpContext.ignores (c : DtpContext) (w : UInt16) : Bool :=
  !c.isNetConnected || (c.reopens w && (c.noteAckWindow w).clearHerWindowZero.idles)

/-- An ACK for data that was never sent meets the condition. -/
def ConnEvent.IgnoresUnsent (c : DtpContext) : ConnEvent → Prop
  | .own (.batch p) =>
    c.state ≠ .timeWait → ∀ a w, p.ack = some (a, w) → c.Beyond a → c.ignores w = true
  | _ => True

section Ack
variable {c c' : DtpContext} {a : UInt32} {w : UInt16}

theorem ignored_iff (hnew : c.lastByteAcked < a) : Ignored c (c.handleACKPacket a w) ↔ c.ignores w = true := by
  rw [ignored_iff_of_new hnew, ignores]
  simp

/-- The number that is recorded is that of the ACK, if any. -/
theorem handleACKPacket_acked (c : DtpContext) (a : UInt32) (w : UInt16) :
    ((c.handleACKPacket a w).lastByteAcked = c.lastByteAcked ∨ (c.handleACKPacket a w).lastByteAcked = a) ∧
    ∀ x ∈ c.wire, x ∈ (c.handleACKPacket a w).wire := by
  have hnoted : SameAck c ((c.noteWrap a).noteAckWindow w) := by
    simp only [noteWrap]
    split_ifs <;> exact .quiet rfl rfl
  have hwoken (c : DtpContext) : SameAck c c.dtpWriteAvail.dtpWriteBufWakeup :=
    (SameAck.of_acts (.dtpWriteAvail c) (by decide)).trans (.quiet rfl rfl)
  simp only [handleACKPacket]
  generalize (c.noteWrap a).noteAckWindow w = b at hnoted
  have hcounted : SameAck c (b.countDuplicate a) := by
    simp only [countDuplicate]
    split_ifs <;> exact hnoted.trans (.quiet rfl rfl)
  split_ifs
  · exact ⟨.inl rfl, fun _ hx => hx⟩
  · exact ⟨.inl rfl, fun _ hx => hx⟩
  · have hopened : SameAck b b.clearHerWindowZero := .quiet rfl rfl
    have h := (hnoted.trans hopened).trans (hwoken _)
    exact ⟨.inl h.acked, h.wire⟩
  · have h := hcounted.trans (.of_acts (.handleDuplicateACK _ a) (by decide))
    exact ⟨.inl h.acked, h.wire⟩
  · have hrec : ((b.countDuplicate a).recordACK a).lastByteAcked = a ∧
        ((b.countDuplicate a).recordACK a).wire = (b.countDuplicate a).wire := by
      simp only [recordACK, creditACK, establish]
      split_ifs <;> exact ⟨rfl, rfl⟩
    have h := (hwoken ((b.countDuplicate a).recordACK a)).trans (.of_acts (.finishACK _ a) (by decide))
    refine ⟨.inr (h.acked.trans hrec.1), fun x hx => h.wire x ?_⟩
    rw [hrec.2]
    exact hcounted.wire x hx

theorem Beyond.of_wire (h : c'.Beyond a) (hw : ∀ x ∈ c.wire, x ∈ c'.wire) : c.Beyond a :=
  ⟨h.1, fun x hx => h.2 x (hw x hx)⟩

/-- What has been acknowledged lies below every number that is beyond what was sent. -/
def Backed (c : DtpContext) : Prop := ∀ a, c.Beyond a → c.lastByteAcked < a

theorem Backed.of_same (h : Backed c) (hs : SameAck c c') : Backed c' := by
  intro a ha
  rw [hs.acked]
  exact h a (Beyond.of_wire ha hs.wire)

/-- An ACK that meets the condition, if it is for data that was never sent. -/
theorem Backed.handleACKPacket (h : Backed c) (hi : c.Beyond a → c.ignores w = true) :
    Backed (c.handleACKPacket a w) := by
  rcases handleACKPacket_acked c a w with ⟨hacked, hwire⟩
  intro a' ha'
  have hbelow := h a' (Beyond.of_wire ha' hwire)
  rcases hacked with hsame | hnew
  · rwa [hsame]
  · by_cases hb : c.Beyond a
    · have hign := (ignored_iff (h a hb)).mpr (hi hb)
      rwa [hign.acked]
    · -- the number is zero, or not above something that was sent
      rw [hnew]
      simp only [Beyond, not_and, not_forall, not_lt] at hb
      by_cases hpos : 0 < a
      · rcases hb hpos with ⟨x, hx, hchg, hrsp, hle⟩
        have hlt := ha'.2 x (hwire x hx) hchg hrsp
        rw [UInt32.lt_iff_toNat_lt]
        omega
      · have hzero : a = 0 := by
          by_contra hne
          exact hpos (UInt32.pos_iff_ne_zero.mpr hne)
        rw [hzero]
        exact ha'.1

theorem Backed.apply (h : Backed c) {k : Crypto} {e : ConnEvent} (he : e.IgnoresUnsent c) : Backed (e.apply k c) := by
  by_cases hbatch : ∃ p, e = .own (.batch p)
  · rcases hbatch with ⟨p, rfl⟩
    have hack : Backed (c.processACK p.ack) := by
      cases hp : p.ack with
      | none => exact h
      | some aw =>
        simp only [processACK]
        split_ifs with hs
        · exact h.handleACKPacket (he hs aw.1 aw.2 hp)
        · exact h
    exact hack.of_same (.of_acts (.processData _ p.pkts) (by decide))
  · exact h.of_same (.apply fun p hp => hbatch ⟨p, hp⟩)

end Ack

/-! ## Runs -/

section Runs
variable {k : Crypto} {c₀ s : DtpContext} {a : UInt32} {w : UInt16}

theorem backed_of_reachable (h₀ : c₀.lastByteAcked = 0)
    (hs : ((connection k c₀).restrict ConnEvent.IgnoresUnsent).Reachable s) : Backed s := by
  refine Machine.Reachable.invariant (P := Backed) ?_ ?_ hs
  · intro t ht a ha
    rw [show t = c₀ from ht, h₀]
    exact ha.1
  · intro t e ht he
    exact ht.apply he.2

/-- **When an ACK for data never sent is ignored.**  In every run in which the ACKs for data that was
never sent meet the condition, such an ACK leaves the sending side alone exactly when it meets it:
the context is disconnected, or the ACK comes with the first window after a zero one and
`DTPWriteAvail` then has nothing to send. -/
theorem unsent_ack_ignored_iff (h₀ : c₀.lastByteAcked = 0)
    (hs : ((connection k c₀).restrict ConnEvent.IgnoresUnsent).Reachable s) (ha : s.Beyond a) :
    Ignored s (s.handleACKPacket a w) ↔ s.ignores w = true :=
  ignored_iff (backed_of_reachable h₀ hs a ha)

instance (c : DtpContext) (a : UInt32) : Decidable (c.Beyond a) := inferInstanceAs (Decidable (_ ∧ _))

/-- Three bytes are sent, and the first is acknowledged with a window of zero. -/
def closedByPeer : List ConnEvent :=
  [.own (.send [1, 2, 3]), .own (.batch ⟨some (1, 0), []⟩)]

theorem unsent_ack_ignored_iff_reopening :
    ∃ s, ((connection sampleCrypto sampleSender).restrict ConnEvent.IgnoresUnsent).Reachable s ∧
      s.Beyond 100 ∧ Ignored s (s.handleACKPacket 100 10) := by
  have hinit : ((connection sampleCrypto sampleSender).restrict ConnEvent.IgnoresUnsent).init
      sampleSender := rfl
  have hadm : ((connection sampleCrypto sampleSender).restrict ConnEvent.IgnoresUnsent).Admits
      sampleSender closedByPeer := by
    refine ⟨⟨trivial, trivial⟩, ⟨⟨?_, ?_⟩, ?_⟩, trivial⟩
    · decide +kernel
    · decide +kernel
    · intro _ a w haw hb
      have hone : a = 1 := by simpa using (congrArg (Option.map Prod.fst) haw).symm
      rw [hone] at hb
      exact absurd hb (by decide +kernel)
  have hrun := Machine.Reachable.run (.init hinit) hadm
  have hbeyond : (Machine.run ((connection sampleCrypto sampleSender).restrict ConnEvent.IgnoresUnsent)
      sampleSender closedByPeer).Beyond 100 := by decide +kernel
  exact ⟨_, hrun, hbeyond, (unsent_ack_ignored_iff rfl hrun hbeyond).mpr (by decide +kernel)⟩

/-- An ACK for byte 100 of a stream of three bytes is recorded, and ten bytes that nobody has
written follow it out. -/
theorem unsent_ack_recorded :
    ∃ s, (connection sampleCrypto sampleSender).Reachable s ∧ s.Beyond 100 ∧ ¬Ignored s (s.handleACKPacket 100 10) ∧
      ∃ x ∈ (s.handleACKPacket 100 10).wire, x.2.hdr.seq = 100 ∧ x.2.payload.length = 10 := by
  have hinit : (connection sampleCrypto sampleSender).init sampleSender := rfl
  have hallowed : (connection sampleCrypto sampleSender).allowed sampleSender
      (.own (.send [1, 2, 3])) := trivial
  have hrun := Machine.Reachable.step (.init hinit) hallowed
  refine ⟨_, hrun, by decide +kernel, fun h => ?_, by decide +kernel⟩
  have hacked := h.acked
  revert hacked
  decide +kernel

end Runs

end Cedos.Dtp
