import Cedos.Dtp.AckFrames
import Cedos.Dtp.Reassembly
import Mathlib.Data.List.TakeWhile

/-!
# What is acknowledged has arrived

`GetAckNumber` is `tc_nextByteExpected`, and one more once `tc_isFINRcvd` is set. The
first part is the end of the contiguous run of received bytes. The second is right only
if the FIN that set the flag was the next thing expected, which `HandleFINPacket` checks
in `ESTABLISHED` but not in `FIN_WAIT_1` and `FIN_WAIT_2`: there it looks at the
acknowledgement number of the FIN. A FIN that overtakes data then makes every later
acknowledgement one too high.

`HandleACKPacket` has a second way: an old ACK number that arrives while
`tc_lastByteAcked` is within one packet of `2 ^ 32` moves `tc_nextByteExpected` forward.
-/

namespace Cedos.Dtp

/-! ## The receive side -/

/-- Every position from `start` on that is read or present has arrived. -/
def Known (start : ℕ) (A : ℕ → Prop) (r : RecvSide) : Prop :=
  ∀ i, start ≤ i → i < r.lastByteRead.toNat ∨ Covers r.runs i → A i

/-- Everything from `start` up to `n` has arrived. -/
def Reaches (start : ℕ) (A : ℕ → Prop) (n : ℕ) : Prop := ∀ i, start ≤ i → i < n → A i

section Known
variable {S : ℕ → UInt8} {start : ℕ} {A : ℕ → Prop} {c : DtpContext}

theorem Reassembled.reaches {r : RecvSide} (h : Reassembled S r) (hk : Known start A r) :
    Reaches start A r.nextByteExpected.toNat := by
  intro i hi hlt
  by_cases hread : i < r.lastByteRead.toNat
  · exact hk i hi (Or.inl hread)
  · exact hk i hi (Or.inr (h.expected.covered i (not_lt.mp hread) hlt))

/-- A data packet, with all its bytes known to have arrived. -/
theorem Known.handleNormalPacket {d : Datagram} {bodyLen : UInt32} (hk : Known start A c.toRecvSide)
    (h : Reassembled S c.toRecvSide)
    (hd : d.hdr.seq.toNat + bodyLen.toNat + c.readBufLen.toNat < 2147483648)
    (hack : c.isACKInserted = false)
    (hA : ∀ i, d.hdr.seq.toNat ≤ i → i < d.hdr.seq.toNat + bodyLen.toNat → A i) :
    Known start A (c.handleNormalPacket d bodyLen).1.toRecvSide ∧
      c.nextByteExpected.toNat ≤ (c.handleNormalPacket d bodyLen).1.nextByteExpected.toNat := by
  obtain heq | ⟨-, heq | ⟨hpos, heq⟩⟩ := handleNormalPacket_cases d bodyLen hack
  · rw [heq]
    exact ⟨hk, le_rfl⟩
  · rw [heq]
    exact ⟨hk, le_rfl⟩
  · obtain ⟨hcov, hle⟩ := Reassembled.covers_storeSegment (c := c.noteSegment d.hdr) h hd hpos
    rw [heq]
    refine ⟨?_, hle⟩
    intro i hi hin
    obtain hread | hpresent := hin
    · exact hk i hi (Or.inl hread)
    · obtain hnew | hold := hcov i hpresent
      · exact hA i hnew.1 hnew.2
      · exact hk i hi (Or.inr hold)

theorem Known.consume (hk : Known start A c.toRecvSide) (h : Reassembled S c.toRecvSide) {n : ℕ} (hpos : 0 < n)
    (hn : c.lastByteRead.toNat + n ≤ c.nextByteExpected.toNat) : Reassembled S (c.consume n).toRecvSide ∧
    Known start A (c.consume n).toRecvSide ∧ (c.consume n).nextByteExpected = c.nextByteExpected := by
  obtain ⟨hinv, -, hread, -⟩ := h.consumeBytes hpos hn
  obtain ⟨hcov, hnext⟩ := h.covers_consume hpos hn
  refine ⟨hinv, ?_, hnext⟩
  intro i hi hin
  obtain hlt | hpresent := hin
  · rw [hread] at hlt
    by_cases hold : i < c.lastByteRead.toNat
    · exact hk i hi (Or.inl hold)
    · exact hk i hi (Or.inr (h.expected.covered i (not_lt.mp hold) (lt_of_lt_of_le hlt hn)))
  · exact hk i hi (Or.inr (hcov i hpresent))

/-- Reading, in whatever state, takes bytes off the front or leaves the receive side. -/
theorem Known.recvBody (hk : Known start A c.toRecvSide) (h : Reassembled S c.toRecvSide) (length : ℕ)
    (msgPeek woken : Bool) : Reassembled S (c.recvBody length msgPeek woken).1.toRecvSide ∧
    Known start A (c.recvBody length msgPeek woken).1.toRecvSide ∧
    (c.recvBody length msgPeek woken).1.nextByteExpected = c.nextByteExpected := by
  have hsize : c.getReadBufDataSize = (c.nextByteExpected.toNat : ℤ) - c.lastByteRead.toNat :=
    h.dataSize
  have hle : c.lastByteRead.toNat ≤ c.nextByteExpected.toNat := h.expected.le
  simp only [DtpContext.recvBody]
  split_ifs with h0 h1 h2 h3 h4
  · exact ⟨h, hk, rfl⟩
  · exact ⟨h, hk, rfl⟩
  · exact ⟨h, hk, rfl⟩
  · exact ⟨h, hk, rfl⟩
  · have hmin : minSize length c.getReadBufDataSize ≤ c.getReadBufDataSize :=
      (minSize_le (k := length) (by omega)).1
    obtain ⟨n, hn⟩ : ∃ n : ℕ, minSize length c.getReadBufDataSize = n :=
      ⟨(minSize length c.getReadBufDataSize).toNat, by omega⟩
    rw [hn] at h3 hmin ⊢
    have hread : ∀ c' : DtpContext, c'.toRecvSide = c.toRecvSide →
        Reassembled S (c'.consume n).toRecvSide ∧ Known start A (c'.consume n).toRecvSide ∧
          (c'.consume n).nextByteExpected = c'.nextByteExpected := by
      intro c' hc
      refine Known.consume (c := c') (hc ▸ hk) (hc ▸ h) (by omega) ?_
      have hlast : c'.lastByteRead = c.lastByteRead := congrArg RecvSide.lastByteRead hc
      have hnext : c'.nextByteExpected = c.nextByteExpected :=
        congrArg RecvSide.nextByteExpected hc
      rw [hlast, hnext]
      omega
    exact hread _ rfl
  · exact ⟨h, hk, rfl⟩

end Known

/-! ## The invariant -/

/-- The acknowledgement number `a` covers only what has arrived of a stream of length `L`;
it counts the FIN if that has arrived. -/
def Ackable (start L : ℕ) (A : ℕ → Prop) (F : Prop) (a : UInt32) : Prop :=
  Reaches start A a.toNat ∨ (F ∧ a.toNat = L + 1 ∧ Reaches start A L)

/-- Every number that has been sent, or can be, is right. -/
structure AckSound (S : ℕ → UInt8) (start L : ℕ) (A : ℕ → Prop) (F : Prop) (c : DtpContext) :
    Prop where
  wire : ∀ x ∈ c.wire, Ackable start L A F x.2.hdr.ackSeq
  queue : ∀ p ∈ c.packetQ, Ackable start L A F p.header.hdr.ackSeq
  reaches : Reaches start A c.nextByteExpected.toNat
  fin : c.isFINRcvd = true → F ∧ c.nextByteExpected.toNat = L
  heardFIN : c.state.heardFIN = true → c.isFINRcvd = true
  opened : c.state.isOpening = false
  connected : c.isNetConnected = true
  ackInserted : c.isACKInserted = false
  rcvLoBuf : c.rcvLoBufHB = 0
  held : c.isActive = true → Reassembled S c.toRecvSide ∧ Known start A c.toRecvSide

section Invariant
variable {S : ℕ → UInt8} {start L : ℕ} {A A' : ℕ → Prop} {F F' : Prop} {c c' : DtpContext}

theorem Reaches.mono {n : ℕ} (h : Reaches start A n) (hA : ∀ i, A i → A' i) :
    Reaches start A' n := fun i h0 h1 => hA i (h i h0 h1)

theorem Ackable.mono {a : UInt32} (h : Ackable start L A F a) (hA : ∀ i, A i → A' i)
    (hF : F → F') : Ackable start L A' F' a := by
  obtain hr | ⟨hf, heq, hr⟩ := h
  · exact Or.inl (hr.mono hA)
  · exact Or.inr ⟨hF hf, heq, hr.mono hA⟩

namespace AckSound

variable (h : AckSound S start L A F c)
include h

theorem mono (hA : ∀ i, A i → A' i) (hF : F → F') :
    AckSound S start L A' F' c where
  wire x hx := (h.wire x hx).mono hA hF
  queue p hp := (h.queue p hp).mono hA hF
  reaches := h.reaches.mono hA
  fin hf := ⟨hF (h.fin hf).1, (h.fin hf).2⟩
  heardFIN := h.heardFIN
  opened := h.opened
  connected := h.connected
  ackInserted := h.ackInserted
  rcvLoBuf := h.rcvLoBuf
  held ha := ⟨(h.held ha).1, fun i hi hin => hA i ((h.held ha).2 i hi hin)⟩

/-- Whatever the context can send now is right. -/
theorem ackable {a : UInt32} (ha : AckFrom c a) : Ackable start L A F a := by
  obtain rfl | rfl | rfl | ⟨p, hp, rfl⟩ := ha
  · exact Or.inl fun i _ hlt => absurd hlt (Nat.not_lt_zero i)
  · exact Or.inl h.reaches
  · rw [DtpContext.getAckNumber]
    cases hf : c.isFINRcvd with
    | false => simpa [Ackable] using Or.inl h.reaches
    | true =>
      obtain ⟨hF, hL⟩ := h.fin hf
      simp only [if_true]
      have h1 : (1 : UInt32).toNat = 1 := rfl
      by_cases hwrap : c.nextByteExpected.toNat + 1 < 4294967296
      · refine Or.inr ⟨hF, ?_, hL ▸ h.reaches⟩
        rw [toNat_add_word (by omega), hL, h1]
      · -- the number after the last one is `0`
        have hlt := toNat_lt_word c.nextByteExpected
        have hzero : (c.nextByteExpected + 1).toNat = 0 := by
          rw [UInt32.toNat_add, h1]
          omega
        refine Or.inl fun i _ hi => ?_
        rw [hzero] at hi
        exact absurd hi (Nat.not_lt_zero i)
  · exact h.queue p hp

theorem of_only (ho : AckOnly c c') : AckSound S start L A F c' where
  wire x hx := by
    cases ho.wire x hx with
    | inl hmem => exact h.wire x hmem
    | inr ha => exact h.ackable ha
  queue p hp := h.ackable (ho.queue p hp)
  reaches := ho.next ▸ h.reaches
  fin hf := by
    rw [ho.next]
    exact h.fin (ho.finRcvd ▸ hf)
  heardFIN hs := ho.finRcvd ▸ h.heardFIN (ho.heardFIN hs)
  opened := by
    cases hs : c'.state.isOpening with
    | false => rfl
    | true => exact absurd (h.opened.symm.trans (ho.opening hs)) Bool.false_ne_true
  connected := (congrArg Liveness.isNetConnected ho.liveness).trans h.connected
  ackInserted := (congrArg Liveness.isACKInserted ho.liveness).trans h.ackInserted
  rcvLoBuf := ho.rcvLoBuf.trans h.rcvLoBuf
  held ha := by
    obtain ⟨hact, hr⟩ := ho.recvSide ha
    rw [hr]
    exact h.held hact

theorem ne_synSent : c.state ≠ .synSent := by
  intro hs
  have ho := h.opened
  rw [hs] at ho
  exact absurd ho (by decide)

theorem of_received (hf : RecvFrame c c')
    (hw : ∀ x ∈ c'.wire, x ∈ c.wire ∨ AckFrom c x.2.hdr.ackSeq)
    (hr : Reassembled S c'.toRecvSide) (hk : Known start A c'.toRecvSide)
    (hle : c.nextByteExpected.toNat ≤ c'.nextByteExpected.toNat) (hA : ∀ i, A i → i < L)
    (hstart : start ≤ L) : AckSound S start L A F c' where
  wire x hx := by
    cases hw x hx with
    | inl hmem => exact h.wire x hmem
    | inr ha => exact h.ackable ha
  queue p hp := by
    rw [hf.packetQ] at hp
    exact h.queue p hp
  reaches := hr.reaches hk
  fin hfin := by
    rw [congrArg Lifecycle.isFINRcvd hf.lifecycle] at hfin
    obtain ⟨hF, hL⟩ := h.fin hfin
    refine ⟨hF, le_antisymm ?_ (hL ▸ hle)⟩
    by_contra hlt
    exact absurd (hA L (hr.reaches hk L hstart (not_le.mp hlt))) (lt_irrefl L)
  heardFIN hs := by
    rw [hf.state] at hs
    exact (congrArg Lifecycle.isFINRcvd hf.lifecycle).trans (h.heardFIN hs)
  opened := by
    rw [hf.state]
    exact h.opened
  connected := (congrArg Liveness.isNetConnected hf.liveness).trans h.connected
  ackInserted := hf.isACKInserted.trans h.ackInserted
  rcvLoBuf := hf.rcvLoBuf.trans h.rcvLoBuf
  held _ := ⟨hr, hk⟩

/-! ### Receiving -/

theorem handleNormalPacket (hact : c.isActive = true) {d : Datagram}
    {bodyLen : UInt32} (hS : SegmentOf S d bodyLen)
    (hd : d.hdr.seq.toNat + bodyLen.toNat + c.readBufLen.toNat < 2147483648)
    (hnew : ∀ i, d.hdr.seq.toNat ≤ i → i < d.hdr.seq.toNat + bodyLen.toNat → A i)
    (hA : ∀ i, A i → i < L) (hstart : start ≤ L) :
    AckSound S start L A F (c.handleNormalPacket d bodyLen).1 := by
  obtain ⟨hr, hk⟩ := h.held hact
  obtain ⟨hk', hle⟩ := hk.handleNormalPacket hr hd h.ackInserted hnew
  have hr' := (hr.handleNormalPacket hS hd h.ackInserted).1
  refine h.of_received (.handleNormalPacket d bodyLen h.ackInserted) ?_ hr' hk' hle hA hstart
  intro x hx
  obtain heq | ⟨-, heq | ⟨-, heq⟩⟩ := handleNormalPacket_cases d bodyLen h.ackInserted
  · exact Or.inl (heq ▸ hx)
  · rw [heq] at hx
    exact Or.inl hx
  · rw [heq] at hx
    exact Or.inl hx

end AckSound
end Invariant

/-! ## What the peer sends -/

/-- The datagram carries the byte `i` of the stream. -/
def Datagram.Brings (d : Datagram) (i : ℕ) : Prop :=
  d.hdr.seq.toNat ≤ i ∧ i < d.hdr.seq.toNat + (getPayloadLen d).toNat

/-- A data packet of the stream `S` of length `L`. -/
def Datagram.PartOf (S : ℕ → UInt8) (L : ℕ) (d : Datagram) : Prop :=
  0 < getPayloadLen d → SegmentOf S d (u32 (getPayloadLen d)) ∧ d.hdr.seq.toNat + (getPayloadLen d).toNat ≤ L

/-- Its numbers are far enough below `2 ^ 31`, with the read buffer of `c` added. -/
def Datagram.FitsIn (c : DtpContext) (d : Datagram) : Prop :=
  0 < getPayloadLen d → d.hdr.seq.toNat + (getPayloadLen d).toNat + c.readBufLen.toNat < 2147483648

/-- A FIN that `HandleFINPacket` accepts in `FIN_WAIT_1` or `FIN_WAIT_2` is the next thing
expected. -/
def DtpContext.FinInOrder (c : DtpContext) (hd : DtpHdr) : Prop :=
  c.inFinWait = true → hd.ackSeq = c.lastByteWritten ∨ c.nearbyAck hd.ackSeq = true → hd.seq = c.nextByteExpected

section Batch
variable {S : ℕ → UInt8} {start L : ℕ} {A : ℕ → Prop} {F : Prop} {c : DtpContext}

namespace AckSound

theorem processPacket (h : AckSound S start L A F c) {d : Datagram} (hS : d.PartOf S L)
    (hd : d.FitsIn c) (hact : 0 < getPayloadLen d → c.isActive = true)
    (hnew : ∀ i, d.Brings i → A i) (hA : ∀ i, A i → i < L) (hstart : start ≤ L) :
    AckSound S start L A F (c.processPacket d) := by
  simp only [DtpContext.processPacket]
  split_ifs with hpos
  · have hfit := hd hpos
    have hlen : (u32 (getPayloadLen d)).toNat = (getPayloadLen d).toNat :=
      toNat_u32 (by omega) (by omega)
    refine h.handleNormalPacket (hact hpos) (hS hpos).1 (by omega) ?_ hA hstart
    intro i h0 h1
    exact hnew i ⟨h0, by omega⟩
  · exact h.of_only (.dtpSendACKPacket c)
  · exact h

theorem foldl (h : AckSound S start L A F c) {ds : List Datagram} (hS : ∀ d ∈ ds, d.PartOf S L)
    (hd : ∀ d ∈ ds, d.FitsIn c) (hact : ∀ d ∈ ds, 0 < getPayloadLen d → c.isActive = true)
    (hnew : ∀ d ∈ ds, ∀ i, d.Brings i → A i) (hA : ∀ i, A i → i < L) (hstart : start ≤ L) :
    AckSound S start L A F (ds.foldl DtpContext.processPacket c) := by
  induction ds generalizing c with
  | nil => exact h
  | cons d ds ih =>
    have hone := h.processPacket (hS d (by simp)) (hd d (by simp)) (hact d (by simp))
      (hnew d (by simp)) hA hstart
    have hframe := RecvFrame.processPacket h.ackInserted d
    have hsame : (c.processPacket d).isActive = c.isActive :=
      congrArg Lifecycle.isActive hframe.lifecycle
    refine ih hone (fun x hx => hS x (List.mem_cons_of_mem d hx)) ?_ ?_
      (fun x hx => hnew x (List.mem_cons_of_mem d hx))
    · intro x hx hpos
      have hfit := hd x (List.mem_cons_of_mem d hx) hpos
      rw [hframe.readBufLen]
      exact hfit
    · intro x hx hpos
      rw [hsame]
      exact hact x (List.mem_cons_of_mem d hx) hpos

theorem processData (h : AckSound S start L A F c) {ds : List Datagram}
    (hS : ∀ d ∈ ds, d.PartOf S L) (hd : ∀ d ∈ ds, d.FitsIn c)
    (hnew : ∀ d ∈ ds, ∀ i, d.Brings i → A i) (hA : ∀ i, A i → i < L) (hstart : start ≤ L) :
    AckSound S start L A F (c.processData ds) := by
  have hclear (c : DtpContext) : AckOnly c c.clearProbes := .of_view rfl (Or.inl rfl)
  have hanswer (c : DtpContext) : AckOnly c c.ackBatch.noteReadable := .of_acts (.answerBatch c)
  simp only [DtpContext.processData]
  split_ifs with hact
  · have hall := h.foldl hS hd (fun _ _ _ => hact) hnew hA hstart
    exact (hall.of_only (hclear _)).of_only (hanswer _)
  · have hall := h.foldl hS hd (fun _ _ _ => hact) hnew hA hstart
    exact hall.of_only (hclear _)
  all_goals
    -- a released context returns at the first data packet
    have hempty : ∀ d ∈ ds.takeWhile fun d => !DtpContext.hasData d, ¬0 < getPayloadLen d := by
      intro d hmem
      have hno := List.mem_takeWhile_imp hmem
      simpa [DtpContext.hasData] using hno
    have hsub : ∀ d ∈ ds.takeWhile fun d => !DtpContext.hasData d, d ∈ ds :=
      fun d hmem => List.Sublist.subset (List.takeWhile_sublist _) hmem
    have hall := h.foldl (fun d hmem => hS d (hsub d hmem)) (fun d hmem => hd d (hsub d hmem))
      (fun d hmem hpos => absurd hpos (hempty d hmem)) (fun d hmem => hnew d (hsub d hmem)) hA
      hstart
  · exact hall
  · exact hall.of_only (hclear _)

/-- The packets sent while reading carry the current number. -/
theorem wire_consume (c : DtpContext) (len : ℤ) :
    ∀ x ∈ (c.consume len).wire, x ∈ c.wire ∨ x.2.hdr.ackSeq = c.getAckNumber := by
  have hhead : ∀ c : DtpContext, (c.consumeHead len).wire = c.wire ∧
      (c.consumeHead len).getAckNumber = c.getAckNumber := by
    intro c
    simp only [DtpContext.consumeHead]
    split
    · exact ⟨rfl, rfl⟩
    · split_ifs <;> exact ⟨rfl, rfl⟩
  have hslide : ∀ c : DtpContext, (c.slideReadBuf len).wire = c.wire ∧
      (c.slideReadBuf len).getAckNumber = c.getAckNumber := by
    intro c
    simp only [DtpContext.slideReadBuf]
    split_ifs <;> exact ⟨rfl, rfl⟩
  have hdrain : ∀ c : DtpContext, c.noteDrained.wire = c.wire ∧ c.noteDrained.getAckNumber = c.getAckNumber := by
    intro c
    simp only [DtpContext.noteDrained]
    split_ifs <;> exact ⟨rfl, rfl⟩
  have hopen : ∀ c : DtpContext, ∀ x ∈ c.reopenWindow.wire, x ∈ c.wire ∨ x.2.hdr.ackSeq = c.getAckNumber := by
    intro c x hx
    simp only [DtpContext.reopenWindow] at hx
    split_ifs at hx
    · cases List.mem_append.mp hx with
      | inl hmem => exact Or.inl hmem
      | inr hmem =>
        rw [List.mem_singleton.mp hmem]
        exact Or.inr rfl
    · exact Or.inl hx
  intro x hx
  have hlast := hopen _ x hx
  rw [(hdrain _).1, (hdrain _).2, (hslide _).1, (hslide _).2, (hhead _).1, (hhead _).2] at hlast
  exact hlast

variable (h : AckSound S start L A F c)
include h

theorem recvBody (hact : c.isActive = true) (length : ℕ)
    (msgPeek woken : Bool) (hA : ∀ i, A i → i < L) (hstart : start ≤ L) :
    AckSound S start L A F (c.recvBody length msgPeek woken).1 := by
  obtain ⟨hr, hk⟩ := h.held hact
  obtain ⟨hr', hk', hnext⟩ := hk.recvBody hr length msgPeek woken
  refine h.of_received (.recvBody c length msgPeek woken) ?_ hr' hk' (hnext ▸ le_rfl) hA hstart
  intro x hx
  simp only [DtpContext.recvBody] at hx
  split_ifs at hx
  · exact Or.inl hx
  · exact Or.inl hx
  · exact Or.inl hx
  · exact Or.inl hx
  · exact (wire_consume _ _ x hx).imp_right fun heq => Or.inr (Or.inr (Or.inl heq))
  · exact Or.inl hx

theorem dtpRecv (hact : c.isActive = true) (length : ℕ)
    (msgPeek : Bool) (hA : ∀ i, A i → i < L) (hstart : start ≤ L) :
    AckSound S start L A F (c.dtpRecv length msgPeek).1 := by
  simp only [DtpContext.dtpRecv]
  split_ifs
  · exact h
  · exact h
  · exact h
  · exact h
  · exact h.recvBody hact length msgPeek false hA hstart

theorem dtpRecvWake (hact : c.isActive = true) (length : ℕ)
    (msgPeek : Bool) (hA : ∀ i, A i → i < L) (hstart : start ≤ L) :
    AckSound S start L A F (c.dtpRecvWake length msgPeek).1 := by
  have hwoken : AckSound S start L A F { c with isReadBlocked := false } :=
    h.of_only (.of_view rfl (Or.inl rfl))
  simp only [DtpContext.dtpRecvWake]
  split_ifs
  · exact hwoken
  · exact hwoken
  · exact hwoken.recvBody hact length msgPeek true hA hstart

/-! ## The peer's FIN -/

theorem noteFIN (hF : F) (hnext : c.isFINRcvd = true ∨ c.nextByteExpected.toNat = L) :
    AckSound S start L A F c.noteFIN where
  wire := h.wire
  queue := h.queue
  reaches := h.reaches
  fin _ := by
    cases hnext with
    | inl hf => exact h.fin hf
    | inr hL => exact ⟨hF, hL⟩
  heardFIN _ := rfl
  opened := by
    change (if c.state = .established then SockState.closeWait else c.state).isOpening = false
    split_ifs
    · rfl
    · exact h.opened
  connected := h.connected
  ackInserted := h.ackInserted
  rcvLoBuf := h.rcvLoBuf
  held := h.held

theorem enterTimeWait (hs : c.inFinWait = true) (hf : c.isFINRcvd = true) : AckSound S start L A F c.enterTimeWait := by
  refine (Acts.enterTimeWait hs hf).invariant ?_ h
  have hmoved {x : DtpContext} (hx : AckSound S start L A F x) (hfin : x.isFINRcvd = true) :
      AckSound S start L A F { x with state := .timeWait } :=
    ⟨hx.wire, hx.queue, hx.reaches, hx.fin, fun _ => hfin, rfl, hx.connected, hx.ackInserted, hx.rcvLoBuf, hx.held⟩
  intro k hk x y ha hx
  cases ha with
  | note => exact hx.of_only (.of_view rfl (Or.inl rfl))
  | dropFirst _ hfin hq => exact (hmoved hx hfin).of_only (.dropPacket (l := []) hq)
  | timeWait _ hfin => exact hmoved hx hfin
  | _ => exact absurd hk (by decide)

theorem acceptFIN (hF : F) (hnext : c.isFINRcvd = true ∨ c.nextByteExpected.toNat = L) :
    AckSound S start L A F c.acceptFIN := by
  have hacked : AckSound S start L A F c.dtpSendACKPacket := h.of_only (.dtpSendACKPacket c)
  have hnoted := hacked.noteFIN hF hnext
  simp only [DtpContext.acceptFIN]
  split_ifs with _ hin
  · exact hnoted.of_only (.of_view rfl (Or.inl rfl))
  · exact hnoted.enterTimeWait hin rfl
  · exact hnoted

theorem handleFINPacket {hd : DtpHdr} (hF : F) (hL : hd.seq.toNat = L)
    (hord : c.FinInOrder hd) : AckSound S start L A F (c.handleFINPacket hd) := by
  have hchecked : AckSound S start L A F
      ((c.assert c.closeCalled).assert (hd.seq == c.nextByteExpected)) :=
    h.of_only (.of_view rfl (Or.inl rfl))
  have hat : hd.seq = c.nextByteExpected → c.nextByteExpected.toNat = L :=
    fun heq => heq ▸ hL
  simp only [DtpContext.handleFINPacket]
  split_ifs with hignore hother hnear hlate
  · exact h
  · exact h
  · rw [Bool.and_eq_true] at hother
    refine hchecked.acceptFIN hF (Or.inr (hat (hord hother.1 (Or.inr ?_))))
    simpa using hnear
  · exact h
  · refine h.acceptFIN hF ?_
    cases hs : c.state with
    | established =>
      refine Or.inr (hat ?_)
      by_contra hne
      exact hlate ⟨hs, hne⟩
    | finWait1 | finWait2 =>
      have hwait : c.inFinWait = true := by simp [DtpContext.inFinWait, hs]
      refine Or.inr (hat (hord hwait (Or.inl ?_)))
      by_contra hne
      exact hother (by simp [hwait, hne])
    | closeWait | lastAck | timeWait => exact Or.inl (h.heardFIN (by simp [hs, SockState.heardFIN]))
    | closed | listen | synRcvd | synSent => simp [DtpContext.ignoresFIN, hs] at hignore

end AckSound
end Batch

/-! ## Runs -/

/-- A context with the datagrams and the FINs that have reached it. -/
structure Acking where
  ctx : DtpContext
  got : List Datagram
  fins : List DtpHdr

def Event.datagrams : Event → List Datagram
  | .batch p => p.pkts
  | _ => []

def Event.finHeaders : Event → List DtpHdr
  | .fin hd => [hd]
  | _ => []

namespace Acking

/-- The byte `i` of the peer's stream has arrived. -/
def Arrived (s : Acking) (i : ℕ) : Prop := ∃ d ∈ s.got, d.Brings i

/-- The number `a` is not above the end of the contiguous part, from `start` on, of what has
arrived; or it is one above the end `e`, and a FIN with the number `e` has arrived. -/
def MayAck (s : Acking) (start : ℕ) (a : UInt32) : Prop :=
  Reaches start s.Arrived a.toNat ∨ ∃ hd ∈ s.fins, a.toNat = hd.seq.toNat + 1 ∧ Reaches start s.Arrived hd.seq.toNat

end Acking

/-- The peer sends parts of its stream `S` of length `L`, and a FIN at its end. -/
def PeerSends (S : ℕ → UInt8) (L : ℕ) : Event → Prop
  | .batch p => ∀ d ∈ p.pkts, d.PartOf S L
  | .fin hd => hd.seq.toNat = L
  | _ => True

/-- A context `c₀` that receives the stream `S` of length `L` while everything else goes on.
A released context takes part in nothing any more. -/
def ackReceiver (k : Crypto) (S : ℕ → UInt8) (L : ℕ) (c₀ : DtpContext) : Machine Acking Event where
  init s := s = ⟨c₀, [], []⟩
  allowed s e := s.ctx.isActive = true ∧ e.offered s.ctx ∧ PeerSends S L e
  apply s e := ⟨e.apply k s.ctx, s.got ++ e.datagrams, s.fins ++ e.finHeaders⟩

/-- The FIN is in order, no old ACK is taken for a wrap-around, and the numbers of the data
stay below `2 ^ 31`. -/
def InOrder (c : DtpContext) : Event → Prop
  | .batch p => (∀ d ∈ p.pkts, d.FitsIn c) ∧ ∀ ackNum window, p.ack = some (ackNum, window) →
      ackNum < c.lastByteAcked → ¬c.lastByteAcked + 1472 < c.lastByteAcked
  | .fin hd => c.FinInOrder hd
  | _ => True

/-- A context that has just become `ESTABLISHED`, before the end of the peer's stream. -/
structure FreshAcks (L : ℕ) (c : DtpContext) : Prop extends FreshReceiver c where
  active : c.isActive = true
  start_le : c.nextByteExpected.toNat ≤ L
  finRcvd : c.isFINRcvd = false
  netConnected : c.isNetConnected = true
  rcvLoBuf : c.rcvLoBufHB = 0
  wire : ∀ x ∈ c.wire, x.2.hdr.ackSeq ≤ c.nextByteExpected
  queue : ∀ p ∈ c.packetQ, p.header.hdr.ackSeq ≤ c.nextByteExpected

section Runs
variable {k : Crypto} {S : ℕ → UInt8} {start L : ℕ} {A : ℕ → Prop} {F : Prop} {c c₀ : DtpContext}

theorem FreshAcks.ackSound (h : FreshAcks L c) : AckSound S c.nextByteExpected.toNat L A F c := by
  have hreach : ∀ a : UInt32, a ≤ c.nextByteExpected → Ackable c.nextByteExpected.toNat L A F a := by
    intro a ha
    rw [UInt32.le_iff_toNat_le] at ha
    exact Or.inl fun i h0 h1 => absurd (lt_of_lt_of_le h1 ha) (not_lt.mpr h0)
  have hruns : c.toRecvSide.runs = [] := by simp [RecvSide.runs, h.list]
  refine ⟨fun x hx => hreach _ (h.wire x hx), fun p hp => hreach _ (h.queue p hp), ?_, ?_, ?_, ?_,
    h.netConnected, h.connected, h.rcvLoBuf, ?_⟩
  · exact fun i h0 h1 => absurd h1 (not_lt.mpr h0)
  · exact fun hf => absurd (h.finRcvd.symm.trans hf) Bool.false_ne_true
  · intro hs
    rw [h.state] at hs
    exact absurd hs (by decide)
  · rw [h.state]
    rfl
  · intro _
    refine ⟨(h.readInv S).reassembled, ?_⟩
    intro i hi hin
    rw [hruns] at hin
    obtain hlt | hc := hin
    · have hexp := congrArg UInt32.toNat h.expected
      omega
    · exact absurd hc (not_covers_nil i)

/-- The events that leave the receiving side alone. -/
def Event.sends : Event → Bool
  | .recv _ _ | .recvWake _ _ | .batch _ | .fin _ => false
  | _ => true

theorem AckSound.only (h : AckSound S start L A F c) {e : Event} (he : e.sends = true) : AckOnly c (e.apply k c) := by
  cases e with
  | recv | recvWake | batch | fin => exact absurd he Bool.false_ne_true
  | synAck d addr hid =>
    simp only [Event.apply]
    split
    · rename_i r hr
      rcases handleSYNACKPacket_cases hr with ⟨-, rfl⟩ | ⟨hs, -⟩ | ⟨hs, -⟩
      · exact .dtpSendACKPacket c
      · exact absurd hs h.ne_synSent
      · exact absurd hs h.ne_synSent
    · exact .refl c
  | rst d hid fid =>
    simp only [Event.apply]
    split
    · rename_i r hr
      exact .of_acts (.handleRSTPacket_opened h.ne_synSent hr)
    · exact .refl c
  | _ =>
    refine .of_acts (.apply k c _) ?_ (fun _ => h.connected) (fun _ => h.rcvLoBuf) fun _ => h.ackInserted
    simp only [Event.kinds]
    decide

theorem AckSound.processACK (h : AckSound S start L A F c) {p : AdjPktInfo} (hord : InOrder c (.batch p)) :
    AckOnly c (c.processACK p.ack) := by
  cases hpa : p.ack with
  | none => exact .refl c
  | some aw =>
    simp only [DtpContext.processACK]
    split_ifs
    · exact .handleACKPacket h.connected aw.2 (hord.2 aw.1 aw.2 hpa)
    · exact .refl c

/-- One event, with everything it brings known to have arrived. -/
theorem AckSound.apply (h : AckSound S start L A F c) (hact : c.isActive = true) {e : Event}
    (hp : PeerSends S L e) (hord : InOrder c e) (hnew : ∀ d ∈ e.datagrams, ∀ i, d.Brings i → A i)
    (hfin : ∀ hd ∈ e.finHeaders, F) (hA : ∀ i, A i → i < L) (hstart : start ≤ L) :
    AckSound S start L A F (e.apply k c) := by
  cases e with
  | recv length msgPeek => exact h.dtpRecv hact length msgPeek hA hstart
  | recvWake length msgPeek => exact h.dtpRecvWake hact length msgPeek hA hstart
  | batch p =>
    have hack := h.processACK hord
    refine (h.of_only hack).processData hp ?_ hnew hA hstart
    intro d hd hpos
    rw [hack.readBufLen]
    exact hord.1 d hd hpos
  | fin hd => exact h.handleFINPacket (hfin hd (by simp [Event.finHeaders])) hp hord
  | _ => exact h.of_only (h.only rfl)

/-- The runs all of whose steps are in order. -/
def inOrderReceiver (k : Crypto) (S : ℕ → UInt8) (L : ℕ) (c₀ : DtpContext) : Machine Acking Event :=
  (ackReceiver k S L c₀).restrict fun s e => InOrder s.ctx e

/-- What the machine keeps: the numbers are right, and what has arrived is the peer's. -/
def AckInv (S : ℕ → UInt8) (start L : ℕ) (s : Acking) : Prop :=
  AckSound S start L s.Arrived (∃ hd ∈ s.fins, hd.seq.toNat = L) s.ctx ∧ ∀ d ∈ s.got, d.PartOf S L

theorem AckInv.step {s : Acking} (h : AckInv S start L s) (hstart : start ≤ L) {e : Event}
    (he : (inOrderReceiver k S L c₀).allowed s e) : AckInv S start L ((inOrderReceiver k S L c₀).apply s e) := by
  obtain ⟨⟨hact, -, hp⟩, hord⟩ := he
  have hparts : ∀ d ∈ s.got ++ e.datagrams, d.PartOf S L := by
    intro d hd
    cases List.mem_append.mp hd with
    | inl hold => exact h.2 d hold
    | inr hnew =>
      cases e with
      | batch p => exact hp d hnew
      | _ => simp [Event.datagrams] at hnew
  refine ⟨?_, hparts⟩
  have hgrow : AckSound S start L (Acking.Arrived ⟨s.ctx, s.got ++ e.datagrams, []⟩)
      (∃ hd ∈ s.fins ++ e.finHeaders, hd.seq.toNat = L) s.ctx := by
    refine h.1.mono ?_ ?_
    · rintro i ⟨d, hd, hi⟩
      exact ⟨d, List.mem_append_left _ hd, hi⟩
    · rintro ⟨hd, hmem, heq⟩
      exact ⟨hd, List.mem_append_left _ hmem, heq⟩
  refine hgrow.apply hact hp hord ?_ ?_ ?_ hstart
  · intro d hd i hi
    exact ⟨d, List.mem_append_right _ hd, hi⟩
  · intro hd hmem
    refine ⟨hd, List.mem_append_right _ hmem, ?_⟩
    cases e with
    | fin hd' =>
      rw [List.mem_singleton.mp hmem]
      exact hp
    | _ => simp [Event.finHeaders] at hmem
  · rintro i ⟨d, hd, h0, h1⟩
    have hpart := hparts d hd (by omega)
    omega

/-- **ACK soundness.**  In every run of steps in order, every packet acknowledges only what
has arrived, with the FIN counted only when it is where the data ends; and so does the
number the next packet would carry. -/
theorem acks_arrived (h₀ : FreshAcks L c₀) {s : Acking}
    (hs : (inOrderReceiver k S L c₀).Reachable s) :
    (∀ x ∈ s.ctx.wire, s.MayAck c₀.nextByteExpected.toNat x.2.hdr.ackSeq) ∧
      s.MayAck c₀.nextByteExpected.toNat s.ctx.getAckNumber ∧
      s.MayAck c₀.nextByteExpected.toNat s.ctx.nextByteExpected := by
  have hinv : AckInv S c₀.nextByteExpected.toNat L s := by
    refine Machine.Reachable.invariant (P := AckInv S c₀.nextByteExpected.toNat L) ?_ ?_ hs
    · intro t ht
      obtain rfl : t = ⟨c₀, [], []⟩ := ht
      exact ⟨h₀.ackSound, fun d hd => absurd hd List.not_mem_nil⟩
    · intro t e ht he
      exact ht.step h₀.start_le he
  have hmay : ∀ a, Ackable c₀.nextByteExpected.toNat L s.Arrived
      (∃ hd ∈ s.fins, hd.seq.toNat = L) a → s.MayAck c₀.nextByteExpected.toNat a := by
    intro a ha
    obtain hr | ⟨⟨hd, hmem, hL⟩, heq, hr⟩ := ha
    · exact Or.inl hr
    · exact Or.inr ⟨hd, hmem, hL ▸ heq, hL ▸ hr⟩
  refine ⟨fun x hx => hmay _ (hinv.1.wire x hx), hmay _ (hinv.1.ackable ?_), hmay _ (hinv.1.ackable ?_)⟩
  · exact Or.inr (Or.inr (Or.inl rfl))
  · exact Or.inr (Or.inl rfl)

end Runs

/-- A fresh context that can also send. -/
def sampleAcker : DtpContext := { sampleReceiver with isNetConnected := true, writeBufLen := 8 }

/-- A FIN at the end of a stream of five bytes, with the acknowledgement number `ack`. -/
def sampleFIN (ack : UInt32) : DtpHdr :=
  { fin := true, fid := 0, seq := 5, ackSeq := ack, doff := 5, windowSize := 100 }

theorem sampleAcker_fresh : FreshAcks 5 sampleAcker where
  state := by decide
  list := by decide
  expected := by decide
  rcvd := by decide
  len_nonneg := by decide
  small := by decide
  connected := by decide
  fault := by decide
  active := by decide
  start_le := by decide
  finRcvd := by decide
  netConnected := by decide
  rcvLoBuf := by decide
  wire := by simp [sampleAcker, sampleReceiver]
  queue := by simp [sampleAcker, sampleReceiver]

/-- The second part, the first part, the FIN. -/
def tidyStream : List Event :=
  [.batch ⟨none, [sampleSegment 2 3]⟩, .batch ⟨none, [sampleSegment 0 2]⟩, .fin (sampleFIN 0)]

theorem acks_arrived_tidy :
    ∃ s, (inOrderReceiver sampleCrypto UInt8.ofNat 5 sampleAcker).Reachable s ∧
      s.ctx.getAckNumber = 6 ∧ s.MayAck 0 s.ctx.getAckNumber := by
  have hadm : (inOrderReceiver sampleCrypto UInt8.ofNat 5 sampleAcker).Admits
      ⟨sampleAcker, [], []⟩ tidyStream := by
    refine ⟨⟨⟨by decide, ⟨by decide, by decide⟩, ?_⟩, ?_, ?_⟩,
      ⟨⟨by decide +kernel, ⟨by decide +kernel, by decide +kernel⟩, ?_⟩, ?_, ?_⟩,
      ⟨⟨by decide +kernel, ?_, rfl⟩, ?_⟩, trivial⟩
    · intro d hd _
      obtain rfl := List.mem_singleton.mp hd
      exact ⟨fun i _ => rfl, by decide⟩
    · intro d hd _
      obtain rfl := List.mem_singleton.mp hd
      decide
    · rintro ackNum window ⟨⟩
    · intro d hd _
      obtain rfl := List.mem_singleton.mp hd
      exact ⟨fun i _ => rfl, by decide⟩
    · intro d hd _
      obtain rfl := List.mem_singleton.mp hd
      decide +kernel
    · rintro ackNum window ⟨⟩
    · change DtpContext.receives _ = true
      decide +kernel
    · intro hwait
      exact absurd hwait (by decide +kernel)
  have hrun := Machine.Reachable.run (.init rfl) hadm
  exact ⟨_, hrun, by decide +kernel, (acks_arrived sampleAcker_fresh hrun).2.1⟩

/-! ## A FIN that overtakes data -/

/-- The application closes. The peer's FIN, which acknowledges ours, arrives before the
five bytes sent ahead of it, and then the first three of those. -/
def earlyFIN : List Event :=
  [.close, .fin (sampleFIN 1), .batch ⟨none, [sampleSegment 0 3]⟩]

theorem early_fin_acks_missing_byte :
    FreshAcks 5 sampleAcker ∧ ∃ s, (ackReceiver sampleCrypto UInt8.ofNat 5 sampleAcker).Reachable s ∧
        ¬s.Arrived 3 ∧ ∃ x ∈ s.ctx.wire, x.2.hdr.ack = true ∧ x.2.hdr.ackSeq = 4 ∧ ¬s.MayAck 0 x.2.hdr.ackSeq := by
  have hadm : (ackReceiver sampleCrypto UInt8.ofNat 5 sampleAcker).Admits ⟨sampleAcker, [], []⟩
      earlyFIN := by
    refine ⟨⟨by decide, trivial, trivial⟩, ⟨by decide +kernel, ?_, rfl⟩,
      ⟨by decide +kernel, ⟨by decide +kernel, by decide +kernel⟩, ?_⟩, trivial⟩
    · change DtpContext.receives _ = true
      decide +kernel
    · intro d hd _
      obtain rfl := List.mem_singleton.mp hd
      exact ⟨fun i _ => rfl, by decide⟩
  refine ⟨sampleAcker_fresh, _, Machine.Reachable.run (.init rfl) hadm, ?_, ?_⟩
  · rintro ⟨d, hd, -, h1⟩
    obtain rfl := List.mem_singleton.mp hd
    exact absurd h1 (by decide)
  · have hwire : ∃ x ∈ ((ackReceiver sampleCrypto UInt8.ofNat 5 sampleAcker).run
        ⟨sampleAcker, [], []⟩ earlyFIN).ctx.wire, x.2.hdr.ack = true ∧ x.2.hdr.ackSeq = 4 := by
      decide +kernel
    obtain ⟨x, hx, hack, heq⟩ := hwire
    refine ⟨x, hx, hack, heq, ?_⟩
    rw [heq]
    rintro (hr | ⟨hd, hmem, hseq, -⟩)
    · obtain ⟨d, hd, -, h1⟩ := hr 3 (by decide) (by decide)
      obtain rfl := List.mem_singleton.mp hd
      exact absurd h1 (by decide)
    · obtain rfl := List.mem_singleton.mp hmem
      exact absurd hseq (by decide)

end Cedos.Dtp
