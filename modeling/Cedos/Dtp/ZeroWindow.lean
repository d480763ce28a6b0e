import Cedos.Dtp.AdvertisedWindow
import Cedos.Dtp.Reassembly

/-!
# A window that closes and opens again

`tc_isMyWindowZero` is set by `HandleNormalPacket` when the window it would announce is 0, and cleared by
`dtp_recv`, with an ACK, when it no longer is. In every interleaving of the two the flag says exactly that,
so the peer is told whenever it may go on.

The argument needs less than the reassembly does, and holds for all sequence numbers: the read offsets are in
order and no run of received bytes ends beyond the read buffer (`WindowFlag`). `tc_nextByteExpected` moves only
forward, to the end of such a run.
-/

namespace Cedos.Dtp

open DtpContext

/-! ## Where the runs end -/

theorem stop_union (a b c : UInt32) : (⟨a, max b c - a⟩ : Buffer).stop = b ∨ (⟨a, max b c - a⟩ : Buffer).stop = c := by
  have hstop : (⟨a, max b c - a⟩ : Buffer).stop = max b c := by
    rw [Buffer.stop, UInt32.add_comm, UInt32.sub_add_cancel]
  rw [hstop, ← UInt32.toNat_inj, ← UInt32.toNat_inj, toNat_max]
  exact max_choice _ _

/-- A union ends where one of the two does. -/
theorem stop_calculateOverlap {seq len : UInt32} {b u : Buffer} {n : ℤ}
    (h : calculateOverlap seq len b = some (u, n)) : u.stop = b.stop ∨ u.stop = seq + len := by
  simp only [calculateOverlap] at h
  split_ifs at h
  simp only [Option.some.injEq, Prod.mk.injEq] at h
  rw [← h.1]
  exact stop_union _ _ _

/-- The nodes of the list and the node that is carried along end by `B`. -/
structure EndsWithin (B : UInt32 → Prop) (w : Walk) (rest : List Buffer) : Prop where
  before : ∀ b ∈ w.before, B b.stop
  cur : B w.cur.stop
  rest : ∀ b ∈ rest, B b.stop

theorem EndsWithin.run {B : UInt32 → Prop} {w : Walk} {rest : List Buffer} (h : EndsWithin B w rest) :
    EndsWithin B (w.run rest).1 (w.run rest).2 := by
  induction rest generalizing w with
  | nil => exact h
  | cons temp rest ih =>
    have hrest : ∀ b ∈ rest, B b.stop := fun b hb => h.rest b (List.mem_cons_of_mem _ hb)
    have htemp : B temp.stop := h.rest temp List.mem_cons_self
    by_cases hstop : w.cur.stop < temp.seq
    · rw [Walk.run_stop hstop]
      exact h
    · cases hov : calculateOverlap w.cur.seq w.cur.len temp with
      | none =>
        have hbefore : ∀ b ∈ temp :: (if w.linked then w.cur :: w.before else w.before), B b.stop := by
          intro b hb
          cases List.mem_cons.mp hb with
          | inl heq => exact heq ▸ htemp
          | inr hmem =>
            split_ifs at hmem
            · cases List.mem_cons.mp hmem with
              | inl heq => exact heq ▸ h.cur
              | inr hin => exact h.before b hin
            · exact h.before b hmem
        rw [Walk.run, if_neg hstop]
        simp only [hov]
        exact ih ⟨hbefore, h.cur, hrest⟩
      | some r =>
        rw [Walk.run_absorb hstop hov]
        refine ih ⟨h.before, ?_, hrest⟩
        rcases stop_calculateOverlap hov with heq | heq
        · exact heq ▸ htemp
        · exact heq ▸ h.cur

/-- An insertion makes no new ends but that of the segment. -/
theorem stop_insertBuffer {B : UInt32 → Prop} {new : Buffer} {n : ℤ} {head : List Buffer} (hnew : B new.stop)
    (hhead : ∀ b ∈ head, B b.stop) : ∀ b ∈ (insertBuffer new n head).list, B b.stop := by
  have hw : EndsWithin B (Walk.run ⟨[], new, false, false, n, false⟩ head).1
      (Walk.run ⟨[], new, false, false, n, false⟩ head).2 := by
    refine EndsWithin.run ⟨?_, hnew, hhead⟩
    intro b hb
    cases hb
  generalize hr : Walk.run ⟨[], new, false, false, n, false⟩ head = r at hw
  have hbefore : ∀ b ∈ r.1.before.reverse, B b.stop := fun b hb => hw.before b (List.mem_reverse.mp hb)
  have hcons : ∀ b ∈ r.1.cur :: r.2, B b.stop := by
    intro b hb
    cases List.mem_cons.mp hb with
    | inl heq => exact heq ▸ hw.cur
    | inr hmem => exact hw.rest b hmem
  have happend : ∀ l, (∀ b ∈ l, B b.stop) → ∀ b ∈ r.1.before.reverse ++ l, B b.stop := by
    intro l hl b hb
    cases List.mem_append.mp hb with
    | inl hmem => exact hbefore b hmem
    | inr hmem => exact hl b hmem
  simp only [insertBuffer, hr]
  cases hm : r.1.merged with
  | true =>
    simp only [if_true]
    refine happend _ ?_
    split_ifs
    · exact hcons
    · exact hw.rest
  | false =>
    simp only [Bool.false_eq_true, if_false]
    cases head with
    | nil =>
      intro b hb
      exact List.mem_singleton.mp hb ▸ hw.cur
    | cons b₀ head =>
      dsimp only
      split_ifs
      · intro b hb
        cases List.mem_cons.mp hb with
        | inl heq => exact heq ▸ hw.cur
        | inr hmem => exact hhead b hmem
      · exact happend _ hcons

/-- Nor does reading. -/
theorem stop_dropFront {B : UInt32 → Prop} {n : UInt32} {head : List Buffer} (hhead : ∀ b ∈ head, B b.stop) :
    ∀ b ∈ dropFront n head, B b.stop := by
  cases head with
  | nil => exact hhead
  | cons b₀ head =>
    have htail : ∀ b ∈ head, B b.stop := fun b hb => hhead b (List.mem_cons_of_mem _ hb)
    rw [dropFront]
    split_ifs
    · exact htail
    · intro b hb
      cases List.mem_cons.mp hb with
      | inl heq =>
        have hstop : (⟨b₀.seq + n, b₀.len - n⟩ : Buffer).stop = b₀.stop := by
          rw [Buffer.stop, Buffer.stop, UInt32.add_assoc, UInt32.add_comm n, UInt32.sub_add_cancel]
        rw [heq, hstop]
        exact hhead b₀ List.mem_cons_self
      | inr hmem => exact htail b hmem

/-! ## The window and its flag -/

/-- The read offsets are in order, no run ends beyond the buffer, and the flag says whether the window is
closed. -/
structure WindowFlag (c : DtpContext) : Prop where
  scale : c.recvWindowScale ≤ maxWinscaleShift
  bufLen : c.readBufLen < 2147483648
  read_le : c.lastByteRead.toNat ≤ c.nextByteExpected.toNat
  room : (c.nextByteExpected.toNat : ℤ) ≤ c.lastByteRead.toNat + c.readBufLen
  runs : ∀ b ∈ c.readBufHead, (b.stop.toNat : ℤ) ≤ c.lastByteRead.toNat + c.readBufLen
  flag : c.isMyWindowZero = true ↔ c.advertisedWindow = 0

section Window
variable {c c' : DtpContext}

theorem dataSize_eq (hread : c.lastByteRead.toNat ≤ c.nextByteExpected.toNat)
    (hroom : (c.nextByteExpected.toNat : ℤ) ≤ c.lastByteRead.toNat + c.readBufLen) (hlen : c.readBufLen < 2147483648) :
    c.getReadBufDataSize = (c.nextByteExpected.toNat : ℤ) - c.lastByteRead.toNat :=
  i32_sub_near (by omega) (by omega)

theorem avail_eq (hread : c.lastByteRead.toNat ≤ c.nextByteExpected.toNat)
    (hroom : (c.nextByteExpected.toNat : ℤ) ≤ c.lastByteRead.toNat + c.readBufLen) (hlen : c.readBufLen < 2147483648) :
    (c.getAvailReadBufSize.toNat : ℤ) = c.readBufLen - ((c.nextByteExpected.toNat : ℤ) - c.lastByteRead.toNat) := by
  rw [getAvailReadBufSize, dataSize_eq hread hroom hlen, toNat_u32 (by omega) (by omega)]
  omega

/-- A window opens as the free space grows. -/
theorem advertisedWindow_mono (hs : c.recvWindowScale ≤ maxWinscaleShift)
    (hscale : c'.recvWindowScale = c.recvWindowScale) (h : c'.getAvailReadBufSize.toNat ≤ c.getAvailReadBufSize.toNat)
    (hzero : c.advertisedWindow = 0) : c'.advertisedWindow = 0 := by
  have hle : c'.advertisedWindow.toNat ≤ c.advertisedWindow.toNat := by
    rw [toNat_advertisedWindow hs, toNat_advertisedWindow (hscale.symm ▸ hs), hscale]
    exact Nat.div_le_div_right h
  rw [hzero] at hle
  exact UInt32.toNat_inj.mp (Nat.le_zero.mp hle)

/-! ## `HandleNormalPacket` -/

/-- The contiguous run grows, and only to the end of a run. -/
theorem expectedAfter_bounds {l : List Buffer} {e : UInt32} {n : ℤ} (he : (e.toNat : ℤ) ≤ n)
    (hl : ∀ b ∈ l, (b.stop.toNat : ℤ) ≤ n) :
    e.toNat ≤ (expectedAfter l e).toNat ∧ ((expectedAfter l e).toNat : ℤ) ≤ n := by
  cases l with
  | nil => exact ⟨le_rfl, he⟩
  | cons b l =>
    rw [expectedAfter]
    split_ifs with h
    · exact ⟨(UInt32.lt_iff_toNat_lt.mp h.2).le, hl b List.mem_cons_self⟩
    · exact ⟨le_rfl, he⟩

/-- A segment is cut at the end of the buffer, also where that has wrapped around. -/
theorem segmentEnd_le (hlen : 0 ≤ c.readBufLen) (seq bodyLen : UInt32) :
    ((c.segmentEnd seq bodyLen).toNat : ℤ) ≤ c.lastByteRead.toNat + c.readBufLen := by
  have hmin : (c.segmentEnd seq bodyLen).toNat ≤ (c.lastByteRead + u32 c.readBufLen).toNat := by
    rw [segmentEnd, toNat_min]
    exact Nat.min_le_left _ _
  have hadd : (c.lastByteRead + u32 c.readBufLen).toNat ≤ c.lastByteRead.toNat + c.readBufLen.toNat := by
    rw [UInt32.toNat_add]
    refine (Nat.mod_le _ _).trans (Nat.add_le_add_left ?_ _)
    rw [u32, UInt32.toNat_ofNat']
    omega
  omega

theorem WindowFlag.storeSegment (h : WindowFlag c) (d : Datagram) (bodyLen : UInt32) :
    WindowFlag (c.storeSegment d bodyLen).1 := by
  have hread := h.read_le
  have hroom := h.room
  have hlen := h.bufLen
  have hstop : (⟨c.segmentStart d.hdr.seq, u32 (c.segmentLen d.hdr.seq bodyLen)⟩ : Buffer).stop =
      c.segmentEnd d.hdr.seq bodyLen := by
    rw [Buffer.stop, segmentLen, u32_i32, UInt32.add_comm, UInt32.sub_add_cancel]
  have hruns : ∀ b ∈ (c.insertSegment d.hdr.seq bodyLen).list,
      (b.stop.toNat : ℤ) ≤ c.lastByteRead.toNat + c.readBufLen := by
    refine stop_insertBuffer (B := fun x => (x.toNat : ℤ) ≤ c.lastByteRead.toNat + c.readBufLen) ?_ h.runs
    rw [hstop]
    exact segmentEnd_le (by omega) _ _
  obtain ⟨hge, hle⟩ := expectedAfter_bounds hroom hruns
  have hread' : (c.storeSegment d bodyLen).1.lastByteRead.toNat ≤
      (c.storeSegment d bodyLen).1.nextByteExpected.toNat := hread.trans hge
  have hzero : c.advertisedWindow = 0 → (c.storeSegment d bodyLen).1.advertisedWindow = 0 := by
    refine advertisedWindow_mono h.scale rfl ?_
    have hnew := avail_eq hread' hle hlen
    have hold := avail_eq hread hroom hlen
    have hexp : (c.storeSegment d bodyLen).1.nextByteExpected =
        expectedAfter (c.insertSegment d.hdr.seq bodyLen).list c.nextByteExpected := rfl
    have hlbr : (c.storeSegment d bodyLen).1.lastByteRead = c.lastByteRead := rfl
    have hbuf : (c.storeSegment d bodyLen).1.readBufLen = c.readBufLen := rfl
    rw [hexp, hlbr, hbuf] at hnew
    omega
  refine ⟨h.scale, hlen, hread', hle, hruns, ?_⟩
  have hflag : (c.storeSegment d bodyLen).1.isMyWindowZero =
      (c.isMyWindowZero || (c.storeSegment d bodyLen).1.advertisedWindow == 0) := rfl
  rw [hflag, Bool.or_eq_true, beq_iff_eq, h.flag]
  exact ⟨fun hor => hor.elim hzero id, .inr⟩

/-- What the flag is about. -/
structure SameWindow (c c' : DtpContext) : Prop where
  recvSide : c'.toRecvSide = c.toRecvSide
  scale : c'.recvWindowScale = c.recvWindowScale
  flag : c'.isMyWindowZero = c.isMyWindowZero

theorem SameWindow.advertisedWindow (h : SameWindow c c') : c'.advertisedWindow = c.advertisedWindow := by
  simp only [DtpContext.advertisedWindow, getAvailReadBufSize, getReadBufDataSize, h.recvSide, h.scale]

theorem WindowFlag.of_same (h : WindowFlag c) (hs : SameWindow c c') : WindowFlag c' := by
  constructor
  · rw [hs.scale]
    exact h.scale
  · rw [hs.recvSide]
    exact h.bufLen
  · rw [hs.recvSide]
    exact h.read_le
  · rw [hs.recvSide]
    exact h.room
  · rw [hs.recvSide]
    exact h.runs
  · rw [hs.flag, hs.advertisedWindow]
    exact h.flag

theorem sameWindow_dropInsertedACK (c : DtpContext) : SameWindow c c.dropInsertedACK := by
  simp only [dropInsertedACK]
  split_ifs
  · cases c.packetQ with
    | nil => exact ⟨rfl, rfl, rfl⟩
    | cons p q =>
      dsimp only
      split_ifs <;> exact ⟨rfl, rfl, rfl⟩
  · exact ⟨rfl, rfl, rfl⟩

theorem WindowFlag.handleNormalPacket (h : WindowFlag c) (d : Datagram) (bodyLen : UInt32) :
    WindowFlag (c.handleNormalPacket d bodyLen).1 := by
  simp only [DtpContext.handleNormalPacket]
  split_ifs with hstate hlen
  · exact h
  · have hnoted : WindowFlag (c.dropInsertedACK.noteSegment d.hdr) :=
      (h.of_same (sameWindow_dropInsertedACK c)).of_same ⟨rfl, rfl, rfl⟩
    exact (hnoted.storeSegment d bodyLen).of_same ⟨rfl, rfl, rfl⟩
  · have hnoted : WindowFlag (c.dropInsertedACK.noteSegment d.hdr) :=
      (h.of_same (sameWindow_dropInsertedACK c)).of_same ⟨rfl, rfl, rfl⟩
    exact hnoted.of_same ⟨rfl, rfl, rfl⟩

/-! ## `dtp_recv` -/

/-- What `dtp_recv` has done when it looks at the flag. -/
def DtpContext.readOff (c : DtpContext) (len : ℤ) : DtpContext :=
  (((c.advanceRead len).consumeHead len).slideReadBuf len).noteDrained

section
variable (c : DtpContext)

theorem consume_eq (len : ℤ) :
    c.consume len = ((c.readOff len).reopenWindow).chargeBlock len := rfl

theorem sameWindow_chargeBlock (len : ℤ) : SameWindow c (c.chargeBlock len) := ⟨rfl, rfl, rfl⟩

theorem wire_chargeBlock (len : ℤ) : (c.chargeBlock len).wire = c.wire := rfl

/-- It has moved the read position and dropped the bytes. -/
structure ReadOff (c : DtpContext) (len : ℤ) (x : DtpContext) : Prop where
  read : x.lastByteRead = c.lastByteRead + u32 len
  expected : x.nextByteExpected = c.nextByteExpected
  bufLen : x.readBufLen = c.readBufLen
  runs : x.readBufHead = dropFront (u32 len) c.readBufHead
  scale : x.recvWindowScale = c.recvWindowScale
  flag : x.isMyWindowZero = c.isMyWindowZero
  wire : x.wire = c.wire
  peerAddr : x.peerAddr = c.peerAddr

theorem readOff_consumeHead (len : ℤ) : ReadOff c len ((c.advanceRead len).consumeHead len) := by
  have hhead : (c.advanceRead len).readBufHead = c.readBufHead := rfl
  simp only [consumeHead, hhead]
  cases hl : c.readBufHead with
  | nil =>
    have hnil : dropFront (u32 len) c.readBufHead = c.readBufHead := by rw [hl, dropFront]
    exact ⟨rfl, rfl, rfl, hnil.symm, rfl, rfl, rfl, rfl⟩
  | cons b l =>
    have hdrop : ((c.advanceRead len).dropHead len).readBufHead = dropFront (u32 len) (b :: l) := by
      rw [← hl]
      rfl
    dsimp only
    split_ifs
    · exact ⟨rfl, rfl, rfl, hdrop.trans (congrArg _ hl.symm), rfl, rfl, rfl, rfl⟩
    · exact ⟨rfl, rfl, rfl, hdrop.trans (congrArg _ hl.symm), rfl, rfl, rfl, rfl⟩

theorem readOff_readOff (len : ℤ) : ReadOff c len (c.readOff len) := by
  have h := readOff_consumeHead c len
  have hslide : ReadOff c len (((c.advanceRead len).consumeHead len).slideReadBuf len) := by
    simp only [slideReadBuf]
    split_ifs <;> exact ⟨h.read, h.expected, h.bufLen, h.runs, h.scale, h.flag, h.wire, h.peerAddr⟩
  simp only [readOff, noteDrained]
  split_ifs
  all_goals
    exact ⟨hslide.read, hslide.expected, hslide.bufLen, hslide.runs, hslide.scale, hslide.flag, hslide.wire,
      hslide.peerAddr⟩

end

/-- The window has not become smaller. -/
structure Drained (c x : DtpContext) : Prop where
  scale : x.recvWindowScale ≤ maxWinscaleShift
  bufLen : x.readBufLen < 2147483648
  read_le : x.lastByteRead.toNat ≤ x.nextByteExpected.toNat
  room : (x.nextByteExpected.toNat : ℤ) ≤ x.lastByteRead.toNat + x.readBufLen
  runs : ∀ b ∈ x.readBufHead, (b.stop.toNat : ℤ) ≤ x.lastByteRead.toNat + x.readBufLen
  opens : x.advertisedWindow = 0 → c.advertisedWindow = 0

theorem WindowFlag.drained (h : WindowFlag c) {len : ℤ} (h0 : 0 < len) (hle : len ≤ c.getReadBufDataSize)
    {x : DtpContext} (hx : ReadOff c len x) : Drained c x := by
  have hread := h.read_le
  have hroom := h.room
  have hlen := h.bufLen
  rw [dataSize_eq hread hroom hlen] at hle
  have hexp := toNat_lt_word c.nextByteExpected
  have hmoved : x.lastByteRead.toNat = c.lastByteRead.toNat + len.toNat := by
    rw [hx.read, toNat_add_u32 h0.le (by omega)]
  have hread' : x.lastByteRead.toNat ≤ x.nextByteExpected.toNat := by
    rw [hmoved, hx.expected]
    omega
  have hroom' : (x.nextByteExpected.toNat : ℤ) ≤ x.lastByteRead.toNat + x.readBufLen := by
    rw [hmoved, hx.expected, hx.bufLen]
    omega
  have hlen' : x.readBufLen < 2147483648 := hx.bufLen ▸ hlen
  refine ⟨hx.scale ▸ h.scale, hlen', hread', hroom', ?_, ?_⟩
  · rw [hx.runs, hmoved, hx.bufLen]
    refine stop_dropFront (B := fun y => (y.toNat : ℤ) ≤ ↑(c.lastByteRead.toNat + len.toNat) + c.readBufLen) ?_
    intro b hb
    have hstop := h.runs b hb
    omega
  · refine advertisedWindow_mono (hx.scale ▸ h.scale) hx.scale.symm ?_
    have hnew := avail_eq hread' hroom' hlen'
    have hold := avail_eq hread hroom hlen
    rw [hmoved, hx.expected, hx.bufLen] at hnew
    omega

theorem WindowFlag.reopenWindow {x : DtpContext} (h : WindowFlag c) (hx : Drained c x)
    (hflag : x.isMyWindowZero = c.isMyWindowZero) : WindowFlag x.reopenWindow := by
  simp only [DtpContext.reopenWindow]
  split_ifs with hopen
  · refine ⟨hx.scale, hx.bufLen, hx.read_le, hx.room, hx.runs, ?_⟩
    refine iff_of_false Bool.false_ne_true fun hz => ?_
    have hzero : x.advertisedWindow = 0 := hz
    rw [hzero] at hopen
    exact absurd hopen.2 (by decide)
  · refine ⟨hx.scale, hx.bufLen, hx.read_le, hx.room, hx.runs, ?_, fun hz => ?_⟩
    · intro hset
      by_contra hne
      exact hopen ⟨hset, UInt32.pos_iff_ne_zero.mpr hne⟩
    · rw [hflag]
      exact h.flag.mpr (hx.opens hz)

/-- The ACK of `dtp_recv` announces an open window. -/
def AnnouncesOpening (c c' : DtpContext) : Prop :=
  ∃ d, c'.wire = c.wire ++ [(c.peerAddr, d)] ∧ d.hdr.ack = true ∧ 0 < d.hdr.windowSize

theorem announcesOpening_reopenWindow {x : DtpContext} (hflag : x.isMyWindowZero = true)
    (hpos : 0 < x.advertisedWindow) : AnnouncesOpening x x.reopenWindow := by
  rw [DtpContext.reopenWindow, if_pos ⟨hflag, hpos⟩]
  refine ⟨_, rfl, rfl, ?_⟩
  have hwin := toNat_windowSize_dtpGenerateHeader x.lastByteSent x.getAckNumber x.flowID { ack := true }
    x.advertisedWindow
  have hposN := UInt32.lt_iff_toNat_lt.mp hpos
  rw [UInt16.lt_iff_toNat_lt]
  change 0 < (dtpGenerateHeader x.lastByteSent x.getAckNumber x.flowID { ack := true }
    x.advertisedWindow).hdr.windowSize.toNat
  rw [hwin]
  exact Nat.lt_min.mpr ⟨hposN, by norm_num⟩

theorem advertisedWindow_reopenWindow (c : DtpContext) : c.reopenWindow.advertisedWindow = c.advertisedWindow := by
  simp only [DtpContext.reopenWindow]
  split_ifs <;> rfl

theorem announcesOpening_consume (h : WindowFlag c) {len : ℤ} (hzero : c.advertisedWindow = 0)
    (hopen : 0 < (c.consume len).advertisedWindow) : AnnouncesOpening c (c.consume len) := by
  have hx := readOff_readOff c len
  rw [consume_eq] at hopen ⊢
  rw [(sameWindow_chargeBlock _ len).advertisedWindow, advertisedWindow_reopenWindow] at hopen
  have hflag : (c.readOff len).isMyWindowZero = true := by
    rw [hx.flag]
    exact h.flag.mpr hzero
  obtain ⟨d, hwire, hack, hwin⟩ := announcesOpening_reopenWindow hflag hopen
  refine ⟨d, ?_, hack, hwin⟩
  rw [wire_chargeBlock, hwire, hx.wire, hx.peerAddr]

/-- What a call of `dtp_recv` does to the flag. -/
structure FlagKept (c : DtpContext) (msgPeek : Bool) (c' : DtpContext) : Prop where
  flag : WindowFlag c'
  told : msgPeek = false → c.advertisedWindow = 0 → 0 < c'.advertisedWindow → AnnouncesOpening c c'

theorem FlagKept.of_same (h : WindowFlag c) (hs : SameWindow c c') (msgPeek : Bool) : FlagKept c msgPeek c' := by
  refine ⟨h.of_same hs, fun _ hzero hpos => ?_⟩
  rw [hs.advertisedWindow, hzero] at hpos
  exact absurd hpos (by decide)

theorem WindowFlag.consume (h : WindowFlag c) {len : ℤ} (h0 : 0 < len) (hle : len ≤ c.getReadBufDataSize) :
    FlagKept c false (c.consume len) := by
  have hx := readOff_readOff c len
  have hflag := h.reopenWindow (h.drained h0 hle hx) hx.flag
  refine ⟨?_, fun _ hz hp => announcesOpening_consume h hz hp⟩
  rw [consume_eq]
  exact hflag.of_same (sameWindow_chargeBlock _ len)

theorem sameWindow_assert (c : DtpContext) (b : Bool) : SameWindow c (c.assert b) := ⟨rfl, rfl, rfl⟩

/-- Checks do not change what the flag is about. -/
theorem FlagKept.of_assert {b : Bool} {msgPeek : Bool} (h : FlagKept (c.assert b) msgPeek c') :
    FlagKept c msgPeek c' := ⟨h.flag, h.told⟩

theorem flagKept_recvBody (h : WindowFlag c) (length : ℕ) (msgPeek woken : Bool) :
    FlagKept c msgPeek (c.recvBody length msgPeek woken).1 := by
  have hsize := dataSize_eq h.read_le h.room h.bufLen
  have hread := h.read_le
  have hmin : minSize length c.getReadBufDataSize ≤ c.getReadBufDataSize := by
    rw [minSize, if_neg (by omega)]
    exact min_le_right _ _
  simp only [recvBody]
  generalize (!(woken && decide (0 < minSize length c.getReadBufDataSize) && decide (c.state = .closeWait))) = b
  have hb : WindowFlag (c.assert b) := h.of_same (sameWindow_assert c b)
  refine FlagKept.of_assert (b := b) ?_
  split_ifs with hzero hclosing hnonblock hpos hpeek
  · exact .of_same hb ⟨rfl, rfl, rfl⟩ _
  · exact .of_same hb ⟨rfl, rfl, rfl⟩ _
  · refine .of_same hb ?_ _
    exact ⟨rfl, rfl, rfl⟩
  · exact .of_same hb (sameWindow_assert _ _) _
  · have hheld := hb.of_same (sameWindow_assert _ ((c.assert b).headHolds (minSize length c.getReadBufDataSize)))
    have hkept := hheld.consume hpos hmin
    rw [Bool.eq_false_iff.mpr hpeek]
    exact .of_assert hkept
  · exact .of_same hb ⟨rfl, rfl, rfl⟩ _

theorem flagKept_dtpRecv (h : WindowFlag c) (length : ℕ) (msgPeek : Bool) :
    FlagKept c msgPeek (c.dtpRecv length msgPeek).1 := by
  simp only [dtpRecv]
  split_ifs
  · exact .of_same h ⟨rfl, rfl, rfl⟩ _
  · exact .of_same h ⟨rfl, rfl, rfl⟩ _
  · exact .of_same h ⟨rfl, rfl, rfl⟩ _
  · exact .of_same h ⟨rfl, rfl, rfl⟩ _
  · exact flagKept_recvBody h length msgPeek false

theorem flagKept_dtpRecvWake (h : WindowFlag c) (length : ℕ) (msgPeek : Bool) :
    FlagKept c msgPeek (c.dtpRecvWake length msgPeek).1 := by
  have hwoken : WindowFlag ({ c with isReadBlocked := false } : DtpContext) := h.of_same ⟨rfl, rfl, rfl⟩
  simp only [dtpRecvWake]
  split_ifs
  · refine .of_same h ?_ _
    exact ⟨rfl, rfl, rfl⟩
  · refine .of_same h ?_ _
    exact ⟨rfl, rfl, rfl⟩
  · have hkept := flagKept_recvBody hwoken length msgPeek true
    exact ⟨hkept.flag, hkept.told⟩

end Window

/-! ## Runs -/

/-- A context that has just become `ESTABLISHED`, as `HandleSYNACKPacket` and the ACK of a SYN+ACK leave it. The
read buffer holds at least one unit of the scale. -/
structure FreshWindow (c : DtpContext) : Prop where
  state : c.state = .established
  list : c.readBufHead = []
  expected : c.nextByteExpected = c.lastByteRead
  flag : c.isMyWindowZero = false
  scale : c.recvWindowScale ≤ maxWinscaleShift
  bufLen_ge : 2 ^ c.recvWindowScale.toNat ≤ c.readBufLen
  bufLen_lt : c.readBufLen < 2147483648

/-- Such a context that receives data packets, whatever they hold, while its application reads. -/
def windowReader (c₀ : DtpContext) : Machine DtpContext ReadEvent where
  init c := c = c₀
  allowed c e :=
    match e with
    | .wake _ _ => c.isReadBlocked = true
    | _ => True
  apply c e :=
    match e with
    | .segment d bodyLen => (c.handleNormalPacket d bodyLen).1
    | .recv length msgPeek => (c.dtpRecv length msgPeek).1
    | .wake length msgPeek => (c.dtpRecvWake length msgPeek).1

section Runs
variable {c c₀ : DtpContext}

theorem FreshWindow.windowFlag (h : FreshWindow c) : WindowFlag c := by
  have hge := h.bufLen_ge
  have hpos : (0 : ℤ) < 2 ^ c.recvWindowScale.toNat := by positivity
  have hread : c.lastByteRead.toNat ≤ c.nextByteExpected.toNat := by rw [h.expected]
  have hroom : (c.nextByteExpected.toNat : ℤ) ≤ c.lastByteRead.toNat + c.readBufLen := by
    rw [h.expected]
    omega
  refine ⟨h.scale, h.bufLen_lt, hread, hroom, ?_, ?_⟩
  · rw [h.list]
    intro b hb
    cases hb
  · -- an empty buffer announces at least one unit
    rw [h.flag]
    refine iff_of_false Bool.false_ne_true fun hzero => ?_
    have havail := avail_eq hread hroom h.bufLen_lt
    have hdiv := toNat_advertisedWindow h.scale
    rw [hzero] at hdiv
    have hlt := (Nat.div_eq_zero_iff.mp hdiv.symm).resolve_left (Nat.two_pow_pos _).ne'
    rw [h.expected] at havail
    have hcast : ((2 ^ c.recvWindowScale.toNat : ℕ) : ℤ) = 2 ^ c.recvWindowScale.toNat := by norm_cast
    omega

theorem windowFlag_of_reachable (h₀ : FreshWindow c₀) (hc : (windowReader c₀).Reachable c) : WindowFlag c := by
  refine Machine.Reachable.invariant (P := WindowFlag) ?_ ?_ hc
  · rintro c rfl
    exact h₀.windowFlag
  · intro c e h he
    cases e with
    | segment d bodyLen => exact h.handleNormalPacket d bodyLen
    | recv length msgPeek => exact (flagKept_dtpRecv h length msgPeek).flag
    | wake length msgPeek => exact (flagKept_dtpRecvWake h length msgPeek).flag

/-- **Zero windows.**  In every run the flag is set if and only if the window that would be announced is 0, and
every `dtp_recv` that opens a closed window tells the peer. -/
theorem zero_window_told (h₀ : FreshWindow c₀) (hc : (windowReader c₀).Reachable c) :
    (c.isMyWindowZero = true ↔ c.advertisedWindow = 0) ∧
    (∀ length, c.advertisedWindow = 0 → 0 < (c.dtpRecv length false).1.advertisedWindow →
      AnnouncesOpening c (c.dtpRecv length false).1) ∧
    (∀ length, c.advertisedWindow = 0 → 0 < (c.dtpRecvWake length false).1.advertisedWindow →
      AnnouncesOpening c (c.dtpRecvWake length false).1) := by
  have h := windowFlag_of_reachable h₀ hc
  refine ⟨h.flag, ?_, ?_⟩
  · intro length
    exact (flagKept_dtpRecv h length false).told rfl
  · intro length
    exact (flagKept_dtpRecvWake h length false).told rfl

/-- A client whose handshake has just ended, with room for sixteen bytes. -/
def smallReader : DtpContext :=
  ({ DtpContext.dtpCreateContext with readBufLen := 16 } : DtpContext).adoptSYNACK (sampleSegment 0 0) default [] []
    0 0

theorem freshWindow_smallReader : FreshWindow smallReader := by
  constructor <;> decide +kernel

/-- Sixteen bytes fill the buffer; reading them is announced. -/
theorem zero_window_told_smallReader : ∃ c, (windowReader smallReader).Reachable c ∧ c.isMyWindowZero = true ∧
    AnnouncesOpening c (c.dtpRecv 16 false).1 := by
  have hrun : (windowReader smallReader).Reachable
      (smallReader.handleNormalPacket (sampleSegment 256 16) 16).1 :=
    Machine.Reachable.step (M := windowReader smallReader) (.init rfl) (e := .segment (sampleSegment 256 16) 16)
      trivial
  have hzero : (smallReader.handleNormalPacket (sampleSegment 256 16) 16).1.advertisedWindow = 0 := by
    decide +kernel
  have hopen : 0 < ((smallReader.handleNormalPacket (sampleSegment 256 16) 16).1.dtpRecv 16
      false).1.advertisedWindow := by decide +kernel
  obtain ⟨hflag, htold, -⟩ := zero_window_told freshWindow_smallReader hrun
  exact ⟨_, hrun, hflag.mpr hzero, htold 16 hzero hopen⟩

end Runs

end Cedos.Dtp
