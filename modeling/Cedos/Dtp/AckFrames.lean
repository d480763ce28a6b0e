import Cedos.Dtp.SendOrder

/-!
# Which acknowledgement numbers are sent

Every packet names an acknowledgement number, also one without the ACK flag. Control
packets take it from `GetAckNumber`, `DTPWriteAvail` takes `tc_nextByteExpected`, and a
retransmission repeats the number stored with the packet. Nothing on the sending side
changes what those numbers are.
-/

namespace Cedos.Dtp

open DtpContext

/-- The states that follow the peer's FIN. -/
def SockState.heardFIN : SockState → Bool
  | .closeWait | .lastAck | .timeWait => true
  | _ => false

/-- The states before a connection is established. -/
def SockState.isOpening : SockState → Bool
  | .listen | .synSent | .synRcvd => true
  | _ => false

/-- An acknowledgement number that the context can put into a packet. -/
def AckFrom (c : DtpContext) (a : UInt32) : Prop :=
  a = 0 ∨ a = c.nextByteExpected ∨ a = c.getAckNumber ∨ ∃ p ∈ c.packetQ, p.header.hdr.ackSeq = a

/-- A step of the sending side. A released context has given up its read buffer. -/
structure AckOnly (c c' : DtpContext) : Prop where
  next : c'.nextByteExpected = c.nextByteExpected
  readBufLen : c'.readBufLen = c.readBufLen
  finRcvd : c'.isFINRcvd = c.isFINRcvd
  recvSide : c'.isActive = true → c.isActive = true ∧ c'.toRecvSide = c.toRecvSide
  liveness : c'.toLiveness = c.toLiveness
  rcvLoBuf : c'.rcvLoBufHB = c.rcvLoBufHB
  heardFIN : c'.state.heardFIN = true → c.state.heardFIN = true
  opening : c'.state.isOpening = true → c.state.isOpening = true
  wire : ∀ x ∈ c'.wire, x ∈ c.wire ∨ AckFrom c x.2.hdr.ackSeq
  queue : ∀ p ∈ c'.packetQ, AckFrom c p.header.hdr.ackSeq

/-- The fields it is about. -/
structure AckView extends RecvSide, Liveness where
  isFINRcvd : Bool
  isActive : Bool
  rcvLoBufHB : UInt32
  wire : List (SockAddr × Datagram)
  packetQ : List DtpPkt

def DtpContext.ackView (c : DtpContext) : AckView where
  toRecvSide := c.toRecvSide
  toLiveness := c.toLiveness
  isFINRcvd := c.isFINRcvd
  isActive := c.isActive
  rcvLoBufHB := c.rcvLoBufHB
  wire := c.wire
  packetQ := c.packetQ

theorem AckFrom.of_mem {c : DtpContext} {p : DtpPkt} (hp : p ∈ c.packetQ) :
    AckFrom c p.header.hdr.ackSeq := Or.inr (Or.inr (Or.inr ⟨p, hp, rfl⟩))

namespace AckOnly
variable {c c' c'' : DtpContext}

theorem getAckNumber (h : AckOnly c c') : c'.getAckNumber = c.getAckNumber := by
  simp only [DtpContext.getAckNumber, h.next, h.finRcvd]

/-- What can be sent after the step could be sent before. -/
theorem ackFrom (h : AckOnly c c') {a : UInt32} (ha : AckFrom c' a) : AckFrom c a := by
  obtain h0 | h1 | h2 | ⟨p, hp, rfl⟩ := ha
  · exact Or.inl h0
  · exact Or.inr (Or.inl (h1.trans h.next))
  · exact Or.inr (Or.inr (Or.inl (h2.trans h.getAckNumber)))
  · exact h.queue p hp

theorem trans (h : AckOnly c c') (h' : AckOnly c' c'') : AckOnly c c'' where
  next := h'.next.trans h.next
  readBufLen := h'.readBufLen.trans h.readBufLen
  finRcvd := h'.finRcvd.trans h.finRcvd
  recvSide ha := by
    obtain ⟨ha', hr'⟩ := h'.recvSide ha
    obtain ⟨ha'', hr⟩ := h.recvSide ha'
    exact ⟨ha'', hr'.trans hr⟩
  liveness := h'.liveness.trans h.liveness
  rcvLoBuf := h'.rcvLoBuf.trans h.rcvLoBuf
  heardFIN hs := h.heardFIN (h'.heardFIN hs)
  opening hs := h.opening (h'.opening hs)
  wire x hx := by
    cases h'.wire x hx with
    | inl hmem => exact h.wire x hmem
    | inr ha => exact Or.inr (h.ackFrom ha)
  queue p hp := h.ackFrom (h'.queue p hp)

/-- A step that sends nothing; it may leave the connection. -/
theorem of_view (hv : c'.ackView = c.ackView)
    (hs : c'.state = c.state ∨ (c'.state.heardFIN = false ∧ c'.state.isOpening = false)) : AckOnly c c' := by
  obtain ⟨hr, hl, hf, ha, hlo, hw, hq⟩ := AckView.mk.inj hv
  refine ⟨?_, ?_, hf, fun hact => ⟨ha ▸ hact, hr⟩, hl, hlo, ?_, ?_, ?_, ?_⟩
  · exact congrArg RecvSide.nextByteExpected hr
  · exact congrArg RecvSide.readBufLen hr
  · intro hh
    cases hs with
    | inl heq => exact heq ▸ hh
    | inr hno => exact absurd (hno.1.symm.trans hh) Bool.false_ne_true
  · intro ho
    cases hs with
    | inl heq => exact heq ▸ ho
    | inr hno => exact absurd (hno.2.symm.trans ho) Bool.false_ne_true
  · intro x hx
    exact Or.inl (hw ▸ hx)
  · intro p hp
    exact .of_mem (hq ▸ hp)

theorem refl (c : DtpContext) : AckOnly c c := of_view rfl (Or.inl rfl)

/-- Then the queue is replaced by packets with known numbers. -/
theorem setQueue (h : AckOnly c c') {q : List DtpPkt}
    (hq : ∀ p ∈ q, AckFrom c p.header.hdr.ackSeq) : AckOnly c (c'.setQueue q) :=
  { h with queue := hq }

theorem send (h : AckOnly c c') (addr : SockAddr) {d : Datagram} (hd : AckFrom c d.hdr.ackSeq) :
    AckOnly c (c'.send addr d) := by
  refine { h with wire := fun x hx => ?_ }
  cases List.mem_append.mp hx with
  | inl hmem => exact h.wire x hmem
  | inr hmem =>
    rw [List.mem_singleton.mp hmem]
    exact Or.inr hd

theorem dtpSendACKPacket (c : DtpContext) : AckOnly c c.dtpSendACKPacket :=
  (refl c).send _ (Or.inr (Or.inr (Or.inl rfl)))

/-! ## Acts -/

theorem writeOne (c : DtpContext) (flags : Flags) (len : ℤ) : AckOnly c (c.writeOne flags len) := by
  have hack : (c.writeHeader flags).hdr.ackSeq = c.nextByteExpected := by
    simp only [writeHeader]
    split_ifs <;> rfl
  refine ⟨rfl, rfl, rfl, fun ha => ⟨ha, rfl⟩, rfl, rfl, id, id, ?_, ?_⟩
  · intro x hx
    cases List.mem_append.mp hx with
    | inl hmem => exact Or.inl hmem
    | inr hmem =>
      rw [List.mem_singleton.mp hmem]
      exact Or.inr (Or.inr (Or.inl hack))
  · intro p hp
    cases List.mem_append.mp hp with
    | inl hmem => exact .of_mem hmem
    | inr hmem =>
      rw [List.mem_singleton.mp hmem]
      exact Or.inr (Or.inl hack)

theorem dtpSendFINPacket (c : DtpContext) : AckOnly c c.dtpSendFINPacket := by
  refine ⟨rfl, rfl, rfl, fun ha => ⟨ha, rfl⟩, rfl, rfl, ?_, ?_, ?_, ?_⟩
  · change (finState c.state).heardFIN = true → c.state.heardFIN = true
    cases c.state <;> simp [finState, SockState.heardFIN]
  · change (finState c.state).isOpening = true → c.state.isOpening = true
    cases c.state <;> simp [finState, SockState.isOpening]
  · intro x hx
    cases List.mem_append.mp hx with
    | inl hmem => exact Or.inl hmem
    | inr hmem =>
      rw [List.mem_singleton.mp hmem]
      exact Or.inr (Or.inr (Or.inr (Or.inl rfl)))
  · intro p hp
    cases List.mem_append.mp hp with
    | inl hmem => exact .of_mem hmem
    | inr hmem =>
      rw [List.mem_singleton.mp hmem]
      exact Or.inr (Or.inr (Or.inl rfl))

theorem dtpCloseContext (c : DtpContext) : AckOnly c c.dtpCloseContext := by
  simp only [DtpContext.dtpCloseContext]
  split_ifs
  · exact of_view rfl (Or.inl rfl)
  · exact refl c
  · exact refl c
  · exact ⟨rfl, rfl, rfl, fun ha => (Bool.false_ne_true ha).elim, rfl, rfl, id, id,
      fun _ hx => Or.inl hx, fun _ hp => .of_mem hp⟩

theorem removePacket (c : DtpContext) (ack : UInt32) : AckOnly c ((c.shiftAcked ack).removePacket ack) := by
  refine ⟨rfl, rfl, rfl, fun ha => ⟨ha, rfl⟩, rfl, rfl, id, id, fun _ hx => Or.inl hx, ?_⟩
  intro p hp
  rw [packetQ_removePacket] at hp
  obtain ⟨p', hp', heq, -⟩ := mem_cutQueue hp
  exact heq ▸ AckFrom.of_mem (c := c) hp'

theorem requeue {q : List DtpPkt}
    (hq : ∀ x ∈ q, ∃ y ∈ c.packetQ, y.header.hdr.ackSeq = x.header.hdr.ackSeq) : AckOnly c (c.setQueue q) := by
  refine (refl c).setQueue fun x hx => ?_
  obtain ⟨y, hy, heq⟩ := hq x hx
  exact heq ▸ AckFrom.of_mem hy

theorem dropPacket {l q : List DtpPkt} {p : DtpPkt} (hq : c.packetQ = l ++ p :: q) :
    AckOnly c (c.setQueue (l ++ q)) := by
  refine requeue fun x hx => ⟨x, ?_, rfl⟩
  simp only [hq, List.mem_append, List.mem_cons] at hx ⊢
  tauto

/-- The acts of the receiving side and of the opening. -/
def foreign : List ActKind :=
  [.wrap, .store, .read, .finHeard, .timeWait, .dropFirst, .adopted, .key, .retry, .resize, .marks]

/-- The acts of the sending side, while the network is there, no ACK waits in the queue and no mark is
set. -/
theorem of_act {k : ActKind} (h : Act k c c') (hk : k ∉ foreign) (hnet : k = .reconnect → c.isNetConnected = true)
    (hlo : k = .switch → c.rcvLoBufHB = 0) (hack : k = .dropACK → c.isACKInserted = false) : AckOnly c c' := by
  have hcontrol {addr : SockAddr} {d : Datagram} (hd : d.hdr.ackSeq = 0 ∨ d.hdr.ackSeq = c.getAckNumber) :
      AckOnly c (c.send addr d) := by
    refine (refl c).send addr ?_
    cases hd with
    | inl h0 => exact Or.inl h0
    | inr h1 => exact Or.inr (Or.inr (Or.inl h1))
  cases h with
  | data => exact writeOne c _ _
  | fin => exact dtpSendFINPacket c
  | ack | probe => exact hcontrol (Or.inr rfl)
  | rst => exact hcontrol (Or.inl rfl)
  | auth => exact (hcontrol (Or.inr rfl)).trans (of_view rfl (Or.inl rfl))
  | acked => exact removePacket c _
  | again hp heq =>
    refine (refl c).send _ (Or.inr (Or.inr (Or.inr ⟨_, hp, ?_⟩)))
    cases heq with
    | inl heq => rw [heq]; rfl
    | inr heq => rw [heq]; rfl
  | mark hq =>
    rename_i kept q p
    refine requeue fun x hx => ?_
    simp only [List.mem_append, List.mem_cons] at hx
    obtain hmem | rfl | hmem := hx
    · exact ⟨x, by simp [hq, hmem], rfl⟩
    · exact ⟨p, by simp [hq], rfl⟩
    · exact ⟨x, by simp [hq, hmem], rfl⟩
  | prune hq _ => exact (dropPacket hq).trans (of_view rfl (Or.inl rfl))
  | fallBack =>
    rw [fallBack, unsendFIN]
    split_ifs <;> exact of_view rfl (Or.inl rfl)
  | reconnect hnet' => exact absurd ((hnet rfl).symm.trans hnet') (by decide)
  | switch _ hlo' => exact absurd (hlo rfl) (by simpa [UInt32.pos_iff_ne_zero] using hlo')
  | dropACK hins => exact absurd ((hack rfl).symm.trans hins) (by decide)
  | dropLast _ hq =>
    have hclosed : AckOnly c { c with state := .closed } := of_view rfl (Or.inr ⟨rfl, rfl⟩)
    exact hclosed.trans (dropPacket (l := []) hq)
  | released => exact dtpCloseContext c
  | challenge _ addr rnd =>
    have hnonce : AckOnly c (c.markChallenge.freshNonce rnd) := of_view rfl (Or.inl rfl)
    exact hnonce.send addr (Or.inl rfl)
  | respond _ _ d =>
    have hstore : AckOnly c (c.storeNonce d) := of_view rfl (Or.inl rfl)
    exact hstore.send _ (Or.inl rfl)
  | establish | finAcked | closes | reset | timedOut => exact of_view rfl (Or.inr ⟨rfl, rfl⟩)
  | wrap | store | advance | take | slide | finHeard | timeWait | dropFirst | adopted | named | setKey | sendKey
  | retry | readLen | writeLen | marks => exact absurd (by decide) hk
  | _ => exact of_view rfl (Or.inl rfl)

theorem of_acts {K : List ActKind} (h : Acts K c c') (hK : ∀ k ∈ K, k ∉ foreign := by decide)
    (hnet : .reconnect ∈ K → c.isNetConnected = true := by exact fun h => absurd h (by decide))
    (hlo : .switch ∈ K → c.rcvLoBufHB = 0 := by exact fun h => absurd h (by decide))
    (hack : .dropACK ∈ K → c.isACKInserted = false := by exact fun h => absurd h (by decide)) :
    AckOnly c c' := by
  refine h.invariant (P := AckOnly c) ?_ (refl c)
  intro k hk x y ha hx
  refine hx.trans (of_act ha (hK k hk) ?_ ?_ ?_)
  · rintro rfl
    exact (congrArg Liveness.isNetConnected hx.liveness).trans (hnet hk)
  · rintro rfl
    exact hx.rcvLoBuf.trans (hlo hk)
  · rintro rfl
    exact (congrArg Liveness.isACKInserted hx.liveness).trans (hack hk)

/-- `HandleACKPacket`, unless an old ACK number is taken for a wrap-around. -/
theorem handleACKPacket (hnet : c.isNetConnected = true) {ack : UInt32} (w : UInt16)
    (hwrap : ack < c.lastByteAcked → ¬c.lastByteAcked + 1472 < c.lastByteAcked) : AckOnly c (c.handleACKPacket ack w) :=
  of_acts (.handleACKPacket_new w hwrap) (by decide) fun _ => hnet

end AckOnly
end Cedos.Dtp
