import Cedos.Dtp.Moves

/-!
# How a connection moves on

The connection state is assigned in a dozen places. `SockState.leads` is the relation that
all of them together can produce, apart from `HandleSYNACKPacket`, which alone takes
`SYN_SENT` to `ESTABLISHED`. What the opening has settled (key, flow ID, host IDs, window
scales) stays, and a context that has no SYN to send sends none.
-/

namespace Cedos.Dtp

open DtpContext

/-- The context has no SYN to send or to send again. -/
def DtpContext.NoSYN (c : DtpContext) : Prop :=
  c.sendSYN = false ∧ ∀ p ∈ c.packetQ, p.header.hdr.syn = false

/-- A step of an open connection. -/
structure Onward (c c' : DtpContext) : Prop where
  state : c.state.leads c'.state = true
  settled : c'.settled = c.settled
  noSYN : c.NoSYN → c'.NoSYN ∧ c'.synsSent = c.synsSent

/-- The fields it is about, apart from the state. -/
structure OnwardView extends Settled where
  sendSYN : Bool
  packetQ : List DtpPkt
  wire : List (SockAddr × Datagram)

def DtpContext.onwardView (c : DtpContext) : OnwardView where
  toSettled := c.settled
  sendSYN := c.sendSYN
  packetQ := c.packetQ
  wire := c.wire

namespace Onward
variable {c c' c'' : DtpContext}

theorem of_view (hv : c'.onwardView = c.onwardView) (hs : c.state.leads c'.state = true) : Onward c c' := by
  obtain ⟨hset, hsyn, hq, hw⟩ := OnwardView.mk.inj hv
  refine ⟨hs, hset, ?_⟩
  intro hno
  simp only [DtpContext.NoSYN, synsSent, hsyn, hq, hw]
  exact ⟨hno, trivial⟩

theorem of_same (hv : c'.onwardView = c.onwardView) (hs : c'.state = c.state) : Onward c c' := by
  refine of_view hv ?_
  rw [hs]
  exact c.state.leads_refl

theorem refl (c : DtpContext) : Onward c c := of_same rfl rfl

theorem trans (h : Onward c c') (h' : Onward c' c'') : Onward c c'' where
  state := SockState.leads_trans h.state h'.state
  settled := h'.settled.trans h.settled
  noSYN hno := by
    obtain ⟨hno', hw⟩ := h.noSYN hno
    obtain ⟨hno'', hw'⟩ := h'.noSYN hno'
    exact ⟨hno'', hw'.trans hw⟩

/-- Then a datagram without the SYN flag is sent. -/
theorem send (h : Onward c c') (addr : SockAddr) {d : Datagram} (hd : d.hdr.syn = false) :
    Onward c (c'.send addr d) where
  state := h.state
  settled := h.settled
  noSYN hno := by
    obtain ⟨hno', hw⟩ := h.noSYN hno
    refine ⟨hno', ?_⟩
    rw [← hw]
    simp [DtpContext.synsSent, DtpContext.send, hd]

theorem dtpCloseContext (c : DtpContext) : Onward c c.dtpCloseContext := by
  simp only [DtpContext.dtpCloseContext]
  split_ifs <;> exact of_same rfl rfl

theorem of_atom {b : Bool} (h : Atom b c c') : Onward c c' := by
  cases h with
  | inner hv hs hc =>
    obtain ⟨hset, hsyn, hq, hw, -⟩ := Core.mk.inj hv
    refine ⟨hs, hset, ?_⟩
    intro hno
    simp only [DtpContext.NoSYN, synsSent, hsyn, hq, hw]
    exact ⟨hno, trivial⟩
  | opened => exact ⟨c.state.leads_refl, rfl, fun hno => ⟨⟨rfl, hno.2⟩, rfl⟩⟩
  | queue hq =>
    refine ⟨c.state.leads_refl, rfl, fun hno => ⟨⟨hno.1, ?_⟩, rfl⟩⟩
    intro p hp
    obtain ⟨p', hp', heq⟩ := hq p hp
    exact (congrArg Flags.syn heq).symm.trans (hno.2 p' hp')
  | control _ addr hd => exact (refl c).send addr hd.syn
  | again hp hhdr =>
    refine ⟨c.state.leads_refl, rfl, fun hno => ?_⟩
    have hd : (c.retransDatagram _).hdr.syn = false := (congrArg (·.hdr.syn) hhdr).symm.trans (hno.2 _ hp)
    exact ((refl c).send c.peerAddr hd).noSYN hno
  | data hsyn hchg hrsp len =>
    rename_i flags
    refine ⟨c.state.leads_refl, rfl, fun hno => ?_⟩
    have hflags : (c.writeHeader flags).hdr.syn = false := by
      rw [show (c.writeHeader flags).hdr.toFlags = flags from writeHeader_flags c flags]
      by_contra hs
      exact absurd (hno.1.symm.trans (hsyn (by simpa using hs))) Bool.false_ne_true
    refine ⟨⟨hno.1, ?_⟩, ?_⟩
    · intro p hp
      cases List.mem_append.mp hp with
      | inl hmem => exact hno.2 p hmem
      | inr hmem =>
        rw [List.mem_singleton.mp hmem]
        exact hflags
    · have hd : (c.writeDatagram flags len).hdr.syn = false := hflags
      simp [synsSent, writeOne, hd]
  | fin =>
    refine ⟨c.state.leads_finState, rfl, fun hno => ⟨⟨hno.1, ?_⟩, ?_⟩⟩
    · intro p hp
      cases List.mem_append.mp hp with
      | inl hmem => exact hno.2 p hmem
      | inr hmem =>
        rw [List.mem_singleton.mp hmem]
        rfl
    · have hd : (mkDatagram c.finHeader []).hdr.syn = false := rfl
      simp [synsSent, dtpSendFINPacket, hd]
  | called => exact of_same rfl rfl
  | waits => exact of_same rfl rfl
  | reset => exact of_view rfl c.state.leads_closed
  | timedOut => exact of_view rfl c.state.leads_closed
  | closes => exact of_view rfl c.state.leads_closed
  | released => exact dtpCloseContext c

theorem of_moves (h : Moves true c c') : Onward c c' := by
  induction h with
  | refl => exact refl c
  | tail _ hatom ih => exact ih.trans (of_atom hatom)

/-! ## Address changes -/

section
variable (c : DtpContext)

theorem handleAddressChange (addr : SockAddr) (rnd : UInt32) : Onward c (c.handleAddressChange addr rnd) := by
  have hnonce : Onward c (c.markChallenge.freshNonce rnd) := of_same rfl rfl
  exact hnonce.send addr rfl

theorem handleCHGPacket (hmac : List UInt8 → List UInt8 → List UInt8)
    (d : Datagram) (addr : SockAddr) : Onward c (c.handleCHGPacket hmac d addr) := by
  obtain ⟨b, hb, heq⟩ := Moves.handleCHGPacket c hmac d addr
  have hstore : Onward b (b.storeNonce d) := of_same rfl rfl
  rw [heq]
  exact (of_moves hb).trans (hstore.send _ rfl)

theorem handleRSPPacket (hmac : List UInt8 → List UInt8 → List UInt8)
    (d : Datagram) (addr : SockAddr) : Onward c (c.handleRSPPacket hmac d addr) := by
  cases hv : c.validRSP hmac d with
  | false => exact of_moves (Moves.handleRSPPacket_invalid hv addr)
  | true =>
    have hadopt : Onward c (c.adoptAddress addr) := of_same rfl rfl
    exact hadopt.trans (of_moves (Moves.handleRSPPacket_valid hv addr))

theorem handleAUTHPacket (addr : SockAddr) (rnd : UInt32) : Onward c (c.handleAUTHPacket addr rnd) := by
  by_cases ha : c.peerAddr = addr
  · exact of_moves (Moves.handleAUTHPacket ha rnd)
  · rw [DtpContext.handleAUTHPacket, if_pos ha]
    exact handleAddressChange c addr rnd

theorem checkAddress (addr : SockAddr) (rnd : UInt32) : Onward c (c.checkAddress addr rnd) := by
  simp only [DtpContext.checkAddress]
  split_ifs
  · exact of_same rfl rfl
  · exact refl c
  · exact handleAddressChange c addr rnd
  · exact of_same rfl rfl

theorem dtpCloseWake : Onward c c.dtpCloseWake.1 := by
  have hwoken : Onward c { c with waitACK := false } := of_same rfl rfl
  simp only [DtpContext.dtpCloseWake]
  split_ifs
  · exact hwoken.trans (dtpCloseContext _)
  · exact hwoken

end

theorem apply (k : Crypto) {e : Event} (hs : c.state ≠ .synSent ∨ e.answersSYN = false) : Onward c (e.apply k c) := by
  by_cases he : e.isChallenge = true ∨ e = .closeWake
  · cases e with
    | chg d addr => exact handleCHGPacket c k.hmac d addr
    | rsp d addr => exact handleRSPPacket c k.hmac d addr
    | auth addr rnd => exact handleAUTHPacket c addr rnd
    | checkAddr addr rnd => exact checkAddress c addr rnd
    | closeWake => exact dtpCloseWake c
    | _ => simp [Event.isChallenge] at he
  · rw [not_or] at he
    exact of_moves (Moves.apply k hs (by simpa using he.1) he.2)

end Onward
end Cedos.Dtp
