import Cedos.Dtp.Agreement

/-!
# A flow ID that is taken

A server that has another host's connection under the flow ID of a SYN answers with an RST, and
`HandleRSTPacket` is to send the SYN again under a new flow ID. Two things keep it from that. The RST
names the server's host, and the client compares that with the host ID it will only learn from the
SYN+ACK. And `tc_isSYNSent` is never cleared, so `DTPWriteAvail` returns before it sends a second SYN; by
then the first one has been taken out of the queue, and nothing is left that a timer could send.
-/

namespace Cedos.Dtp

open DtpContext

/-- A client that has sent its SYN and waits for the answer. -/
structure DtpContext.SYNOut (c : DtpContext) : Prop where
  state : c.state = .synSent
  wants : c.sendSYN = true
  sent : c.isSYNSent = true

/-- The RST has been accepted: exactly one packet is queued and has been sent, a SYN with the new flow ID and
the key, and `tc_lastByteSent` is after it. -/
structure Recovered (c c' : DtpContext) (fid : UInt32) : Prop where
  flow : c'.flowID = fid
  syn : ∃ p, c'.packetQ = [p] ∧ p.header.hdr.syn = true ∧ p.header.hdr.fid = fid ∧
    p.payloadLen = c.keyLen ∧ c'.lastByteSent = p.stop ∧
    c'.wire = c.wire ++ [(c.peerAddr, mkDatagram p.header (peek c.writeBuf 0 c.keyLen.toNat))]

section Client
variable {c c' : DtpContext} {d : Datagram} {hid : List UInt8} {fid : UInt32}

/-- An RST sends nothing and leaves a client that waits for the answer. -/
theorem DtpContext.SYNOut.handleRSTPacket (h : c.SYNOut)
    (hr : c.handleRSTPacket d hid fid = .ok c') : c'.SYNOut ∧ c'.wire = c.wire := by
  rcases handleRSTPacket_cases hr with rfl | ⟨-, rfl⟩ | ⟨hs, -⟩ | ⟨hs, -⟩
  · exact ⟨h, rfl⟩
  · simp only [DtpContext.retryConnect]
    cases c.packetQ with
    | nil => exact ⟨⟨h.state, h.wants, h.sent⟩, rfl⟩
    | cons p q =>
      have hout : DtpContext.SYNOut
          { c with
            packetQ := q
            flowID := fid
            lastByteSent := c.lastByteSent - u32 p.payloadLen
            segSent := 0 } := ⟨h.state, h.wants, h.sent⟩
      simp only [dtpWriteAvail_of_syn hout.wants hout.sent hout.state]
      exact ⟨hout, trivial⟩
  · exact absurd (h.state.symm.trans hs) (by decide)
  · exact absurd (h.state.symm.trans hs) (by decide)

theorem not_recovered_of_wire (h : c'.wire = c.wire) : ¬Recovered c c' fid := by
  rintro ⟨-, p, -, -, -, -, -, hwire⟩
  rw [h] at hwire
  exact List.cons_ne_nil _ _ (List.self_eq_append_right.mp hwire)

end Client

/-- In every run of a client and a server, the client waits for the answer as long as it is in
`SYN_SENT`. -/
theorem SYNOut.of_reachable {k : Crypto} {a : Caller} {s : Parties} (hs : (opening k a).Reachable s)
    (hstate : s.client.state = .synSent) : s.client.SYNOut := by
  have hroles : s.Roles a := by
    refine hs.invariant ?_ fun s e h he => h.of_step (h.step he)
    rintro s rfl
    refine ⟨by simp, ?_, fun _ => a.calling⟩
    simp [a.state_context]
  have hcalling := hroles.calling hstate
  exact ⟨hstate, hcalling.wants, hcalling.sent⟩

/-- Every client in `SYN_SENT` is one whose SYN is out, and for none of them the RST brings the connection
under way again, neither the first nor any later one. -/
theorem flow_collision_never (k : Crypto) (a : Caller) (s : Parties) (c : DtpContext) :
    ((opening k a).Reachable s → s.client.state = .synSent → s.client.SYNOut) ∧
    (c.SYNOut → ∀ d hid fid c', c.handleRSTPacket d hid fid = .ok c' → c'.SYNOut ∧ ¬Recovered c c' fid) := by
  refine ⟨fun hs hstate => SYNOut.of_reachable hs hstate, fun hc d hid fid c' hr => ?_⟩
  obtain ⟨hout, hwire⟩ := hc.handleRSTPacket hr
  exact ⟨hout, not_recovered_of_wire hwire⟩

/-- A client that has just called `dtp_connect`. -/
def collidingCaller : Caller where
  scale := 4
  id := List.replicate 20 3
  port := 5
  addr := ⟨1, 2⟩
  fid := 7
  n := [9, 8, 7, 6]
  e := [1, 0, 1]
  hid := rfl
  hn := by decide
  he := by decide

/-- An RST of a server whose host ID is not zero is ignored. If it were zero, as what the client has not been
told yet is, the queue would be empty afterwards and no SYN would have been sent. -/
theorem flow_collision_sample :
    (collidingCaller.context.handleRSTPacket (rstDatagram (List.replicate 20 1) 7) [] 8).map
        (fun c => (c.flowID, c.packetQ.length, c.wire.length)) = .ok (7, 1, 1) ∧
      (collidingCaller.context.handleRSTPacket (rstDatagram (List.replicate 20 0) 7) [] 8).map
        (fun c => (c.flowID, c.packetQ.length, c.wire.length)) = .ok (8, 0, 1) ∧
      collidingCaller.context.SYNOut ∧
      ∀ hid fid c', collidingCaller.context.handleRSTPacket (rstDatagram (List.replicate 20 1) 7) hid fid =
        .ok c' → ¬Recovered collidingCaller.context c' fid := by
  have hout : collidingCaller.context.SYNOut :=
    ⟨collidingCaller.state_context, collidingCaller.calling.wants, collidingCaller.calling.sent⟩
  refine ⟨by decide +kernel, by decide +kernel, hout, fun hid fid c' hr => ?_⟩
  exact not_recovered_of_wire (hout.handleRSTPacket hr).2

end Cedos.Dtp
