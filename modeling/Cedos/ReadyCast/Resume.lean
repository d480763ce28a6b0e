import Cedos.Lib.Run
import Cedos.ReadyCast.Download

/-!
# Downloads over several connections

A download runs over connections that may fail at any moment. `run` then opens a new one and asks for
what comes after the end of the file. The server answers with status 206 and the rest of the resource,
or with status 200 and the whole of it. The file should always be a prefix of the resource, and all of
it once the download is finished.

`isResponseParsed` is not reset for a new connection. If a connection fails after its header has been
parsed, the header of the next answer goes to the file; and what the stream holds back at that moment
is asked for again. In a run in which connections fail only before, and in which each header that is
accepted ends where the code takes it to end, the file is what it should be.
-/

namespace Cedos.ReadyCast

open DTPNetFlow

/-! ## The server and the connections -/

/-- A correct answer to a request for what comes after the first `len` bytes of the resource. -/
def Answers (R : List UInt8) (len : ℕ) (r : Response) : Prop :=
  (r.code = 200 ∧ r.body = R) ∨ (r.code = 206 ∧ 0 < len ∧ len ≤ R.length ∧ r.body = R.drop len)

instance (R : List UInt8) (len : ℕ) (r : Response) : Decidable (Answers R len r) :=
  inferInstanceAs (Decidable (_ ∨ _))

/-- A connection: the answer of the server, and what has not been read of it. -/
structure Connection where
  answer : Response
  left : List UInt8

/-- How much of the answer has been read. -/
def Connection.consumed (c : Connection) : ℕ := c.answer.bytes.length - c.left.length

/-- A download and its current connection. -/
structure Session where
  flow : DTPNetFlow
  conn : Option Connection

/-- What happens to a download; where a connection is opened, with the answer it will get. -/
inductive SessionEvent
  | start (next : Response)
  | read (rd : Read)
  | again
  | failed (next : Response)
  | closed
  | cancelled
  | interrupted

/-- The event that `run` sees. -/
def SessionEvent.net : SessionEvent → NetEvent
  | .start _ => .added
  | .read rd => rd.event
  | .again => .again
  | .failed _ => .failed
  | .closed => .closed
  | .cancelled => .cancelled
  | .interrupted => .interrupted

def SessionEvent.conn (conn : Option Connection) : SessionEvent → Option Connection
  | .start next => some ⟨next, next.bytes⟩
  | .read rd => conn.map fun c => { c with left := c.left.drop rd.data.length }
  | .failed next => some ⟨next, next.bytes⟩
  | _ => conn

/-- What can happen to a download that is on the list. A new request is for what comes after the
current end of the file, and the server closes the connection after the whole answer. -/
def Possible (R : List UInt8) (s : Session) : SessionEvent → Prop
  | .start next => s.conn.isNone ∧ Answers R s.flow.fileLength next
  | .read rd => ∃ c ∈ s.conn, rd.data <+: c.left
  | .again => s.conn.isSome
  | .failed next => s.conn.isSome ∧ Answers R s.flow.fileLength next
  | .closed => ∃ c ∈ s.conn, c.left = []
  | .cancelled => True
  | .interrupted => True

instance (R : List UInt8) (s : Session) : (e : SessionEvent) → Decidable (Possible R s e)
  | .start _ => inferInstanceAs (Decidable (s.conn.isNone ∧ _))
  | .read rd => inferInstanceAs (Decidable (∃ c ∈ s.conn, rd.data <+: c.left))
  | .again => inferInstanceAs (Decidable (_ = _))
  | .failed _ => inferInstanceAs (Decidable (_ ∧ _))
  | .closed => inferInstanceAs (Decidable (∃ c ∈ s.conn, c.left = []))
  | .cancelled => .isTrue trivial
  | .interrupted => .isTrue trivial

/-- Downloads of a resource, from any prefix of it that the file already holds. -/
def session (p : Platform) (R : List UInt8) : Machine Session SessionEvent where
  init s := ∃ url disk, s = ⟨{ url := url, disk := disk }, none⟩ ∧ disk.getD [] <+: R
  allowed s e := s.flow.phase = .active ∧ Possible R s e
  apply s e := ⟨s.flow.step p e.net, e.conn s.conn⟩

/-- No read error after the header of the connection's answer has been parsed. If a read completes
the header and the code goes on to write the body, the body begins where the code takes it to begin,
and a status of 200 is not for a file that holds something. The connection is not closed before the
end of the header has been found. -/
def Careful (p : Platform) (s : Session) : SessionEvent → Prop
  | .read rd => s.flow.isResponseParsed = false → ∀ c ∈ s.conn, ∀ e ∈ endOfHeader (s.flow.header ++ rd.text p),
        LengthOk p ((s.flow.header ++ rd.text p).take e) → e ≤ rd.data.length →
          c.consumed + e = c.answer.header.length ∧ ¬(c.answer.code = 200 ∧ 0 < s.flow.fileLength)
  | .failed _ => s.flow.isResponseParsed = false
  | .closed => s.flow.isResponseParsed = true
  | _ => True

instance (p : Platform) (s : Session) : (e : SessionEvent) → Decidable (Careful p s e)
  | .read _ => inferInstanceAs (Decidable (_ → ∀ c ∈ s.conn, ∀ e ∈ endOfHeader _, _ → _ → _ ∧ _))
  | .failed _ => inferInstanceAs (Decidable (_ = _))
  | .closed => inferInstanceAs (Decidable (_ = _))
  | .start _ => .isTrue trivial
  | .again => .isTrue trivial
  | .cancelled => .isTrue trivial
  | .interrupted => .isTrue trivial

/-! ## Reopening and closing -/

section Flow
variable {p : Platform} {f : DTPNetFlow} {old : List UInt8} {t : Text}

/-- A new connection for a download whose stream holds nothing back. -/
theorem addNewConnection_spec (hphase : f.phase = .active) (hparsed : f.isResponseParsed = false)
    (hdisk : f.disk.getD [] = old) (hfout : f.fout = none ∨ f.fout = some ⟨[], true⟩) :
    Awaiting f.addNewConnection old [] ∨
      (∃ t, f.addNewConnection.phase = .died t) ∧ f.addNewConnection.disk.getD [] = old := by
  cases hurl : f.url with
  | none => exact .inr (by simp [addNewConnection, sendRequestToDProx, hurl, hdisk])
  | some url =>
    by_cases hsplit : splits url
    · left
      constructor
      all_goals simp [addNewConnection, sendRequestToDProx, hurl, hsplit, fileLength, hphase, hparsed, hdisk, hfout]
    · exact .inr (by simp [addNewConnection, sendRequestToDProx, hurl, hsplit, hdisk])

/-- The end of a download that is left in the given phase. -/
theorem close_spec (f : DTPNetFlow) (phase : Phase) :
    (f.closeStream.logs fun f => { f with phase := phase }).disk.getD [] = f.content ∧
      ((f.closeStream.logs fun f => { f with phase := phase }).phase = phase ∨
        (f.closeStream.logs fun f => { f with phase := phase }).phase = .died .nullPointer) := by
  constructor
  · rw [disk_logs _ (by simp), disk_closeStream]
  · cases h : f.closeStream.partialContentIndex with
    | none => simp [logs, h]
    | some _ => simp [logs, h]

end Flow

/-! ## Stages -/

/-- Where a download stands. -/
inductive Stage (p : Platform) (R : List UInt8) (s : Session) : Prop
  | fresh (url : Option Text) (disk : Option (List UInt8)) (h : s = ⟨{ url := url, disk := disk }, none⟩)
      (hdisk : disk.getD [] <+: R)
  /-- a request has been sent, and part of the header may have been read -/
  | waiting (old : List UInt8) (before : List Read) (c : Connection) (hconn : s.conn = some c)
      (hflow : Awaiting s.flow old (Read.texts p before))
      (hpending : endOfHeader (Read.texts p before) = none)
      (hread : Read.bytes before ++ c.left = c.answer.bytes)
      (hanswer : Answers R old.length c.answer) (hdisk : old <+: R)
  /-- the header has been parsed -/
  | receiving (pending : List UInt8) (c : Connection) (hconn : s.conn = some c)
      (hphase : s.flow.phase = .active) (hparsed : s.flow.isResponseParsed = true)
      (hfout : s.flow.fout = some ⟨pending, true⟩) (hcontent : s.flow.content ++ c.left = R)
  | ended (hphase : s.flow.phase ≠ .active) (hdisk : s.flow.disk.getD [] <+: R)
      (hfinished : s.flow.phase = .finished → s.flow.disk.getD [] = R)

section Stages
variable {p : Platform} {R : List UInt8} {s : Session}

/-- The file holds a prefix of the resource in every stage. -/
theorem Stage.disk (h : Stage p R s) :
    s.flow.disk.getD [] <+: R ∧ (s.flow.phase = .finished → s.flow.disk.getD [] = R) := by
  cases h with
  | fresh url disk h hdisk =>
    subst h
    exact ⟨hdisk, by simp⟩
  | waiting old before c hconn hflow hpending hread hanswer hdisk =>
    rw [hflow.disk, hflow.phase]
    exact ⟨hdisk, by simp⟩
  | receiving pending c hconn hphase hparsed hfout hcontent =>
    rw [hphase]
    refine ⟨?_, by simp⟩
    rw [← hcontent, content, List.append_assoc]
    exact List.prefix_append _ _
  | ended hphase hdisk hfinished => exact ⟨hdisk, hfinished⟩

/-- A download that has been left, but not as finished. -/
theorem stage_of_died {g : DTPNetFlow} {conn : Option Connection} {phase : Phase} (hphase : g.phase = phase)
    (hne : phase ≠ .active) (hnf : phase ≠ .finished) (hdisk : g.disk.getD [] <+: R) : Stage p R ⟨g, conn⟩ := by
  refine .ended ?_ hdisk ?_
  · simpa [hphase] using hne
  · intro hfin
    exact absurd (hphase.symm.trans hfin) hnf

/-- A download that is left before it is finished. -/
theorem stage_of_close (f : DTPNetFlow) {conn : Option Connection} (phase : Phase)
    (hne : phase ≠ .active) (hnf : phase ≠ .finished) (hcontent : f.content <+: R) :
    Stage p R ⟨f.closeStream.logs fun f => { f with phase := phase }, conn⟩ := by
  obtain ⟨hdisk, hphase⟩ := close_spec f phase
  rw [← hdisk] at hcontent
  rcases hphase with hphase | hphase
  · exact stage_of_died hphase hne hnf hcontent
  · exact stage_of_died hphase (by simp) (by simp) hcontent

theorem stage_of_addNewConnection {f : DTPNetFlow} {old : List UInt8} {next : Response} (hphase : f.phase = .active)
    (hparsed : f.isResponseParsed = false) (hdisk : f.disk.getD [] = old)
    (hfout : f.fout = none ∨ f.fout = some ⟨[], true⟩) (hold : old <+: R) (hanswer : Answers R f.fileLength next) :
    Stage p R ⟨f.addNewConnection, some ⟨next, next.bytes⟩⟩ := by
  rw [fileLength, hdisk] at hanswer
  rcases addNewConnection_spec hphase hparsed hdisk hfout with hawait | ⟨⟨t, hdied⟩, hsame⟩
  · refine .waiting old [] _ rfl (by simpa using hawait) ?_ (by simp) hanswer hold
    simp [endOfHeader, indexOf]
  · exact stage_of_died hdied (by simp) (by simp) (by rw [hsame]; exact hold)

/-- What an answer adds to the file completes the resource. -/
theorem Answers.complete {old : List UInt8} {r : Response} (h : Answers R old.length r)
    (hold : old <+: R) : base r old ++ r.body = R := by
  rcases h with ⟨hcode, hbody⟩ | ⟨hcode, -, -, hbody⟩
  · simp [base, hcode, hbody]
  · obtain ⟨u, rfl⟩ := hold
    simp [base, hcode, hbody]

theorem base_prefix {old : List UInt8} (r : Response) (hold : old <+: R) : base r old <+: R := by
  by_cases h : r.code = 200
  · simp [base, h]
  · simpa [base, h] using hold

/-! ### Reads -/

theorem stage_read_waiting {old : List UInt8} {before : List Read} {c : Connection} {rd : Read} {left : List UInt8}
    (hconn : s.conn = some c) (hflow : Awaiting s.flow old (Read.texts p before))
    (hpending : endOfHeader (Read.texts p before) = none) (hread : Read.bytes before ++ c.left = c.answer.bytes)
    (hanswer : Answers R old.length c.answer) (hdisk : old <+: R) (hleft : c.left = rd.data ++ left)
    (hcareful : Careful p s (.read rd)) : Stage p R ⟨s.flow.step p rd.event, some ⟨c.answer, left⟩⟩ := by
  have hnext : Read.bytes (before ++ [rd]) ++ left = c.answer.bytes := by
    rw [← hread, hleft]
    simp
  cases he : endOfHeader (Read.texts p before ++ rd.text p) with
  | none =>
    have hmore := hflow.more he
    refine .waiting old (before ++ [rd]) _ rfl ?_ ?_ hnext hanswer hdisk
    · simpa using hmore
    · simpa using he
  | some e =>
    have hcode := c.answer.parseStatusLine_found p
      ((Found.mk hpending he).status ⟨left, hnext⟩) he
    have hstatus : c.answer.code = 200 ∨ c.answer.code = 206 := hanswer.imp And.left And.left
    obtain ⟨g, hstep, hg⟩ := hflow.opening he hcode hstatus
    rw [hstep]
    by_cases hok : LengthOk p g.header ∧ e ≤ rd.data.length
    · have hbegun := begun_beginBody (p := p) hg.fout hok.1 hok.2
      have hlength := hok.1
      rw [hg.header] at hlength
      obtain ⟨hpos, hkept⟩ := hcareful hflow.unparsed c hconn e (by rw [hflow.header, he]; rfl)
        (by rw [hflow.header]; exact hlength) hok.2
      have hattached : ¬(c.answer.code = 200 ∧ old ≠ []) := by
        simpa [fileLength, hflow.disk, List.length_pos_iff] using hkept
      -- the body begins where the code takes it to begin
      have hconsumed : c.consumed = (Read.bytes before).length := by
        rw [Connection.consumed, ← hread]
        simp
      have hbody : rd.data.drop e ++ left = c.answer.body := by
        rw [← (drop_bytes_eq_body (n := c.consumed + e) ?_).mpr hpos, hconsumed, ← hread, hleft,
          ← List.drop_drop, List.drop_left, List.drop_append_of_le_length hok.2]
        rw [hpos]
        simp [Response.bytes]
      obtain ⟨pending, hfout⟩ := hbegun.fout
      have hcontent : (beginBody p g rd.data e).content ++ left = R := by
        rw [hbegun.content, content, hg.buffered, hg.disk, List.append_nil]
        simp only [hattached, not_false_eq_true, decide_true, if_true]
        rw [List.append_assoc, hbody, hanswer.complete hdisk]
      refine .receiving pending _ rfl (hbegun.phase.trans hg.phase) hbegun.parsed ?_ hcontent
      simpa [hattached] using hfout
    · obtain ⟨⟨t, hdied⟩, hsame⟩ := died_beginBody (p := p) (f := g) hok
      refine stage_of_died hdied (by simp) (by simp) ?_
      rw [hsame, hg.disk]
      exact base_prefix _ hdisk

theorem stage_read_receiving {pending left : List UInt8} {c : Connection} {rd : Read} (hphase : s.flow.phase = .active)
    (hparsed : s.flow.isResponseParsed = true) (hfout : s.flow.fout = some ⟨pending, true⟩)
    (hcontent : s.flow.content ++ c.left = R) (hleft : c.left = rd.data ++ left) :
    Stage p R ⟨s.flow.step p rd.event, some ⟨c.answer, left⟩⟩ := by
  have hstep : s.flow.step p rd.event = s.flow.save rd.data := by
    simp [step, Read.event, receive, hparsed]
  obtain ⟨hsave, ⟨pending', hfout'⟩, hphase', hparsed'⟩ := save_spec hfout rd.data
  rw [hstep]
  refine .receiving pending' _ rfl (hphase'.trans hphase) (hparsed'.trans hparsed) hfout' ?_
  rw [hsave, ← hcontent, hleft]
  simp

theorem Stage.step {e : SessionEvent} (h : Stage p R s) (hactive : s.flow.phase = .active) (hpossible : Possible R s e)
    (hcareful : Careful p s e) : Stage p R ((session p R).apply s e) := by
  cases h with
  | ended hphase hdisk hfinished => exact absurd hactive hphase
  | fresh url disk h hdisk =>
    subst h
    have hcontent : content { url := url, disk := disk } <+: R := by
      simpa [content, buffered] using hdisk
    cases e with
    | start next => exact stage_of_addNewConnection rfl rfl rfl (.inl rfl) hdisk hpossible.2
    | cancelled => exact stage_of_close _ .removed (by simp) (by simp) hcontent
    | interrupted => exact stage_of_close _ .left (by simp) (by simp) hcontent
    | read rd => simp [Possible] at hpossible
    | again => simp [Possible] at hpossible
    | failed next => simp [Possible] at hpossible
    | closed => simp [Possible] at hpossible
  | waiting old before c hconn hflow hpending hread hanswer hdisk =>
    have hcontent : s.flow.content <+: R := by
      rcases hflow.fout with hf | hf
      · simpa [content, buffered, hf, hflow.disk] using hdisk
      · simpa [content, buffered, hf, hflow.disk] using hdisk
    cases e with
    | start next => simp [Possible, hconn] at hpossible
    | read rd =>
      obtain ⟨left, hleft⟩ : rd.data <+: c.left := by simpa [Possible, hconn] using hpossible
      have hstage := stage_read_waiting hconn hflow hpending hread hanswer hdisk hleft.symm hcareful
      simpa [session, SessionEvent.net, SessionEvent.conn, hconn, ← hleft] using hstage
    | again => exact .waiting old before c hconn hflow hpending hread hanswer hdisk
    | failed next =>
      cases hindex : s.flow.partialContentIndex with
      | none =>
        have hdied : (s.flow.step p .failed).phase = .died .nullPointer := by
          simp [DTPNetFlow.step, logs, hindex]
        refine stage_of_died hdied (by simp) (by simp) ?_
        simpa [SessionEvent.net, DTPNetFlow.step, logs, hindex, hflow.disk] using hdisk
      | some v =>
        have hstage := stage_of_addNewConnection (p := p) hflow.phase hflow.unparsed hflow.disk
          hflow.fout hdisk hpossible.2
        simpa [session, SessionEvent.net, SessionEvent.conn, DTPNetFlow.step, logs, hindex] using hstage
    | closed =>
      have hparsed : s.flow.isResponseParsed = true := hcareful
      simp [hflow.unparsed] at hparsed
    | cancelled => exact stage_of_close _ .removed (by simp) (by simp) hcontent
    | interrupted => exact stage_of_close _ .left (by simp) (by simp) hcontent
  | receiving pending c hconn hphase hparsed hfout hcontent =>
    have hpart : s.flow.content <+: R := ⟨c.left, hcontent⟩
    cases e with
    | start next => simp [Possible, hconn] at hpossible
    | read rd =>
      obtain ⟨left, hleft⟩ : rd.data <+: c.left := by simpa [Possible, hconn] using hpossible
      have hstage := stage_read_receiving (p := p) hphase hparsed hfout hcontent hleft.symm
      simpa [session, SessionEvent.net, SessionEvent.conn, hconn, ← hleft] using hstage
    | again => exact .receiving pending c hconn hphase hparsed hfout hcontent
    | failed next =>
      have hunparsed : s.flow.isResponseParsed = false := hcareful
      simp [hparsed] at hunparsed
    | closed =>
      have hnil : c.left = [] := by simpa [Possible, hconn] using hpossible
      obtain ⟨hdisk, hend⟩ := close_spec s.flow .finished
      have hall : s.flow.content = R := by simpa [hnil] using hcontent
      rw [hall] at hdisk
      refine .ended ?_ ?_ ?_
      · rcases hend with hend | hend
        · simp [session, SessionEvent.net, DTPNetFlow.step, hend]
        · simp [session, SessionEvent.net, DTPNetFlow.step, hend]
      · simp [session, SessionEvent.net, DTPNetFlow.step, hdisk]
      · intro _
        exact hdisk
    | cancelled => exact stage_of_close _ .removed (by simp) (by simp) hpart
    | interrupted => exact stage_of_close _ .left (by simp) (by simp) hpart

theorem stage_of_reachable (hs : ((session p R).restrict (Careful p)).Reachable s) : Stage p R s := by
  refine Machine.Reachable.invariant (P := Stage p R) ?_ ?_ hs
  · rintro s ⟨url, disk, h, hdisk⟩
    exact .fresh url disk h hdisk
  · intro s e h he
    exact h.step he.1.1 he.1.2 he.2

end Stages

/-- In every careful run the file holds a prefix of the resource, and the whole resource once the
download is finished. -/
theorem resume_keeps_file (p : Platform) (R : List UInt8) (s : Session)
    (hs : ((session p R).restrict (Careful p)).Reachable s) :
    s.flow.disk.getD [] <+: R ∧ (s.flow.phase = .finished → s.flow.disk.getD [] = R) :=
  (stage_of_reachable hs).disk

/-! ### A resource of three bytes -/

def abc : List UInt8 := [97, 98, 99]

def abcWhole : Response where
  minor := true
  blanks := 1
  status := (2, 0, 0)
  reason := okReason
  statusEol := .crlf
  lines := []
  blank := .crlf
  body := abc
  noLF := noLF_okReason

/-- `Content-Range: bytes 1-2/3` -/
def abcRange : HeaderLine where
  content := [67, 111, 110, 116, 101, 110, 116, 45, 82, 97, 110, 103, 101, 58, 32, 98, 121, 116, 101, 115,
    32, 49, 45, 50, 47, 51]
  eol := .crlf
  noLF := by decide
  nonempty := by decide
  nonblank := by decide

/-- `bc`, for a file that holds `a`. -/
def abcRest : Response where
  minor := true
  blanks := 1
  status := (2, 0, 6)
  reason := []
  statusEol := .crlf
  lines := [abcRange]
  blank := .crlf
  body := [98, 99]
  noLF := by decide

/-- A download from `http://a/` into a file that may exist. -/
def newSession (disk : Option (List UInt8)) : Session :=
  ⟨{ url := some (.of "http://a/"), disk := disk }, none⟩

/-- A connection fails in the middle of the header; the next one delivers the rest of the resource. -/
def resumedRun : List SessionEvent :=
  [.start abcRest, .read (Read.clean (abcRest.bytes.take 5) (by decide) (by decide)), .failed abcRest,
    .read (Read.clean (abcRest.bytes.take 45) (by decide) (by decide)),
    .read (Read.clean (abcRest.bytes.drop 45) (by decide) (by decide)), .closed]

theorem resume_keeps_file_resumed :
    ∃ s, ((session latin1 abc).restrict (Careful latin1)).Reachable s ∧ s.flow.phase = .finished ∧
      s.flow.disk.getD [] = abc := by
  have hinit : ((session latin1 abc).restrict (Careful latin1)).init (newSession (some [97])) :=
    ⟨_, _, rfl, by decide⟩
  have hadm : ((session latin1 abc).restrict (Careful latin1)).Admits (newSession (some [97]))
      resumedRun := by
    refine ⟨⟨⟨rfl, ?_⟩, trivial⟩, ⟨⟨rfl, ?_⟩, ?_⟩, ⟨⟨rfl, ?_⟩, ?_⟩, ⟨⟨?_, ?_⟩, ?_⟩, ⟨⟨?_, ?_⟩, ?_⟩,
      ⟨⟨?_, ?_⟩, ?_⟩, trivial⟩
    all_goals decide +kernel
  have hrun := Machine.Reachable.run (.init hinit) hadm
  have hfinished : (Machine.run ((session latin1 abc).restrict (Careful latin1))
      (newSession (some [97])) resumedRun).flow.phase = .finished := by decide +kernel
  exact ⟨_, hrun, hfinished, (resume_keeps_file latin1 abc _ hrun).2 hfinished⟩

/-- A connection fails after the first byte of the body. -/
def spoiledRun : List SessionEvent :=
  [.start abcWhole, .read (Read.clean (abcWhole.bytes.take 20) (by decide) (by decide)),
    .failed abcWhole, .read (Read.clean abcWhole.bytes (by decide) (by decide)), .closed]

/-- The byte was held back by the stream, so the next request is for the whole resource; and its
answer goes to the file with its header. -/
theorem resume_spoils_file :
    ∃ s, (session latin1 abc).Reachable s ∧ s.flow.phase = .finished ∧ s.flow.requests = [0, 0] ∧
      s.flow.disk = some (97 :: abcWhole.bytes) ∧ ¬s.flow.disk.getD [] <+: abc := by
  have hinit : (session latin1 abc).init (newSession none) := ⟨_, _, rfl, by decide⟩
  have hadm : (session latin1 abc).Admits (newSession none) spoiledRun := by
    refine ⟨⟨rfl, ?_⟩, ⟨rfl, ?_⟩, ⟨?_, ?_⟩, ⟨?_, ?_⟩, ⟨?_, ?_⟩, trivial⟩
    all_goals decide +kernel
  have hrun := Machine.Reachable.run (.init hinit) hadm
  have hdisk : ((session latin1 abc).run (newSession none) spoiledRun).flow.disk =
      some (97 :: abcWhole.bytes) := by decide +kernel
  refine ⟨_, hrun, by decide +kernel, by decide +kernel, hdisk, ?_⟩
  rw [hdisk]
  decide

end Cedos.ReadyCast
