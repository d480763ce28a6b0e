import Cedos.ReadyCast.Response

/-!
# One response

A response with status 200 or 206 arrives in reads of at most `bufsize` bytes, and the server closes
the connection. The file should then hold the body, behind what it held before if the status is 206.

The text of the header is collected over the reads, but the place where it ends is applied to the last
read alone. The body is saved if that place in that read is where the body begins. For an ASCII
header and a body that is not empty this means that the first read holds the whole header, and that
the search is not misled by what follows it there. Two more things must not happen: a
`Content-Length` that `parseField` and `parseInt` do not read ends the thread, and a status of 200 for
a file that is not empty deletes the file that is being written.
-/

namespace Cedos.ReadyCast

/-! ## The file and its stream -/

namespace DTPNetFlow
variable {f : DTPNetFlow} {s : Stream}

/-- What the stream will still write to the file. -/
def buffered (f : DTPNetFlow) : List UInt8 :=
  match f.fout with
  | some ⟨pending, true⟩ => pending
  | _ => []

/-- The file once the stream is flushed. -/
def content (f : DTPNetFlow) : List UInt8 := f.disk.getD [] ++ f.buffered

/-- What is saved is added to the file, unless the file has been deleted. -/
theorem save_spec (hf : f.fout = some s) (bs : List UInt8) :
    (f.save bs).content = f.content ++ (if s.attached then bs else []) ∧
      (∃ pending, (f.save bs).fout = some ⟨pending, s.attached⟩) ∧
      (f.save bs).phase = f.phase ∧ (f.save bs).isResponseParsed = f.isResponseParsed := by
  obtain ⟨pending, attached⟩ := s
  by_cases hbig : streamBuf ≤ bs.length
  · cases attached <;> simp [save, write, hf, hbig, emit, content, buffered]
  · by_cases hflush : streamBuf < pending.length + bs.length
    · cases attached <;> simp [save, write, hf, hbig, hflush, emit, content, buffered]
    · cases attached <;> simp [save, write, hf, hbig, hflush, content, buffered]

theorem disk_closeStream (f : DTPNetFlow) : f.closeStream.disk.getD [] = f.content := by
  rcases hf : f.fout with - | ⟨pending, - | -⟩
  · simp [closeStream, hf, content, buffered]
  · simp [closeStream, hf, content, buffered, emit]
  · simp [closeStream, hf, content, buffered, emit]

theorem disk_logs (f : DTPNetFlow) {g : DTPNetFlow → DTPNetFlow} (hg : (g f).disk = f.disk) :
    (f.logs g).disk = f.disk := by
  cases h : f.partialContentIndex with
  | none => simp [logs, h]
  | some _ => simp [logs, h, hg]

end DTPNetFlow

/-! ## Reads -/

/-- What one `dtpread` puts into the buffer, in front of what the buffer held before. -/
structure Read where
  data : List UInt8
  stale : List UInt8
  wrote : Bool
  nonempty : data ≠ []
  full : data.length + stale.length = bufsize

namespace Read

def event (rd : Read) : NetEvent := .data rd.data rd.stale rd.wrote

/-- The text that the code takes the read to be. -/
def text (p : Platform) (rd : Read) : Text := (p.decode (rd.data ++ rd.stale)).take rd.data.length

def bytes (reads : List Read) : List UInt8 := reads.flatMap Read.data

theorem length_text_le (p : Platform) (rd : Read) : (rd.text p).length ≤ rd.data.length := by
  simp [text]

theorem text_of_ascii (p : Platform) (rd : Read) {a b : List UInt8} (hd : rd.data = a ++ b)
    (ha : ∀ x ∈ a, x < 128) :
    rd.text p = ascii a ++ (p.decode (b ++ rd.stale)).take b.length := by
  rw [text, hd, List.append_assoc, p.decode_ascii a _ ha, List.take_append, List.length_append]
  simp [ascii]

end Read

/-- The reads of a response. -/
def Cut (r : Response) (reads : List Read) : Prop := Read.bytes reads = r.bytes

instance (r : Response) (reads : List Read) : Decidable (Cut r reads) :=
  inferInstanceAs (Decidable (_ = _))

namespace DTPNetFlow

/-- A round of `run`, as long as the download is on the list and the thread runs. -/
def round (p : Platform) (f : DTPNetFlow) (e : NetEvent) : DTPNetFlow :=
  if f.phase = .active then f.step p e else f

/-- The reads, and then the end of the connection. -/
def download (p : Platform) (f : DTPNetFlow) (reads : List Read) : DTPNetFlow :=
  (reads.map Read.event ++ [NetEvent.closed]).foldl (round p) f

variable {p : Platform} {f : DTPNetFlow} {s : Stream}

theorem download_cons (h : f.phase = .active) (rd : Read) (reads : List Read) :
    f.download p (rd :: reads) = (f.step p rd.event).download p reads := by
  simp [download, round, h]

/-- Once the download has been left nothing happens to it. -/
theorem download_inactive (h : f.phase ≠ .active) (reads : List Read) : f.download p reads = f := by
  have hround : ∀ e, round p f e = f := by
    intro e
    simp [round, h]
  induction reads with
  | nil => simp [download, hround]
  | cons rd reads ih => simpa [download, hround] using ih

theorem disk_download_nil (h : f.phase = .active) : (f.download p []).disk.getD [] = f.content := by
  have hdisk : (f.download p []).disk = f.closeStream.disk := by
    simp [download, round, h, step, disk_logs]
  rw [hdisk, disk_closeStream]

/-- After the header every read goes to the file. -/
theorem disk_download_parsed (reads : List Read) (h : f.phase = .active)
    (hparsed : f.isResponseParsed = true) (hf : f.fout = some s) :
    (f.download p reads).disk.getD [] = f.content ++ (if s.attached then Read.bytes reads else []) := by
  induction reads generalizing f s with
  | nil =>
    rw [disk_download_nil h]
    simp [Read.bytes]
  | cons rd reads ih =>
    have hstep : f.step p rd.event = f.save rd.data := by
      simp [step, Read.event, receive, hparsed]
    obtain ⟨hcontent, ⟨pending, hfout⟩, hphase, hflag⟩ := save_spec hf rd.data
    rw [download_cons h, hstep, ih (by simp [hphase, h]) (by simp [hflag, hparsed]) hfout, hcontent]
    cases s.attached with
    | true => simp [Read.bytes]
    | false => simp

/-! ## The end of the header -/

/-- The length of the body can be read, if the header gives one. -/
def LengthOk (p : Platform) (header : Text) : Prop :=
  ∀ v, parseField header httpContLength = some v → (p.parseInt v).isSome

instance (p : Platform) (header : Text) : Decidable (LengthOk p header) :=
  inferInstanceAs (Decidable (∀ v ∈ parseField header httpContLength, (p.parseInt v).isSome))

/-- The body begins in the file. -/
structure Begun (f g : DTPNetFlow) (s : Stream) (bs : List UInt8) : Prop where
  content : g.content = f.content ++ (if s.attached then bs else [])
  fout : ∃ pending, g.fout = some ⟨pending, s.attached⟩
  phase : g.phase = f.phase
  parsed : g.isResponseParsed = true

theorem begun_save (hf : f.fout = some s) (bs : List UInt8) :
    Begun f { f.save bs with isResponseParsed := true } s bs := by
  obtain ⟨hcontent, hfout, hphase, -⟩ := save_spec hf bs
  constructor
  · rw [← hcontent]
    simp [DTPNetFlow.content, buffered]
  · simpa using hfout
  · simpa using hphase
  · simp

/-- An accepted header: the body begins at position `enter` of the last read. -/
theorem begun_beginBody {data : List UInt8} {enter : ℕ} (hf : f.fout = some s) (hlen : LengthOk p f.header)
    (hle : enter ≤ data.length) : Begun f (beginBody p f data enter) s (data.drop enter) := by
  cases hv : parseField f.header httpContLength with
  | none =>
    simp only [beginBody, hv, hle, if_true]
    exact begun_save hf _
  | some v =>
    obtain ⟨n, hn⟩ := Option.isSome_iff_exists.mp (hlen v hv)
    have hb := begun_save (f := { f with totalLen := f.fileLen + n }) hf (data.drop enter)
    simp only [beginBody, hv, hn, hle, if_true]
    exact ⟨hb.content, hb.fout, hb.phase, hb.parsed⟩

/-- The header is complete, but its body does not begin. -/
theorem died_beginBody {data : List UInt8} {enter : ℕ}
    (h : ¬(LengthOk p f.header ∧ enter ≤ data.length)) :
    (∃ t, (beginBody p f data enter).phase = .died t) ∧ (beginBody p f data enter).disk = f.disk := by
  cases hv : parseField f.header httpContLength with
  | none =>
    have hlt : ¬enter ≤ data.length := by
      simpa [LengthOk, hv] using h
    simp [beginBody, hv, hlt]
  | some v =>
    cases hn : p.parseInt v with
    | none => simp [beginBody, hv, hn]
    | some n =>
      have hlt : ¬enter ≤ data.length := by
        simpa [LengthOk, hv, hn] using h
      simp [beginBody, hv, hn, hlt]

/-- The file after a header has been accepted, for a stream that holds nothing back. -/
theorem disk_download_beginBody (reads : List Read) (data : List UInt8) (enter : ℕ)
    (h : f.phase = .active) (hf : f.fout = some s) (hempty : f.buffered = []) :
    ((LengthOk p f.header ∧ enter ≤ data.length) → ((beginBody p f data enter).download p reads).disk.getD [] =
        f.disk.getD [] ++ (if s.attached then data.drop enter ++ Read.bytes reads else [])) ∧
    (¬(LengthOk p f.header ∧ enter ≤ data.length) →
      ((beginBody p f data enter).download p reads).disk.getD [] = f.disk.getD []) := by
  have hold : f.content = f.disk.getD [] := by simp [content, hempty]
  constructor
  · intro hok
    have hb := begun_beginBody (f := f) hf hok.1 hok.2
    obtain ⟨pending, hfout⟩ := hb.fout
    rw [disk_download_parsed reads (by simp [hb.phase, h]) hb.parsed hfout, hb.content, hold]
    cases s.attached with
    | true => simp
    | false => simp
  · intro hbad
    obtain ⟨⟨t, hphase⟩, hdisk⟩ := died_beginBody (f := f) hbad
    rw [download_inactive (by simp [hphase]), hdisk]

end DTPNetFlow

/-! ## A download that waits for a header -/

open DTPNetFlow

/-- The text of an unfinished header has been collected, and the file is as it was. -/
structure Awaiting (f : DTPNetFlow) (old : List UInt8) (header : Text) : Prop where
  phase : f.phase = .active
  unparsed : f.isResponseParsed = false
  header : f.header = header
  disk : f.disk.getD [] = old
  fileLen : f.fileLen = old.length
  fout : f.fout = none ∨ f.fout = some ⟨[], true⟩

/-- The request has been sent and nothing has been read. -/
def Ready (f : DTPNetFlow) : Prop := Awaiting f (f.disk.getD []) []

/-- A new download is ready once its request has been sent. -/
theorem ready_added (p : Platform) {url : Text} (hurl : splits url) (disk : Option (List UInt8)) :
    Ready (step p { url := some url, disk := disk } .added) := by
  constructor
  all_goals simp [step, addNewConnection, sendRequestToDProx, hurl, fileLength]

/-- What the file holds before the body: status 200 is for the whole resource. -/
def base (r : Response) (old : List UInt8) : List UInt8 := if r.code = 200 then [] else old

section Header
variable {p : Platform} {f : DTPNetFlow} {old : List UInt8} {t : Text} {r : Response} {rd : Read}

/-- The stream is open and empty from the first read on. -/
theorem Awaiting.openStream (h : Awaiting f old t) :
    Awaiting f.openStream old t ∧ f.openStream.fout = some ⟨[], true⟩ := by
  rcases h.fout with hf | hf
  · have heq : f.openStream = { f with disk := some old, fout := some ⟨[], true⟩ } := by
      simp [DTPNetFlow.openStream, hf, h.disk]
    rw [heq]
    exact ⟨⟨h.phase, h.unparsed, h.header, by simp, h.fileLen, by simp⟩, rfl⟩
  · have heq : f.openStream = f := by simp [DTPNetFlow.openStream, hf]
    rw [heq]
    exact ⟨h, hf⟩

/-- A read that does not complete the header. -/
theorem Awaiting.more (h : Awaiting f old t) (hnone : endOfHeader (t ++ rd.text p) = none) :
    Awaiting (f.step p rd.event) old (t ++ rd.text p) := by
  obtain ⟨hopen, hfout⟩ := h.openStream
  have heq : f.step p rd.event = { f.openStream with header := t ++ rd.text p } := by
    have htext := hnone
    rw [← hopen.header, Read.text] at htext
    simp [step, Read.event, receive, h.unparsed, htext, ← hopen.header, Read.text]
  rw [heq]
  exact ⟨hopen.phase, hopen.unparsed, rfl, hopen.disk, hopen.fileLen, .inr hfout⟩

/-- The read that completes the header, in terms of the header that is taken from the text. -/
theorem Awaiting.found (h : Awaiting f old t) {e : ℕ} (he : endOfHeader (t ++ rd.text p) = some e) : f.step p rd.event =
    onHeader p { f.openStream with header := (t ++ rd.text p).take e } rd.data e rd.wrote := by
  obtain ⟨hopen, -⟩ := h.openStream
  have htext := he
  rw [← hopen.header, Read.text] at htext
  simp [step, Read.event, receive, h.unparsed, htext, ← hopen.header, Read.text]

/-- The body goes to the file: its length can be read, it begins in the last read, and the file is not
deleted. -/
structure Accepted (p : Platform) (r : Response) (old : List UInt8) (header : Text) (rd : Read)
    (e : ℕ) : Prop where
  length : LengthOk p header
  inside : e ≤ rd.data.length
  kept : ¬(r.code = 200 ∧ old ≠ [])

/-- The header has been accepted and nothing is written yet; `attached` says that the file is still
there. -/
structure Opening (g : DTPNetFlow) (content : List UInt8) (header : Text) (attached : Bool) : Prop where
  phase : g.phase = .active
  header : g.header = header
  disk : g.disk.getD [] = content
  fout : g.fout = some ⟨[], attached⟩

theorem Opening.buffered {g : DTPNetFlow} {content : List UInt8} {header : Text} {attached : Bool}
    (h : Opening g content header attached) : g.buffered = [] := by
  cases attached with
  | true => simp [DTPNetFlow.buffered, h.fout]
  | false => simp [DTPNetFlow.buffered, h.fout]

/-- The read that completes the header of a response with status 200 or 206. -/
theorem Awaiting.opening (h : Awaiting f old t) {e : ℕ}
    (he : endOfHeader (t ++ rd.text p) = some e)
    (hcode : parseStatusLine p ((t ++ rd.text p).take e) = .ok r.code)
    (hstatus : r.code = 200 ∨ r.code = 206) :
    ∃ g, f.step p rd.event = beginBody p g rd.data e ∧
      Opening g (base r old) ((t ++ rd.text p).take e) (¬(r.code = 200 ∧ old ≠ [])) := by
  obtain ⟨hopen, hfout⟩ := h.openStream
  rw [h.found he]
  generalize (t ++ rd.text p).take e = header at hcode ⊢
  by_cases hdel : r.code = 200 ∧ old ≠ []
  · -- the stream writes to a file that is gone
    have hpos : 0 < f.openStream.fileLen := by
      rw [hopen.fileLen]
      exact List.length_pos_iff.mpr hdel.2
    refine ⟨deleteFile { f.openStream with header := header }, ?_, ?_⟩
    · simp [onHeader, hcode, hdel.1, hpos]
    · constructor
      · simp [deleteFile, hopen.phase]
      · simp [deleteFile]
      · simp [deleteFile, base, hdel.1]
      · simp [deleteFile, hfout, hdel]
  · have hbase : base r old = old := by
      by_cases h200 : r.code = 200
      · have hnil : old = [] := by
          by_contra hne
          exact hdel ⟨h200, hne⟩
        simp [base, hnil]
      · simp [base, h200]
    have hon : ∃ index, onHeader p { f.openStream with header := header } rd.data e rd.wrote =
        beginBody p { f.openStream with header := header, partialContentIndex := index } rd.data e := by
      rcases hstatus with h200 | h206
      · have hzero : ¬0 < f.openStream.fileLen := by
          rw [hopen.fileLen, List.length_pos_iff]
          intro hne
          exact hdel ⟨h200, hne⟩
        exact ⟨f.openStream.partialContentIndex, by simp [onHeader, hcode, h200, hzero]⟩
      · exact ⟨parseField header httpContBytes, by simp [onHeader, hcode, h206]⟩
    obtain ⟨index, hon⟩ := hon
    refine ⟨_, hon, ?_⟩
    constructor
    · simp [hopen.phase]
    · simp
    · simp [hopen.disk, hbase]
    · simp [hfout, hdel]

/-- The file after the read that completes the header. -/
theorem disk_download_found (h : Awaiting f old t) {e : ℕ}
    (he : endOfHeader (t ++ rd.text p) = some e)
    (hcode : parseStatusLine p ((t ++ rd.text p).take e) = .ok r.code)
    (hstatus : r.code = 200 ∨ r.code = 206) (reads : List Read) :
    (Accepted p r old ((t ++ rd.text p).take e) rd e →
      (f.download p (rd :: reads)).disk.getD [] = base r old ++ (rd.data.drop e ++ Read.bytes reads)) ∧
    (¬Accepted p r old ((t ++ rd.text p).take e) rd e → (f.download p (rd :: reads)).disk.getD [] = base r old) := by
  obtain ⟨g, hstep, hg⟩ := h.opening he hcode hstatus
  rw [download_cons h.phase, hstep]
  obtain ⟨hsaved, hlost⟩ :=
    disk_download_beginBody (p := p) reads rd.data e hg.phase hg.fout hg.buffered
  rw [hg.header, hg.disk] at hsaved hlost
  constructor
  · intro hacc
    rw [hsaved ⟨hacc.length, hacc.inside⟩]
    simp [hacc.kept]
  · intro hacc
    by_cases hok : LengthOk p ((t ++ rd.text p).take e) ∧ e ≤ rd.data.length
    · have hdel : r.code = 200 ∧ old ≠ [] := by
        by_contra hkept
        exact hacc ⟨hok.1, hok.2, hkept⟩
      rw [hsaved hok]
      simp [hdel]
    · exact hlost hok

end Header

/-! ## The whole response -/

namespace Read
variable {p : Platform}

def texts (p : Platform) (reads : List Read) : Text := reads.flatMap (Read.text p)

@[simp] theorem bytes_append (a b : List Read) : bytes (a ++ b) = bytes a ++ bytes b := by
  simp [bytes]

@[simp] theorem texts_append (a b : List Read) : texts p (a ++ b) = texts p a ++ texts p b := by
  simp [texts]

@[simp] theorem bytes_cons (rd : Read) (reads : List Read) : bytes (rd :: reads) = rd.data ++ bytes reads := by
  simp [bytes]

@[simp] theorem texts_cons (rd : Read) (reads : List Read) : texts p (rd :: reads) = rd.text p ++ texts p reads := by
  simp [texts]

@[simp] theorem bytes_nil : bytes [] = [] := by simp [bytes]

@[simp] theorem texts_nil : texts p [] = [] := by simp [texts]

theorem length_texts_le (reads : List Read) : (texts p reads).length ≤ (bytes reads).length := by
  induction reads with
  | nil => simp
  | cons rd reads ih =>
    have hrd := rd.length_text_le p
    simp only [texts_cons, bytes_cons, List.length_append]
    omega

/-- ASCII at the beginning is read as it is, however it is cut. -/
theorem ascii_prefix_texts {a : List UInt8} {reads : List Read} (ha : ∀ x ∈ a, x < 128)
    (h : a <+: bytes reads) : ascii a <+: texts p reads := by
  induction reads generalizing a with
  | nil => simpa [ascii] using h
  | cons rd reads ih =>
    obtain ⟨c, hc⟩ := h
    rw [bytes_cons, List.append_eq_append_iff] at hc
    rcases hc with ⟨d, hd, -⟩ | ⟨d, hd, hrest⟩
    · -- all of it in the first read
      rw [texts_cons, rd.text_of_ascii p hd ha, List.append_assoc]
      exact List.prefix_append _ _
    · have hdata : ∀ x ∈ rd.data, x < 128 := fun x hx => ha x (by simp [hd, hx])
      have htext : rd.text p = ascii rd.data := by
        rw [rd.text_of_ascii p (List.append_nil _).symm hdata]
        simp
      have hrec := ih (fun x hx => ha x (by simp [hd, hx])) ⟨c, hrest.symm⟩
      rw [texts_cons, htext, hd]
      simpa [ascii] using hrec

/-- Reads that hold nothing but ASCII. -/
theorem texts_of_ascii {reads : List Read} (h : ∀ x ∈ bytes reads, x < 128) :
    texts p reads = ascii (bytes reads) := by
  have hpre := ascii_prefix_texts (p := p) h (List.prefix_refl _)
  have hle := length_texts_le (p := p) reads
  exact (hpre.eq_of_length_le (by simpa using hle)).symm

theorem eq_nil_of_bytes {reads : List Read} (h : bytes reads = []) : reads = [] := by
  cases reads with
  | nil => rfl
  | cons rd reads => simp [rd.nonempty] at h

end Read

/-- The search for the end of the header succeeds with this read, at position `e` of all the text. -/
structure Found (p : Platform) (before : List Read) (rd : Read) (e : ℕ) : Prop where
  pending : endOfHeader (Read.texts p before) = none
  here : endOfHeader (Read.texts p before ++ rd.text p) = some e

/-- The search fails in the text of all reads, or succeeds with one of them. -/
theorem found_or_none (p : Platform) (reads : List Read) :
    endOfHeader (Read.texts p reads) = none ∨
      ∃ before rd rest e, reads = before ++ rd :: rest ∧ Found p before rd e := by
  induction reads using List.reverseRecOn with
  | nil => exact .inl (by simp [endOfHeader, indexOf])
  | append_singleton reads rd ih =>
    rcases ih with hnone | ⟨before, rd', rest, e, rfl, hfound⟩
    · cases he : endOfHeader (Read.texts p reads ++ rd.text p) with
      | none => exact .inl (by simpa using he)
      | some e => exact .inr ⟨reads, rd, [], e, by simp, hnone, he⟩
    · exact .inr ⟨before, rd', rest ++ [rd], e, by simp, hfound⟩

section Reads
variable {p : Platform} {f : DTPNetFlow} {old : List UInt8} {r : Response} {rd : Read} {e : ℕ}
  {before rest reads : List Read}

theorem Awaiting.many {t : Text} (h : Awaiting f old t)
    (hnone : endOfHeader (t ++ Read.texts p before) = none) :
    ∃ g, Awaiting g old (t ++ Read.texts p before) ∧ ∀ rest, f.download p (before ++ rest) = g.download p rest := by
  induction before generalizing f t with
  | nil => exact ⟨f, by simpa using h, by simp⟩
  | cons rd before ih =>
    rw [Read.texts_cons, ← List.append_assoc] at hnone ⊢
    have hmore := h.more (Response.endOfHeader_append_none hnone)
    obtain ⟨g, hg, hrun⟩ := ih hmore hnone
    refine ⟨g, hg, fun rest => ?_⟩
    rw [List.cons_append, download_cons h.phase, hrun]

/-- Without an end of the header nothing is written. -/
theorem disk_download_none (h : Awaiting f old [])
    (hnone : endOfHeader (Read.texts p reads) = none) : (f.download p reads).disk.getD [] = old := by
  obtain ⟨g, hg, hrun⟩ := h.many (by simpa using hnone)
  have hbuf : g.buffered = [] := by
    rcases hg.fout with hf | hf
    · simp [buffered, hf]
    · simp [buffered, hf]
  have hend := hrun []
  rw [List.append_nil] at hend
  rw [hend, disk_download_nil hg.phase, content, hbuf, hg.disk, List.append_nil]

/-- The status is in front of the end that is found. -/
theorem Found.status (hfound : Found p before rd e) (hall : Read.bytes (before ++ [rd]) <+: r.bytes) :
    ascii r.statusBytes <+: Read.texts p before ++ rd.text p := by
  have htexts : Read.texts p before ++ rd.text p = Read.texts p (before ++ [rd]) := by simp
  have hstatus : r.statusBytes <+: r.bytes :=
    r.statusBytes_prefix_header.trans (List.prefix_append _ _)
  rw [htexts]
  rcases List.prefix_or_prefix_of_prefix hstatus hall with hle | hlt
  · exact Read.ascii_prefix_texts r.statusBytes_ascii hle
  · -- there is no line feed in front of the status
    have hascii : Read.texts p (before ++ [rd]) = ascii (Read.bytes (before ++ [rd])) :=
      Read.texts_of_ascii fun x hx => r.statusBytes_ascii x (hlt.subset hx)
    have hhere := hfound.here
    rw [htexts, hascii] at hhere
    obtain ⟨i, -, hi⟩ := Response.lf_of_endOfHeader hhere
    have hmem := List.mem_of_getElem? ((getElem?_ascii _ i 10).mp hi)
    exact absurd (hlt.subset hmem) r.noLF_statusBytes

/-- The header as the code takes it from the text. -/
def headerOf (p : Platform) (before : List Read) (rd : Read) (e : ℕ) : Text :=
  (Read.texts p before ++ rd.text p).take e

/-- The file after a response whose header is found. -/
theorem disk_download_of_found (h : Awaiting f old []) (hstatus : r.code = 200 ∨ r.code = 206)
    (hcut : Cut r (before ++ rd :: rest)) (hfound : Found p before rd e) :
    (Accepted p r old (headerOf p before rd e) rd e → (f.download p (before ++ rd :: rest)).disk.getD [] =
        base r old ++ r.bytes.drop ((Read.bytes before).length + e)) ∧
    (¬Accepted p r old (headerOf p before rd e) rd e →
      (f.download p (before ++ rd :: rest)).disk.getD [] = base r old) := by
  obtain ⟨g, hg, hrun⟩ := h.many (by simpa using hfound.pending)
  rw [List.nil_append] at hg
  have hall : Read.bytes (before ++ [rd]) <+: r.bytes := ⟨Read.bytes rest, by simpa [Cut] using hcut⟩
  have hcode := r.parseStatusLine_found p (hfound.status hall) hfound.here
  obtain ⟨hsaved, hlost⟩ := disk_download_found hg hfound.here hcode hstatus rest
  rw [hrun]
  refine ⟨fun hacc => ?_, hlost⟩
  have hbytes : r.bytes.drop ((Read.bytes before).length + e) = rd.data.drop e ++ Read.bytes rest := by
    rw [← hcut, Read.bytes_append, Read.bytes_cons, ← List.drop_drop, List.drop_left,
      List.drop_append_of_le_length hacc.inside]
  rw [hsaved hacc, hbytes]

end Reads

/-- The file holds what it should. -/
def Saved (p : Platform) (f : DTPNetFlow) (r : Response) (reads : List Read) : Prop :=
  (f.download p reads).disk.getD [] = base r (f.disk.getD []) ++ r.body

/-- The end of the header is found in a read, and if the body is accepted the position in that read is
the one at which the body begins; else there is no body. If the end is not found the file must be
right as it is. -/
def WellCut (p : Platform) (f : DTPNetFlow) (r : Response) (reads : List Read) : Prop :=
  (∃ before rd rest e, reads = before ++ rd :: rest ∧ Found p before rd e ∧
    (Accepted p r (f.disk.getD []) (headerOf p before rd e) rd e → (Read.bytes before).length + e = r.header.length) ∧
    (¬Accepted p r (f.disk.getD []) (headerOf p before rd e) rd e → r.body = [])) ∨
  (endOfHeader (Read.texts p reads) = none ∧ f.disk.getD [] = base r (f.disk.getD []) ++ r.body)

/-- The first read holds the whole header, its end is found there, and the body is accepted. -/
def InFirst (p : Platform) (f : DTPNetFlow) (r : Response) (reads : List Read) : Prop :=
  ∃ rd rest, reads = rd :: rest ∧ endOfHeader (rd.text p) = some r.header.length ∧
    Accepted p r (f.disk.getD []) ((rd.text p).take r.header.length) rd r.header.length

section Saved
variable {p : Platform} {f : DTPNetFlow} {r : Response} {reads : List Read}

/-- The body is what comes after the header. -/
theorem drop_bytes_eq_body {n : ℕ} (hn : n ≤ r.bytes.length) : r.bytes.drop n = r.body ↔ n = r.header.length := by
  constructor
  · intro h
    have hlen := congrArg List.length h
    rw [List.length_drop] at hlen
    simp only [Response.bytes, List.length_append] at hlen hn
    omega
  · rintro rfl
    rw [Response.bytes, List.drop_left]

/-- What the end that is found decides. -/
theorem saved_iff_of_found (hready : Ready f) (hstatus : r.code = 200 ∨ r.code = 206) {before rest : List Read}
    {rd : Read} {e : ℕ} (hcut : Cut r (before ++ rd :: rest)) (hfound : Found p before rd e) :
    Saved p f r (before ++ rd :: rest) ↔
    (Accepted p r (f.disk.getD []) (headerOf p before rd e) rd e → (Read.bytes before).length + e = r.header.length) ∧
    (¬Accepted p r (f.disk.getD []) (headerOf p before rd e) rd e → r.body = []) := by
  obtain ⟨hkept, hlost⟩ := disk_download_of_found hready hstatus hcut hfound
  by_cases hacc : Accepted p r (f.disk.getD []) (headerOf p before rd e) rd e
  · have htotal : (Read.bytes before).length + rd.data.length ≤ r.bytes.length := by
      rw [← hcut]
      simp
    have hinside := hacc.inside
    rw [Saved, hkept hacc, List.append_cancel_left_eq, drop_bytes_eq_body (by omega)]
    simp [hacc]
  · rw [Saved, hlost hacc]
    simp [hacc]

theorem saved_of_wellCut (hready : Ready f) (hstatus : r.code = 200 ∨ r.code = 206)
    (hcut : Cut r reads) (hwell : WellCut p f r reads) : Saved p f r reads := by
  rcases hwell with ⟨before, rd, rest, e, rfl, hfound, hwell⟩ | ⟨hnone, hright⟩
  · exact (saved_iff_of_found hready hstatus hcut hfound).mpr hwell
  · rw [Saved, disk_download_none hready hnone]
    exact hright

theorem wellCut_of_saved (hready : Ready f) (hstatus : r.code = 200 ∨ r.code = 206)
    (hcut : Cut r reads) (hsaved : Saved p f r reads) : WellCut p f r reads := by
  rcases found_or_none p reads with hnone | ⟨before, rd, rest, e, rfl, hfound⟩
  · rw [Saved, disk_download_none hready hnone] at hsaved
    exact .inr ⟨hnone, hsaved⟩
  · have hwell := (saved_iff_of_found hready hstatus hcut hfound).mp hsaved
    exact .inl ⟨before, rd, rest, e, rfl, hfound, hwell⟩

/-! ### ASCII headers -/

/-- The end of an ASCII header is found once all of it has been read, and not in front of its end. -/
theorem ascii_found (hascii : r.Ascii) {before rest : List Read} {rd : Read} {e : ℕ}
    (hcut : Cut r (before ++ rd :: rest)) (hfound : Found p before rd e) :
    (Read.bytes before).length < r.header.length ∧ r.header.length ≤ e := by
  have hheader : r.header <+: r.bytes := List.prefix_append _ _
  have hbefore : Read.bytes before <+: r.bytes := ⟨_, by simpa [Cut] using hcut⟩
  have hall : Read.bytes (before ++ [rd]) <+: r.bytes := ⟨Read.bytes rest, by simpa [Cut] using hcut⟩
  have htexts : Read.texts p before ++ rd.text p = Read.texts p (before ++ [rd]) := by simp
  constructor
  · by_contra hge
    obtain ⟨u, hu⟩ := Read.ascii_prefix_texts (p := p) hascii
      (List.prefix_of_prefix_length_le hheader hbefore (by omega))
    obtain ⟨k, hk, -⟩ := r.endOfHeader_header_append u
    rw [hu, hfound.pending] at hk
    simp at hk
  · have hhere := hfound.here
    rw [htexts] at hhere
    by_cases hlen : (Read.bytes (before ++ [rd])).length < r.header.length
    · -- not all of the header has been read
      have hpart := List.prefix_of_prefix_length_le hall hheader (by omega)
      have hnone := r.endOfHeader_take_header hlen
      rw [← List.prefix_iff_eq_take.mp hpart,
        ← Read.texts_of_ascii (p := p) fun x hx => hascii x (hpart.subset hx), hhere] at hnone
      simp at hnone
    · obtain ⟨u, hu⟩ := Read.ascii_prefix_texts (p := p) hascii
        (List.prefix_of_prefix_length_le hheader hall (by omega))
      obtain ⟨k, hk, hge, -⟩ := r.endOfHeader_header_append u
      rw [hu, hhere, Option.some.injEq] at hk
      omega

theorem ascii_not_none (hascii : r.Ascii) (hcut : Cut r reads) : endOfHeader (Read.texts p reads) ≠ none := by
  have hpre : r.header <+: Read.bytes reads := by
    rw [hcut]
    exact List.prefix_append _ _
  obtain ⟨u, hu⟩ := Read.ascii_prefix_texts (p := p) hascii hpre
  obtain ⟨k, hk, -⟩ := r.endOfHeader_header_append u
  rw [← hu, hk]
  simp

/-- A response with an ASCII header is well cut if there is no body, or if the first read shows where
the header ends. -/
theorem wellCut_ascii_iff (hascii : r.Ascii) (hcut : Cut r reads) :
    WellCut p f r reads ↔ r.body = [] ∨ InFirst p f r reads := by
  constructor
  · rintro (⟨before, rd, rest, e, rfl, hfound, hpos, hno⟩ | ⟨hnone, -⟩)
    · by_cases hacc : Accepted p r (f.disk.getD []) (headerOf p before rd e) rd e
      · have hge := (ascii_found hascii hcut hfound).2
        have hsum := hpos hacc
        have hnil : before = [] := Read.eq_nil_of_bytes (List.eq_nil_of_length_eq_zero (by omega))
        have heq : e = r.header.length := by omega
        subst hnil
        rw [heq] at hacc hfound
        exact .inr ⟨rd, rest, rfl, hfound.here, hacc⟩
      · exact .inl (hno hacc)
    · exact absurd hnone (ascii_not_none hascii hcut)
  · rintro (hbody | ⟨rd, rest, rfl, hhere, hacc⟩)
    · rcases found_or_none p reads with hnone | ⟨before, rd, rest, e, rfl, hfound⟩
      · exact absurd hnone (ascii_not_none hascii hcut)
      · refine .inl ⟨before, rd, rest, e, rfl, hfound, fun hacc => ?_, fun _ => hbody⟩
        have hge := (ascii_found hascii hcut hfound).2
        have hinside := hacc.inside
        have hlen := congrArg List.length hcut
        simp only [Response.bytes, hbody, Read.bytes_append, Read.bytes_cons, List.length_append,
          List.length_nil] at hlen
        omega
    · refine .inl ⟨[], rd, rest, r.header.length, rfl, ⟨?_, hhere⟩, fun _ => by simp, ?_⟩
      · simp [endOfHeader, indexOf]
      · intro hnot
        exact absurd hacc hnot

/-- The body is saved exactly if the response is well cut. With an ASCII header that means that there
is no body, or that the first read holds the whole header and shows where it ends. -/
theorem saved_iff_wellCut (hready : Ready f) (hstatus : r.code = 200 ∨ r.code = 206) (hcut : Cut r reads) :
    (Saved p f r reads ↔ WellCut p f r reads) ∧
    (r.Ascii → (WellCut p f r reads ↔ r.body = [] ∨ InFirst p f r reads)) := by
  constructor
  · constructor
    · exact wellCut_of_saved hready hstatus hcut
    · exact saved_of_wellCut hready hstatus hcut
  · intro hascii
    exact wellCut_ascii_iff hascii hcut

end Saved

/-! ### A response of one byte -/

def newDownload : DTPNetFlow :=
  step latin1 { url := some (.of "http://a/"), disk := none } .added

/-- ` OK` -/
def okReason : List UInt8 := [32, 79, 75]

theorem noLF_okReason : 10 ∉ okReason := by decide

/-- `HTTP/1.1 200 OK`, no header lines, and the body `A`. -/
def oneByte : Response where
  minor := true
  blanks := 1
  status := (2, 0, 0)
  reason := okReason
  statusEol := .crlf
  lines := []
  blank := .crlf
  body := [65]
  noLF := noLF_okReason

/-- A read into a buffer that held zeros. -/
def Read.clean (data : List UInt8) (nonempty : data ≠ []) (fits : data.length ≤ bufsize) : Read where
  data := data
  stale := List.replicate (bufsize - data.length) 0
  wrote := true
  nonempty := nonempty
  full := by simp [fits]

def oneByteWhole : List Read := [Read.clean oneByte.bytes (by decide) (by decide)]

/-- In two reads, the first of one byte. -/
def oneByteCut : List Read :=
  [Read.clean (oneByte.bytes.take 1) (by decide) (by decide), Read.clean (oneByte.bytes.drop 1) (by decide) (by decide)]

theorem saved_oneByteWhole : Saved latin1 newDownload oneByte oneByteWhole := by
  have hready : Ready newDownload := ready_added latin1 (by decide) none
  have hfound : endOfHeader (Read.text latin1 (Read.clean oneByte.bytes (by decide) (by decide))) =
      some oneByte.header.length := by
    decide +kernel
  have hlength : LengthOk latin1
      ((Read.text latin1 (Read.clean oneByte.bytes (by decide) (by decide))).take
        oneByte.header.length) := by
    decide +kernel
  obtain ⟨hsaved, hfirst⟩ := saved_iff_wellCut (p := latin1) (f := newDownload) (r := oneByte)
    hready (.inl (by decide)) (show Cut oneByte oneByteWhole by decide)
  rw [hsaved, hfirst (by decide)]
  exact .inr ⟨_, _, rfl, hfound, hlength, by decide, by decide⟩

/-- The end of the header is at position 19 of the response, and so is all that the second read
holds: nothing is left for the file. -/
theorem not_saved_oneByteCut : Ready newDownload ∧ oneByte.code = 200 ∧ oneByte.Ascii ∧ Cut oneByte oneByteCut ∧
    (newDownload.download latin1 oneByteCut).disk = some [] ∧ ¬Saved latin1 newDownload oneByte oneByteCut := by
  have hdisk : (newDownload.download latin1 oneByteCut).disk = some [] := by decide +kernel
  refine ⟨ready_added latin1 (by decide) none, by decide, by decide, by decide, hdisk, ?_⟩
  rw [Saved, hdisk]
  decide

end Cedos.ReadyCast
