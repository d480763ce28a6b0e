import Cedos.Lib.Search

/-!
# Downloads of ReadyCast

`DTPNetThread.run` reads from the DTP connections of all downloads into one buffer. Until the
response of a download has been parsed, the text of what has been read is collected in
`DTPNetFlow.header`; from then on everything goes to the file of the download. A failed connection is
opened again, with a request for what comes after the end of the file.

A download is seen here together with its file and the stream that `run` writes it through. The
stream holds back up to 8192 bytes. A file that is deleted while a stream is open loses what the
stream still writes. The storage itself does not fail. The progress that is shown to the user is
left out.

The strings of Java are sequences of UTF-16 units. An exception that nobody catches ends the thread.
-/

namespace Cedos.ReadyCast

/-! ## Java -/

/-- A string. -/
abbrev Text := List UInt16

/-- The text of a literal. -/
def Text.of (s : String) : Text := s.toList.map fun c => c.toNat.toUInt16

/-- An exception that is not caught. -/
inductive Thrown
  | outOfBounds
  | nullPointer
  | numberFormat
  deriving DecidableEq, Repr

/-- `Charset.decode` with the default charset, and `Integer.parseInt`. -/
structure Platform where
  /-- `new String (bytes)` -/
  decode : List UInt8 → Text
  /-- `none` is a `NumberFormatException` -/
  parseInt : Text → Option ℤ
  /-- the charset contains ASCII -/
  decode_ascii : ∀ a b : List UInt8, (∀ x ∈ a, x < 128) → decode (a ++ b) = a.map UInt8.toUInt16 ++ decode b
  parseInt_digits : ∀ a b c : Fin 10, parseInt [UInt16.ofNat (48 + a), UInt16.ofNat (48 + b), UInt16.ofNat (48 + c)] =
      some (100 * a + 10 * b + c : ℕ)

/-- There are ten digits. -/
instance neZeroTen : NeZero 10 := ⟨by decide⟩

/-- A number without a sign. -/
def parseDigits (t : Text) : Option ℤ :=
  if t ≠ [] ∧ t.all fun c => 48 ≤ c ∧ c ≤ 57 then
    some (t.foldl (fun n c => 10 * n + (c.toNat - 48 : ℕ)) 0)
  else none

/-- ISO-8859-1, and numbers without a sign. -/
def latin1 : Platform where
  decode bs := bs.map UInt8.toUInt16
  parseInt := parseDigits
  decode_ascii a b _ := List.map_append
  parseInt_digits := by decide +kernel

/-! ## Constants -/

def http1 : Text := .of "HTTP/1."
def httpContLength : Text := .of "Content-Length: "
def httpContBytes : Text := .of "Content-Range: bytes "
def httpContRange : Text := .of "Content-Range: bytes */"
def httpLocation : Text := .of "Location: "
def httpScheme : Text := .of "http://"
def maxRetry : ℕ := 5
/-- `bufsize`, the length of `read_buf`. -/
def bufsize : ℕ := 32000
/-- The size of the buffer of a `BufferedOutputStream`. -/
def streamBuf : ℕ := 8192

/-! ## Reading a header -/

/-- Where the text after the header begins: the first empty line that ends with `\n`, or else the
first that ends with `\r\n`. -/
def endOfHeader (t : Text) : Option ℕ :=
  match indexOf [10, 10] t with
  | some i => some (i + 2)
  | none => (indexOf [10, 13, 10] t).map (· + 3)

/-- `parseStatusLine`: the status, or `-1`. -/
def parseStatusLine (p : Platform) (header : Text) : Except Thrown ℤ :=
  match indexOf [10] header with
  | none => .error .outOfBounds
  | some k =>
    let statusLine := header.take k
    if indexOf http1 statusLine ≠ some 0 then .ok (-1)
    else match statusLine[http1.length]? with
      | none => .error .outOfBounds
      | some n =>
        if n ≠ 48 ∧ n ≠ 49 then .ok (-1)
        else
          let rest := (statusLine.drop (http1.length + 1)).dropWhile (· = 32)
          if rest.length < 3 then .error .outOfBounds
          else .ok ((p.parseInt (rest.take 3)).getD (-1))

/-- `parseField`. The value ends before the last character of its line, which is taken to be a
`\r`. -/
def parseField (header field : Text) : Option Text :=
  match indexOf field header with
  | none => none
  | some i =>
    let pick := i + field.length
    match indexFrom [10] header pick with
    | none => none
    | some k => if k < pick + 1 then none else some ((header.take (k - 1)).drop pick)

/-! ## A download -/

/-- Where a download stands. -/
inductive Phase
  | active
  /-- reported as complete, and taken from the list -/
  | finished
  /-- taken from the list -/
  | removed
  /-- `run` has returned -/
  | left
  | died (t : Thrown)
  deriving DecidableEq, Repr

/-- A `BufferedOutputStream` over a `FileOutputStream`. -/
structure Stream where
  pending : List UInt8
  /-- the file it was opened on is still the one at `file_path` -/
  attached : Bool
  deriving DecidableEq, Repr

/-- `DTPNetFlow`, with the file at `file_path` and the offsets that have been asked for. -/
structure DTPNetFlow where
  url : Option Text
  header : Text := []
  isResponseParsed : Bool := false
  fileLen : ℕ := 0
  downLen : ℕ := 0
  totalLen : ℤ := 0
  /-- `-` at first -/
  partialContentIndex : Option Text := some [45]
  retryNum : ℕ := 0
  fout : Option Stream := none
  disk : Option (List UInt8)
  requests : List ℕ := []
  phase : Phase := .active
  deriving DecidableEq, Repr

namespace DTPNetFlow

/-! ### The file -/

/-- `new File (file_path).length ()`. -/
def fileLength (f : DTPNetFlow) : ℕ := (f.disk.getD []).length

/-- Bytes leave the stream. -/
def emit (f : DTPNetFlow) (s : Stream) (bs : List UInt8) : DTPNetFlow :=
  if s.attached then { f with disk := some (f.disk.getD [] ++ bs) } else f

/-- Open the stream for appending, if there is none. -/
def openStream (f : DTPNetFlow) : DTPNetFlow :=
  match f.fout with
  | some _ => f
  | none => { f with disk := some (f.disk.getD []), fout := some ⟨[], true⟩ }

/-- `fout.write`. -/
def write (f : DTPNetFlow) (bs : List UInt8) : DTPNetFlow :=
  match f.fout with
  | none => { f with phase := .died .nullPointer }
  | some s =>
    if streamBuf ≤ bs.length then
      { f.emit s (s.pending ++ bs) with fout := some { s with pending := [] } }
    else if streamBuf < s.pending.length + bs.length then
      { f.emit s s.pending with fout := some { s with pending := bs } }
    else { f with fout := some { s with pending := s.pending ++ bs } }

/-- `fout.flush` and `fout.close`, if there is a stream. -/
def closeStream (f : DTPNetFlow) : DTPNetFlow :=
  match f.fout with
  | none => f
  | some s => { f.emit s s.pending with fout := some { s with pending := [] } }

def deleteFile (f : DTPNetFlow) : DTPNetFlow :=
  { f with
    disk := none
    fout := f.fout.map fun s => { s with attached := false }
    fileLen := 0 }

/-! ### Connections -/

/-- The URL can be split into a host and a path. -/
def splits (url : Text) : Bool :=
  let url := if httpScheme <+: url then url.drop httpScheme.length else url
  (indexOf [47] url).isSome

/-- `SendRequestToDProx`; the request has a range if the length is not `0`. -/
def sendRequestToDProx (f : DTPNetFlow) : DTPNetFlow :=
  match f.url with
  | none => { f with phase := .died .nullPointer }
  | some url =>
    if splits url then { f with requests := f.requests ++ [f.fileLen], header := [] }
    else { f with phase := .died .outOfBounds }

/-- `addNewConnection`. That the request could not be sent is only logged. -/
def addNewConnection (f : DTPNetFlow) : DTPNetFlow :=
  { f with fileLen := f.fileLength }.sendRequestToDProx

/-- The end of the branch for a status of 504. The download is given up, or its request is sent once
more; the flag says that the header goes on to be parsed, since the request could not be sent. -/
def retry (f : DTPNetFlow) (wrote : Bool) : DTPNetFlow × Bool :=
  let f := { f with retryNum := f.retryNum + 1 }
  if maxRetry < f.retryNum then ({ f with phase := .removed }, false)
  else
    let f := { f with fileLen := f.fileLength }
    match f.url with
    | none => ({ f with phase := .died .nullPointer }, false)
    | some url =>
      if !splits url then ({ f with phase := .died .outOfBounds }, false)
      else if wrote then ({ f with requests := f.requests ++ [f.fileLen], header := [] }, false)
      else (f, true)

/-! ### Reading -/

/-- The file grows by what is written. -/
def save (f : DTPNetFlow) (bs : List UInt8) : DTPNetFlow :=
  let f := f.write bs
  { f with fileLen := f.fileLen + bs.length, downLen := f.downLen + bs.length }

/-- The header has been accepted: `data` is the last read, and the body is taken to begin at position
`enter` of it. -/
def beginBody (p : Platform) (f : DTPNetFlow) (data : List UInt8) (enter : ℕ) : DTPNetFlow :=
  let go (f : DTPNetFlow) : DTPNetFlow :=
    if enter ≤ data.length then { f.save (data.drop enter) with isResponseParsed := true }
    else { f with phase := .died .outOfBounds }
  match parseField f.header httpContLength with
  | none => go f
  | some v =>
    match p.parseInt v with
    | none => { f with phase := .died .numberFormat }
    | some n => go { f with totalLen := f.fileLen + n }

/-- A status that leaves the download to be asked for again. -/
def tryAgain (p : Platform) (f : DTPNetFlow) (data : List UInt8) (enter : ℕ) (wrote : Bool) :
    DTPNetFlow :=
  match f.retry wrote with
  | (f, false) => f
  | (f, true) => beginBody p f data enter

/-- The header is complete; `enter` is where it ends. -/
def onHeader (p : Platform) (f : DTPNetFlow) (data : List UInt8) (enter : ℕ) (wrote : Bool) :
    DTPNetFlow :=
  match parseStatusLine p f.header with
  | .error t => { f with phase := .died t }
  | .ok code =>
    if code = -1 then { f with phase := .left }
    else if code = 200 then beginBody p (if 0 < f.fileLen then f.deleteFile else f) data enter
    else if code = 206 then
      beginBody p { f with partialContentIndex := parseField f.header httpContBytes } data enter
    else if code = 301 ∨ code = 302 then
      { f with url := parseField f.header httpLocation }.addNewConnection
    else if code = 404 then { f with phase := .removed }
    else if code = 416 then
      let f := { f with fileLen := f.fileLength }
      match parseField f.header httpContRange with
      | none => tryAgain p f data enter wrote
      | some v =>
        match p.parseInt v with
        | none => { f with phase := .died .numberFormat }
        | some n => if f.fileLen = n then { f with phase := .finished } else tryAgain p f data enter wrote
    else if code = 504 then tryAgain p f data enter wrote
    else { f with phase := .removed }

/-- `dtpread` has filled the buffer with `data`; `stale` is what the rest of the buffer still holds
from earlier reads. -/
def receive (p : Platform) (f : DTPNetFlow) (data stale : List UInt8) (wrote : Bool) : DTPNetFlow :=
  if f.isResponseParsed then f.save data
  else
    let f := f.openStream
    let text := f.header ++ (p.decode (data ++ stale)).take data.length
    match endOfHeader text with
    | none => { f with header := text }
    | some enter => onHeader p { f with header := text.take enter } data enter wrote

/-- `partialContentIndex.equals ("-")`, which is evaluated for a log entry. -/
def logs (f : DTPNetFlow) (g : DTPNetFlow → DTPNetFlow) : DTPNetFlow :=
  match f.partialContentIndex with
  | none => { f with phase := .died .nullPointer }
  | some _ => g f

end DTPNetFlow

/-- What happens to a download in one round of `run`. -/
inductive NetEvent
  /-- `status` is `1`: it is new -/
  | added
  | data (data stale : List UInt8) (wrote : Bool)
  /-- `dtpread` returns `-EAGAIN` -/
  | again
  /-- `dtpread` returns another error: the connection is opened again -/
  | failed
  /-- `dtpread` returns `0` -/
  | closed
  /-- `status` is `2` -/
  | cancelled
  /-- the device shuts down -/
  | interrupted

namespace DTPNetFlow

/-- One round. -/
def step (p : Platform) (f : DTPNetFlow) : NetEvent → DTPNetFlow
  | .added => f.addNewConnection
  | .data data stale wrote => f.receive p data stale wrote
  | .again => f
  | .failed => f.logs addNewConnection
  | .closed => f.closeStream.logs fun f => { f with phase := .finished }
  | .cancelled => f.closeStream.logs fun f => { f with phase := .removed }
  | .interrupted => f.closeStream.logs fun f => { f with phase := .left }

end DTPNetFlow
end Cedos.ReadyCast
