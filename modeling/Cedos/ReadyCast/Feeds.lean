import Cedos.Lib.Json
import Cedos.ReadyCast.Flow

/-!
# Saved feeds

`ReadyCastFileIO` keeps the list of feeds in one file, and the items of each feed in a file in a
directory that is named after the title of the feed. The files are JSON arrays.

Loading is meant to undo saving, but several things are in the way. A string that is `null` has no key
in the file, and the first key that is missing ends the reading of its object. The sizes and times of
items are `long`, and are read as `Integer`. The time `pubDate` is saved and not read. A file is
read through a buffer of 32000 characters that is taken as a whole after each read, however much has
been read. Feeds can share a directory. By intention, an item that counts as downloaded is compared
with its media file.

The directory of the application is there, and the storage itself does not fail. A file is the
sequence of characters that has been written to it.
-/

namespace Cedos.ReadyCast

/-! ## `org.json` -/

/-- The keys of the saved objects. -/
inductive Key
  | title
  | description
  | pubDate
  | pubDateStr
  | link
  | enclosureUrl
  | enclosureLen
  | deadlineSec
  | status
  | fileName
  | uuid
  | url
  | id
  | schedTime
  deriving DecidableEq, Repr

/-- A value: a string or a number. -/
abbrev Value := Json.Scalar

/-- `JSONObject`. -/
def JSONObject := Key → Option Value

/-- An exception that `get` and the cast of its result can raise. -/
inductive Fault
  /-- `JSONException` -/
  | json
  /-- `ClassCastException` -/
  | classCast
  deriving DecidableEq, Repr

namespace JSONObject

def new : JSONObject := fun _ => none

/-- `put`; `null` removes the key. -/
def put (o : JSONObject) (key : Key) (value : Option Value) : JSONObject := Function.update o key value

def putString (o : JSONObject) (key : Key) (s : Option Text) : JSONObject := o.put key (s.map .str)

def putLong (o : JSONObject) (key : Key) (n : ℤ) : JSONObject := o.put key (some (.num n))

/-- `(String) get`. -/
def getString (o : JSONObject) (key : Key) : Except Fault Text :=
  match o key with
  | none => .error .json
  | some (.str s) => .ok s
  | some (.num _) => .error .classCast

/-- A number that is read as an `Integer`, not as a `Long`. -/
def FitsInteger (n : ℤ) : Prop := -2 ^ 31 ≤ n ∧ n < 2 ^ 31

instance (n : ℤ) : Decidable (FitsInteger n) := inferInstanceAs (Decidable (_ ∧ _))

/-- `(Integer) get`. -/
def getInteger (o : JSONObject) (key : Key) : Except Fault Int32 :=
  match o key with
  | none => .error .json
  | some (.num n) => if FitsInteger n then .ok (Int32.ofInt n) else .error .classCast
  | some (.str _) => .error .classCast

end JSONObject

/-- `JSONArray.toString`, and `new JSONArray` from a string that begins with an array. -/
structure OrgJson where
  print : List JSONObject → Text
  /-- `none` is a `JSONException` -/
  parse : Text → Option (List JSONObject)
  parse_print : ∀ a rest, parse (print a ++ rest) = some a
  parse_nil : parse [] = none

section Constructor
variable {σ : Type}

def Assignment (σ : Type) := JSONObject → σ → Except Fault σ

def stringField (key : Key) (set : σ → Text → σ) : Assignment σ := fun o s =>
  (o.getString key).map (set s)

def integerField (key : Key) (set : σ → Int32 → σ) : Assignment σ := fun o s =>
  (o.getInteger key).map (set s)

/-- Assignments up to the first `JSONException`, which is caught. -/
def assignAll (o : JSONObject) : List (Assignment σ) → σ → Except Fault σ
  | [], s => .ok s
  | a :: as, s =>
    match a o s with
    | .ok s => assignAll o as s
    | .error .json => .ok s
    | .error .classCast => .error .classCast

end Constructor

/-! ## Items -/

/-- `null` in a path. -/
def nullText : Text := .of "null"

/-- `RSSItem.NONE`. -/
def statusNone : Int32 := 0
/-- `RSSItem.DOWNLOADING`. -/
def statusDownloading : Int32 := 2
/-- `RSSItem.DOWNLOADED`. -/
def statusDownloaded : Int32 := 3
def statusDownloadedPlayed : Int32 := 4

/-- The fields of an `RSSItem` that are saved. -/
structure RSSItem where
  title : Option Text := some []
  description : Option Text := some []
  pubDateStr : Option Text := none
  pubDate : Int64 := 0
  link : Option Text := some []
  enclosureUrl : Option Text := some []
  enclosureLen : Int64 := 0
  deadlineSec : Int64 := 0
  uuid : Option Text := some []
  status : Int32 := statusNone
  fileName : Option Text := some []
  deriving DecidableEq

namespace RSSItem

/-- `toJSONObject`. -/
def toJSONObject (it : RSSItem) : JSONObject :=
  JSONObject.new
    |>.putString .title it.title
    |>.putString .description it.description
    |>.putLong .pubDate it.pubDate.toInt
    |>.putString .pubDateStr it.pubDateStr
    |>.putString .link it.link
    |>.putString .enclosureUrl it.enclosureUrl
    |>.putLong .enclosureLen it.enclosureLen.toInt
    |>.putLong .deadlineSec it.deadlineSec.toInt
    |>.putLong .status it.status.toInt
    |>.putString .fileName it.fileName
    |>.putString .uuid it.uuid

/-- The assignments of the constructor. -/
def fields : List (Assignment RSSItem) :=
  [stringField .title fun it v => { it with title := some v },
    stringField .description fun it v => { it with description := some v },
    stringField .pubDateStr fun it v => { it with pubDateStr := some v },
    stringField .link fun it v => { it with link := some v },
    stringField .enclosureUrl fun it v => { it with enclosureUrl := some v },
    integerField .enclosureLen fun it v => { it with enclosureLen := v.toInt64 },
    integerField .deadlineSec fun it v => { it with deadlineSec := v.toInt64 },
    integerField .status fun it v => { it with status := v },
    stringField .fileName fun it v => { it with fileName := some v },
    stringField .uuid fun it v => { it with uuid := some v }]

/-- `new RSSItem`. -/
def new (o : JSONObject) : Except Fault RSSItem := assignAll o fields {}

/-- It counts as downloaded. -/
def Downloaded (it : RSSItem) : Prop := it.status = statusDownloaded ∨ it.status = statusDownloadedPlayed

instance (it : RSSItem) : Decidable it.Downloaded := inferInstanceAs (Decidable (_ ∨ _))

/-- How much of the media file is there; `0` for an item of unknown length. -/
def percent (it : RSSItem) (fileLen : Int64) : Int32 :=
  if 0 < it.enclosureLen then ((fileLen * 100) / it.enclosureLen).toInt32 else 0

/-- The comparison of a loaded item with its media file; `media` gives the lengths of files. -/
def checkMedia (media : Text → Option Int64) (it : RSSItem) : RSSItem :=
  if it.Downloaded then
    match media (it.fileName.getD nullText) with
    | none => { it with enclosureLen := 0, status := statusNone }
    | some fileLen =>
      if it.percent fileLen ≠ 100 then { it with status := statusDownloading } else it
  else it

end RSSItem

/-! ## Feeds -/

/-- The fields of an `RSSFeed` that are saved, and its items. -/
structure RSSFeed where
  url : Option Text := none
  title : Option Text := none
  link : Option Text := none
  description : Option Text := none
  itunesId : Option Text := none
  /-- in minutes -/
  schedTime : Int32 := -1
  items : List RSSItem := []
  deriving DecidableEq

namespace RSSFeed

/-- `toJSONObject`. -/
def toJSONObject (feed : RSSFeed) : JSONObject :=
  JSONObject.new
    |>.putString .title feed.title
    |>.putString .description feed.description
    |>.putString .link feed.link
    |>.putString .url feed.url
    |>.putString .id feed.itunesId
    |>.putLong .schedTime feed.schedTime.toInt

/-- The assignments of the constructor. -/
def fields : List (Assignment RSSFeed) :=
  [stringField .title fun feed v => { feed with title := some v },
    stringField .description fun feed v => { feed with description := some v },
    stringField .link fun feed v => { feed with link := some v },
    stringField .url fun feed v => { feed with url := some v },
    stringField .id fun feed v => { feed with itunesId := some v },
    integerField .schedTime fun feed v => { feed with schedTime := v }]

/-- `new RSSFeed`. -/
def new (o : JSONObject) : Except Fault RSSFeed := assignAll o fields {}

end RSSFeed

/-! ## Files -/

/-- The length of the buffer. -/
def charBuf : ℕ := 32000

/-- The storage: where the path of the items of a feed leads, and the lengths of media files. -/
structure Storage where
  /-- `none` if there is no such directory -/
  place : Text → Option ℕ
  media : Text → Option Int64

def Storage.ofFeed (st : Storage) (feed : RSSFeed) : Option ℕ := st.place (feed.title.getD nullText)

/-- The files. -/
structure Disk where
  feeds : Option Text
  items : ℕ → Option Text

/-- What `FileReader.read` returns for the files that are opened one after the other. -/
structure Reader where
  chunks : ℕ → Text → List Text
  flatten : ∀ i t, (chunks i t).flatten = t
  nonempty : ∀ i t, [] ∉ chunks i t
  fits : ∀ i t, ∀ c ∈ chunks i t, c.length ≤ charBuf

/-- Every read but the last of the file that is opened as the `i`-th fills the buffer. -/
def Reader.FullAt (rd : Reader) (i : ℕ) (t : Text) : Prop := ∀ c ∈ (rd.chunks i t).dropLast, c.length = charBuf

/-- The same for the list of the feeds and then the items of one feed after the other. -/
structure Reader.Full (rd : Reader) (st : Storage) (d : Disk) (feeds : List RSSFeed) : Prop where
  list : ∀ t ∈ d.feeds, rd.FullAt 0 t
  items : ∀ k, ∀ feed ∈ feeds[k]?, ∀ t ∈ (st.ofFeed feed).bind d.items, rd.FullAt (1 + k) t

/-- The loop that reads a file: each time all of the buffer is appended. Also the buffer afterwards. -/
def readAll (buf : Text) : List Text → Text × Text
  | [] => ([], buf)
  | c :: cs =>
    let buf := c ++ buf.drop c.length
    let r := readAll buf cs
    (buf ++ r.1, r.2)

section Files
variable (json : OrgJson) (st : Storage) (rd : Reader)

def saveFeedToFile (d : Disk) (feed : RSSFeed) : Disk :=
  match st.ofFeed feed with
  | none => d
  | some loc =>
    { d with items := Function.update d.items loc (some (json.print (feed.items.map RSSItem.toJSONObject))) }

def saveFeedListToFile (d : Disk) (feedlist : List RSSFeed) : Disk :=
  { d with feeds := some (json.print (feedlist.map RSSFeed.toJSONObject)) }

def saveToFile (d : Disk) (feedlist : List RSSFeed) : Disk :=
  saveFeedListToFile json (feedlist.foldl (saveFeedToFile json st) d) feedlist

def loadItems : List JSONObject → Except Fault (List RSSItem)
  | [] => .ok []
  | o :: os =>
    match RSSItem.new o with
    | .error e => .error e
    | .ok it => (loadItems os).map (it.checkMedia st.media :: ·)

/-- A file is read into the buffer; a file that is not there leaves it as it is. -/
def readFile (i : ℕ) (buf : Text) : Option Text → Text × Text
  | none => ([], buf)
  | some t => readAll buf (rd.chunks i t)

/-- The list of loaded feeds, and an exception that is not caught. -/
structure Loaded where
  feeds : List RSSFeed
  thrown : Option Fault

/-- The loop of `loadFromFile`. A `JSONException` ends it, and is caught. -/
def loadFeeds (d : Disk) : ℕ → Text → List JSONObject → List RSSFeed → Loaded
  | _, _, [], feedlist => ⟨feedlist, none⟩
  | i, buf, o :: os, feedlist =>
    match RSSFeed.new o with
    | .error e => ⟨feedlist, some e⟩
    | .ok feed =>
      let r := readFile rd i buf ((st.ofFeed feed).bind d.items)
      match json.parse r.1 with
      | none => ⟨feedlist, none⟩
      | some itemArray =>
        match loadItems st itemArray with
        | .error e => ⟨feedlist, some e⟩
        | .ok items => loadFeeds d (i + 1) r.2 os (feedlist ++ [{ feed with items := items }])

def loadFromFile (d : Disk) (feedlist : List RSSFeed) : Loaded :=
  let r := readFile rd 0 (List.replicate charBuf 0) d.feeds
  match json.parse r.1 with
  | none => ⟨feedlist, none⟩
  | some feedArray => loadFeeds json st rd d 1 r.2 feedArray feedlist

/-- The feeds are loaded as they have been saved. -/
def Restored (d : Disk) (feeds : List RSSFeed) : Prop :=
  loadFromFile json st rd (saveToFile json st d feeds) [] = ⟨feeds, none⟩

end Files

/-! ## Objects -/

section Objects
variable {σ : Type} {o : JSONObject} {key : Key} {as : List (Assignment σ)} {s : σ}

theorem assignAll_nil : assignAll o [] s = .ok s := rfl

/-- A string that is `null` ends the assignments. -/
theorem assignAll_string {set : σ → Text → σ} {v : Option Text} (h : o key = v.map .str) :
    assignAll o (stringField key set :: as) s = v.elim (.ok s) fun v => assignAll o as (set s v) := by
  cases v with
  | none => simp [assignAll, stringField, JSONObject.getString, h, Except.map]
  | some v => simp [assignAll, stringField, JSONObject.getString, h, Except.map]

/-- A number that is too large is not caught. -/
theorem assignAll_integer {set : σ → Int32 → σ} {n : ℤ} (h : o key = some (.num n)) :
    assignAll o (integerField key set :: as) s =
      if JSONObject.FitsInteger n then assignAll o as (set s (Int32.ofInt n)) else .error .classCast := by
  by_cases hn : JSONObject.FitsInteger n
  · simp [assignAll, integerField, JSONObject.getInteger, h, hn, Except.map]
  · simp [assignAll, integerField, JSONObject.getInteger, h, hn, Except.map]

end Objects

/-- A `long` that fits is read back. -/
theorem toInt64_ofInt {n : Int64} (h : JSONObject.FitsInteger n.toInt) : (Int32.ofInt n.toInt).toInt64 = n := by
  rw [← Int64.toInt_inj, Int32.toInt_toInt64, Int32.toInt_ofInt_of_le h.1 h.2]

theorem fitsInteger_int (n : Int32) : JSONObject.FitsInteger n.toInt := ⟨n.le_toInt, n.toInt_lt⟩

namespace RSSItem

theorem toJSONObject_apply (it : RSSItem) (key : Key) :
    it.toJSONObject key = match key with
      | .title => it.title.map .str
      | .description => it.description.map .str
      | .pubDate => some (.num it.pubDate.toInt)
      | .pubDateStr => it.pubDateStr.map .str
      | .link => it.link.map .str
      | .enclosureUrl => it.enclosureUrl.map .str
      | .enclosureLen => some (.num it.enclosureLen.toInt)
      | .deadlineSec => some (.num it.deadlineSec.toInt)
      | .status => some (.num it.status.toInt)
      | .fileName => it.fileName.map .str
      | .uuid => it.uuid.map .str
      | .url => none
      | .id => none
      | .schedTime => none := by
  cases key <;> rfl

/-- A downloaded item has a complete media file. -/
def Complete (media : Text → Option Int64) (it : RSSItem) : Prop :=
  it.Downloaded → ∃ fileLen ∈ media (it.fileName.getD nullText), it.percent fileLen = 100

theorem checkMedia_eq_iff (media : Text → Option Int64) (it : RSSItem) :
    it.checkMedia media = it ↔ it.Complete media := by
  by_cases hdown : it.Downloaded
  · have hne : it.status ≠ statusNone ∧ it.status ≠ statusDownloading := by
      rcases hdown with h | h
      · rw [h]
        decide
      · rw [h]
        decide
    cases hfile : media (it.fileName.getD nullText) with
    | none =>
      have hreset : it.checkMedia media ≠ it := by
        intro heq
        have hstatus := congrArg RSSItem.status heq
        rw [checkMedia, if_pos hdown, hfile] at hstatus
        exact hne.1 hstatus.symm
      simp [hreset, Complete, hdown, hfile]
    | some fileLen =>
      by_cases hpercent : it.percent fileLen = 100
      · simp [checkMedia, hdown, hfile, Complete, hpercent]
      · have hreset : it.checkMedia media ≠ it := by
          intro heq
          have hstatus := congrArg RSSItem.status heq
          rw [checkMedia, if_pos hdown, hfile] at hstatus
          simp only [ne_eq, hpercent, not_false_eq_true, if_true] at hstatus
          exact hne.2 hstatus.symm
        simp [hreset, Complete, hdown, hfile, hpercent]
  · simp [checkMedia, hdown, Complete]

/-- The strings that come after `pubDateStr` are there, and the numbers fit. -/
structure Full (it : RSSItem) : Prop where
  link : it.link ≠ none
  enclosureUrl : it.enclosureUrl ≠ none
  enclosureLen : JSONObject.FitsInteger it.enclosureLen.toInt
  deadlineSec : JSONObject.FitsInteger it.deadlineSec.toInt
  fileName : it.fileName ≠ none
  uuid : it.uuid ≠ none

/-- The item is the same after saving and loading: it has no `pubDate`, a title and a description; the
rest is there, or, without a `pubDateStr`, has its defaults; and the media file is complete. -/
structure Lasting (media : Text → Option Int64) (it : RSSItem) : Prop where
  pubDate : it.pubDate = 0
  title : it.title ≠ none
  description : it.description ≠ none
  rest : if it.pubDateStr = none then it = { title := it.title, description := it.description } else it.Full
  media : it.Complete media

/-- An item that has been saved and read again. -/
theorem new_toJSONObject (it : RSSItem) :
    new it.toJSONObject = it.title.elim (.ok {}) fun title =>
      it.description.elim (.ok { title := some title }) fun description =>
      it.pubDateStr.elim (.ok { title := some title, description := some description }) fun pubDateStr =>
      assignAll it.toJSONObject (fields.drop 3)
        { title := some title, description := some description, pubDateStr := some pubDateStr } := by
  simp only [new, fields, assignAll_string (it.toJSONObject_apply .title),
    assignAll_string (it.toJSONObject_apply .description),
    assignAll_string (it.toJSONObject_apply .pubDateStr), List.drop_succ_cons, List.drop_zero]

theorem assign_rest (it start : RSSItem) :
    assignAll it.toJSONObject (fields.drop 3) start = it.link.elim (.ok start) fun link =>
      it.enclosureUrl.elim (.ok { start with link := some link }) fun enclosureUrl =>
      if JSONObject.FitsInteger it.enclosureLen.toInt ∧ JSONObject.FitsInteger it.deadlineSec.toInt then
        let start := { start with
          link := some link
          enclosureUrl := some enclosureUrl
          enclosureLen := it.enclosureLen
          deadlineSec := it.deadlineSec
          status := it.status }
        it.fileName.elim (.ok start) fun fileName =>
        it.uuid.elim (.ok { start with fileName := some fileName }) fun uuid =>
        .ok { start with fileName := some fileName, uuid := some uuid }
      else .error .classCast := by
  simp only [fields, List.drop_succ_cons, List.drop_zero,
    assignAll_string (it.toJSONObject_apply .link), assignAll_string (it.toJSONObject_apply .enclosureUrl),
    assignAll_integer (it.toJSONObject_apply .enclosureLen), assignAll_integer (it.toJSONObject_apply .deadlineSec),
    assignAll_integer (it.toJSONObject_apply .status), fitsInteger_int, if_true, Int32.ofInt_toInt,
    assignAll_string (it.toJSONObject_apply .fileName), assignAll_string (it.toJSONObject_apply .uuid), assignAll_nil]
  by_cases hlen : JSONObject.FitsInteger it.enclosureLen.toInt
  · by_cases hdead : JSONObject.FitsInteger it.deadlineSec.toInt
    · simp only [hlen, hdead, if_true, and_self, toInt64_ofInt hlen, toInt64_ofInt hdead]
    · simp only [hlen, hdead, if_true, if_false, and_false]
  · simp only [hlen, if_false, false_and]

/-- An item that has been saved and loaded. -/
def reload (media : Text → Option Int64) (it : RSSItem) : Except Fault RSSItem :=
  (new it.toJSONObject).map (checkMedia media)

theorem reload_of_new {media : Text → Option Int64} {it new : RSSItem} (h : RSSItem.new it.toJSONObject = .ok new) :
    it.reload media = .ok (new.checkMedia media) := by
  simp [reload, h, Except.map]

/-- The comparison with the media file changes only the length and the status. -/
theorem checkMedia_frame (media : Text → Option Int64) (it : RSSItem) :
    ∃ len status, it.checkMedia media = { it with enclosureLen := len, status := status } := by
  by_cases hdown : it.Downloaded
  · cases hfile : media (it.fileName.getD nullText) with
    | none => exact ⟨0, statusNone, by simp [checkMedia, hdown, hfile]⟩
    | some fileLen =>
      by_cases hpercent : it.percent fileLen = 100
      · exact ⟨it.enclosureLen, it.status, by simp [checkMedia, hdown, hfile, hpercent]⟩
      · exact ⟨it.enclosureLen, statusDownloading, by simp [checkMedia, hdown, hfile, hpercent]⟩
  · exact ⟨it.enclosureLen, it.status, by simp [checkMedia, hdown]⟩

/-- An item that has not been read to the end does not count as downloaded. -/
theorem checkMedia_unread (media : Text → Option Int64) {it : RSSItem} (h : it.status = statusNone) :
    it.checkMedia media = it := by
  rw [checkMedia_eq_iff]
  intro hdown
  simp [Downloaded, h, statusNone, statusDownloaded, statusDownloadedPlayed] at hdown

/-- A field that is not restored, and that the comparison with the media file does not touch. -/
theorem reload_ne {media : Text → Option Int64} {it start : RSSItem} {α : Type}
    (hnew : new it.toJSONObject = .ok start) (field : RSSItem → α)
    (hframe : ∀ x len status, field { x with enclosureLen := len, status := status } = field x)
    (hne : field start ≠ field it) : it.reload media ≠ .ok it := by
  intro h
  obtain ⟨len, status, hcheck⟩ := checkMedia_frame media start
  rw [reload_of_new hnew, hcheck, Except.ok.injEq] at h
  rw [← hframe start len status, h] at hne
  exact hne rfl

variable (media : Text → Option Int64)

/-- An item without a `pubDateStr`: nothing after it is read. -/
theorem reload_undated_iff {it : RSSItem} (ht : it.title ≠ none)
    (hd : it.description ≠ none) (hp : it.pubDateStr = none) :
    it.reload media = .ok it ↔ it = { title := it.title, description := it.description } := by
  obtain ⟨title, ht⟩ := Option.ne_none_iff_exists'.mp ht
  obtain ⟨description, hd⟩ := Option.ne_none_iff_exists'.mp hd
  have hnew : new it.toJSONObject = .ok { title := it.title, description := it.description } := by
    simp [new_toJSONObject, ht, hd, hp]
  rw [reload_of_new hnew, checkMedia_unread media rfl, Except.ok.injEq]
  exact eq_comm

/-- An item with a `pubDateStr`. -/
theorem reload_dated_iff {it : RSSItem} (ht : it.title ≠ none)
    (hd : it.description ≠ none) (hp : it.pubDateStr ≠ none) :
    it.reload media = .ok it ↔ it.pubDate = 0 ∧ it.Full ∧ it.Complete media := by
  obtain ⟨title, ht⟩ := Option.ne_none_iff_exists'.mp ht
  obtain ⟨description, hd⟩ := Option.ne_none_iff_exists'.mp hd
  obtain ⟨pubDateStr, hp⟩ := Option.ne_none_iff_exists'.mp hp
  have hnew : new it.toJSONObject = assignAll it.toJSONObject (fields.drop 3)
      { title := it.title, description := it.description, pubDateStr := it.pubDateStr } := by
    simp [new_toJSONObject, ht, hd, hp]
  rw [assign_rest] at hnew
  by_cases hl : it.link = none
  · simp only [hl, Option.elim_none] at hnew
    exact iff_of_false (reload_ne hnew RSSItem.link (fun _ _ _ => rfl) (by simp [hl]))
      fun h => h.2.1.link hl
  obtain ⟨link, hl⟩ := Option.ne_none_iff_exists'.mp hl
  by_cases hu : it.enclosureUrl = none
  · simp only [hl, hu, Option.elim_some, Option.elim_none] at hnew
    exact iff_of_false (reload_ne hnew RSSItem.enclosureUrl (fun _ _ _ => rfl) (by simp [hu]))
      fun h => h.2.1.enclosureUrl hu
  obtain ⟨enclosureUrl, hu⟩ := Option.ne_none_iff_exists'.mp hu
  simp only [hl, hu, Option.elim_some] at hnew
  by_cases hfit : JSONObject.FitsInteger it.enclosureLen.toInt ∧ JSONObject.FitsInteger it.deadlineSec.toInt
  · rw [if_pos hfit] at hnew
    by_cases hf : it.fileName = none
    · simp only [hf, Option.elim_none] at hnew
      exact iff_of_false (reload_ne hnew RSSItem.fileName (fun _ _ _ => rfl) (by simp [hf]))
        fun h => h.2.1.fileName hf
    obtain ⟨fileName, hf⟩ := Option.ne_none_iff_exists'.mp hf
    by_cases hi : it.uuid = none
    · simp only [hf, hi, Option.elim_some, Option.elim_none] at hnew
      exact iff_of_false (reload_ne hnew RSSItem.uuid (fun _ _ _ => rfl) (by simp [hi]))
        fun h => h.2.1.uuid hi
    obtain ⟨uuid, hi⟩ := Option.ne_none_iff_exists'.mp hi
    have hall : new it.toJSONObject = .ok { it with pubDate := 0 } := by
      simp only [hf, hi, Option.elim_some] at hnew
      rw [hnew, ← hl, ← hu, ← hf, ← hi]
    have hfull : it.Full := ⟨by simp [hl], by simp [hu], hfit.1, hfit.2, by simp [hf], by simp [hi]⟩
    by_cases hdate : it.pubDate = 0
    · have hsame : { it with pubDate := 0 } = it := by rw [← hdate]
      rw [reload_of_new hall, hsame, Except.ok.injEq, checkMedia_eq_iff]
      simp [hdate, hfull]
    · exact iff_of_false (reload_ne hall RSSItem.pubDate (fun _ _ _ => rfl) (Ne.symm hdate))
        fun h => hdate h.1
  · rw [if_neg hfit] at hnew
    have herror : it.reload media ≠ .ok it := by simp [reload, hnew, Except.map]
    exact iff_of_false herror fun h => hfit ⟨h.2.1.enclosureLen, h.2.1.deadlineSec⟩

/-- An item is the same after saving and loading exactly if it is lasting. -/
theorem reload_eq_iff (it : RSSItem) : it.reload media = .ok it ↔ it.Lasting media := by
  by_cases ht : it.title = none
  · have hnew : new it.toJSONObject = .ok {} := by simp [new_toJSONObject, ht]
    exact iff_of_false (reload_ne hnew RSSItem.title (fun _ _ _ => rfl) (by simp [ht])) fun h => h.title ht
  by_cases hd : it.description = none
  · obtain ⟨title, ht'⟩ := Option.ne_none_iff_exists'.mp ht
    have hnew : new it.toJSONObject = .ok { title := some title } := by
      simp [new_toJSONObject, ht', hd]
    exact iff_of_false (reload_ne hnew RSSItem.description (fun _ _ _ => rfl) (by simp [hd]))
      fun h => h.description hd
  by_cases hp : it.pubDateStr = none
  · rw [reload_undated_iff media ht hd hp]
    constructor
    · intro heq
      refine ⟨by rw [heq], ht, hd, by simpa [hp] using heq, ?_⟩
      rw [← checkMedia_eq_iff]
      exact checkMedia_unread media (by rw [heq])
    · intro h
      simpa [hp] using h.rest
  · rw [reload_dated_iff media ht hd hp]
    constructor
    · intro h
      exact ⟨h.1, ht, hd, by simpa [hp] using h.2.1, h.2.2⟩
    · intro h
      exact ⟨h.pubDate, by simpa [hp] using h.rest, h.media⟩

end RSSItem

namespace RSSFeed

theorem toJSONObject_apply (feed : RSSFeed) (key : Key) :
    feed.toJSONObject key = match key with
      | .title => feed.title.map .str
      | .description => feed.description.map .str
      | .link => feed.link.map .str
      | .url => feed.url.map .str
      | .id => feed.itunesId.map .str
      | .schedTime => some (.num feed.schedTime.toInt)
      | _ => none := by
  cases key <;> rfl

/-- A feed is the same after saving and loading: after a string that is `null` all is as in a new
feed. -/
@[mk_iff]
structure Lasting (feed : RSSFeed) : Prop where
  title : feed.title = none → feed.description = none
  description : feed.description = none → feed.link = none
  link : feed.link = none → feed.url = none
  url : feed.url = none → feed.itunesId = none
  itunesId : feed.itunesId = none → feed.schedTime = -1

/-- A feed that has been saved and read again. -/
theorem new_toJSONObject (feed : RSSFeed) :
    new feed.toJSONObject = feed.title.elim (.ok {}) fun title =>
      feed.description.elim (.ok { title := some title }) fun description =>
      feed.link.elim (.ok { title := some title, description := some description }) fun link =>
      feed.url.elim (.ok { title := some title, description := some description, link := some link })
        fun url =>
      feed.itunesId.elim
        (.ok { title := some title, description := some description, link := some link, url := some url })
        fun itunesId =>
      .ok {
        title := some title
        description := some description
        link := some link
        url := some url
        itunesId := some itunesId
        schedTime := feed.schedTime } := by
  simp only [new, fields, assignAll_string (feed.toJSONObject_apply .title),
    assignAll_string (feed.toJSONObject_apply .description),
    assignAll_string (feed.toJSONObject_apply .link), assignAll_string (feed.toJSONObject_apply .url),
    assignAll_string (feed.toJSONObject_apply .id), assignAll_integer (feed.toJSONObject_apply .schedTime),
    fitsInteger_int, if_true, Int32.ofInt_toInt, assignAll_nil]

/-- The title is always restored, and a lasting feed is but for its items. -/
theorem new_spec (feed : RSSFeed) :
    ∃ new, RSSFeed.new feed.toJSONObject = .ok new ∧ new.title = feed.title ∧
      ∀ items, ({ new with items := items } = feed ↔ feed.Lasting ∧ items = feed.items) := by
  rw [new_toJSONObject]
  obtain ⟨url, title, link, description, itunesId, schedTime, items⟩ := feed
  -- up to the first string that is `null`
  cases title with
  | none =>
    refine ⟨_, rfl, rfl, fun items' => ?_⟩
    grind [lasting_iff]
  | some title =>
    cases description with
    | none =>
      refine ⟨_, rfl, rfl, fun items' => ?_⟩
      grind [lasting_iff]
    | some description =>
      cases link with
      | none =>
        refine ⟨_, rfl, rfl, fun items' => ?_⟩
        grind [lasting_iff]
      | some link =>
        cases url with
        | none =>
          refine ⟨_, rfl, rfl, fun items' => ?_⟩
          grind [lasting_iff]
        | some url =>
          cases itunesId with
          | none =>
            refine ⟨_, rfl, rfl, fun items' => ?_⟩
            grind [lasting_iff]
          | some itunesId =>
            refine ⟨_, rfl, rfl, fun items' => ?_⟩
            simp [lasting_iff]

end RSSFeed

/-! ## Reading files -/

/-- If every read but the last fills the buffer, the text is followed by what was in the buffer. -/
theorem readAll_full {buf : Text} {cs : List Text} (hbuf : buf.length = charBuf)
    (hfits : ∀ c ∈ cs, c.length ≤ charBuf) (hfull : ∀ c ∈ cs.dropLast, c.length = charBuf) :
    (∃ rest, (readAll buf cs).1 = cs.flatten ++ rest) ∧ (readAll buf cs).2.length = charBuf := by
  induction cs generalizing buf with
  | nil => exact ⟨⟨[], by simp [readAll]⟩, by simpa [readAll] using hbuf⟩
  | cons c cs ih =>
    have hc := hfits c (by simp)
    have hnext : (c ++ buf.drop c.length).length = charBuf := by
      rw [List.length_append, List.length_drop]
      omega
    cases cs with
    | nil => exact ⟨⟨buf.drop c.length, by simp [readAll]⟩, by simpa [readAll] using hnext⟩
    | cons c' cs =>
      have hall : c.length = charBuf := hfull c (by simp)
      obtain ⟨⟨rest, hrest⟩, hlen⟩ := ih hnext (fun x hx => hfits x (List.mem_cons_of_mem _ hx))
        (fun x hx => hfull x (by simp [hx]))
      have hnil : buf.drop c.length = [] := List.drop_eq_nil_of_le (by omega)
      refine ⟨⟨rest, ?_⟩, hlen⟩
      rw [readAll, hrest, hnil]
      simp

section Load
variable {json : OrgJson} {st : Storage} {rd : Reader}

variable (json) in
theorem parse_readFile {i : ℕ} {a : List JSONObject} (hfull : rd.FullAt i (json.print a)) {buf : Text}
    (hbuf : buf.length = charBuf) :
    json.parse (readFile rd i buf (some (json.print a))).1 = some a ∧
    (readFile rd i buf (some (json.print a))).2.length = charBuf := by
  obtain ⟨⟨rest, hrest⟩, hlen⟩ := readAll_full hbuf (rd.fits i (json.print a)) hfull
  rw [rd.flatten] at hrest
  rw [readFile, hrest, json.parse_print]
  exact ⟨rfl, hlen⟩

/-! ## Saving and loading -/

/-- Saved items that are loaded. -/
theorem loadItems_eq_iff (items loaded : List RSSItem) : loadItems st (items.map RSSItem.toJSONObject) = .ok loaded ↔
    List.Forall₂ (fun it new => it.reload st.media = .ok new) items loaded := by
  induction items generalizing loaded with
  | nil =>
    cases loaded with
    | nil => simp [loadItems]
    | cons _ _ => simp [loadItems]
  | cons it items ih =>
    cases hnew : RSSItem.new it.toJSONObject with
    | error e => simp [loadItems, hnew, RSSItem.reload, Except.map, List.forall₂_cons_left_iff]
    | ok new =>
      have hreload : it.reload st.media = .ok (new.checkMedia st.media) := RSSItem.reload_of_new hnew
      have hcons : loadItems st ((it :: items).map RSSItem.toJSONObject) =
          (loadItems st (items.map RSSItem.toJSONObject)).map (new.checkMedia st.media :: ·) := by
        simp [loadItems, hnew]
      rw [hcons]
      cases loaded with
      | nil => cases loadItems st (items.map RSSItem.toJSONObject) <;> simp [Except.map]
      | cons first loaded =>
        rw [List.forall₂_cons, hreload, ← ih]
        cases loadItems st (items.map RSSItem.toJSONObject) <;> simp [Except.map]

theorem loadItems_self_iff (items : List RSSItem) :
    loadItems st (items.map RSSItem.toJSONObject) = .ok items ↔ ∀ it ∈ items, it.Lasting st.media := by
  rw [loadItems_eq_iff, List.forall₂_same]
  simp only [RSSItem.reload_eq_iff]

/-- The feed whose items are at a place in the end. -/
def lastAt (st : Storage) (feeds : List RSSFeed) (loc : ℕ) : Option RSSFeed :=
  feeds.reverse.find? fun feed => st.ofFeed feed = some loc

/-- The file at a place after all feeds have been saved. -/
theorem items_saved (d : Disk) (feeds : List RSSFeed) (loc : ℕ) : (feeds.foldl (saveFeedToFile json st) d).items loc =
    (lastAt st feeds loc).elim (d.items loc) fun feed => some (json.print (feed.items.map RSSItem.toJSONObject)) := by
  induction feeds using List.reverseRecOn with
  | nil => simp [lastAt]
  | append_singleton feeds feed ih =>
    rw [List.foldl_append, List.foldl_cons, List.foldl_nil]
    cases hplace : st.ofFeed feed with
    | none => simpa [saveFeedToFile, hplace, lastAt] using ih
    | some loc' =>
      by_cases hloc : loc' = loc
      · subst hloc
        simp [saveFeedToFile, hplace, lastAt]
      · simpa [saveFeedToFile, hplace, lastAt, hloc, Function.update_of_ne (Ne.symm hloc)] using ih

/-- A feed with a place: the feed whose items are there in the end. -/
theorem exists_lastAt {feeds : List RSSFeed} {feed : RSSFeed} {loc : ℕ} (hmem : feed ∈ feeds)
    (hplace : st.ofFeed feed = some loc) :
    ∃ last ∈ feeds, st.ofFeed last = some loc ∧ lastAt st feeds loc = some last := by
  cases hlast : lastAt st feeds loc with
  | none =>
    rw [lastAt, List.find?_eq_none] at hlast
    exact absurd (by simpa using hplace) (hlast feed (by simpa using hmem))
  | some last =>
    have hsome := List.find?_some hlast
    have hin := List.mem_of_find?_eq_some hlast
    exact ⟨last, by simpa using hin, by simpa using hsome, rfl⟩

variable (json st rd) in
/-- Feeds that have been loaded stay loaded. -/
theorem loadFeeds_extends (d : Disk) (os : List JSONObject) (i : ℕ) (buf : Text) (feedlist : List RSSFeed) :
    feedlist <+: (loadFeeds json st rd d i buf os feedlist).feeds := by
  induction os generalizing i buf feedlist with
  | nil => simp [loadFeeds]
  | cons o os ih =>
    rw [loadFeeds]
    cases RSSFeed.new o with
    | error e => simp
    | ok feed =>
      simp only
      cases json.parse (readFile rd i buf ((st.ofFeed feed).bind d.items)).1 with
      | none => simp
      | some itemArray =>
        simp only
        cases loadItems st itemArray with
        | error e => simp
        | ok items => exact (List.prefix_append _ _).trans (ih _ _ _)

/-- The loop restores the feeds exactly if each of them is lasting, has a place, and finds its items
there; `stored` is what the places hold. -/
theorem loadFeeds_eq_iff {d : Disk} (stored : ℕ → List JSONObject) (feeds : List RSSFeed) {i : ℕ}
    (hfull : ∀ k, ∀ feed ∈ feeds[k]?, ∀ t ∈ (st.ofFeed feed).bind d.items, rd.FullAt (i + k) t)
    (hstored : ∀ feed ∈ feeds, ∀ loc, st.ofFeed feed = some loc → d.items loc = some (json.print (stored loc)))
    {buf : Text} (hbuf : buf.length = charBuf) (feedlist : List RSSFeed) :
    loadFeeds json st rd d i buf (feeds.map RSSFeed.toJSONObject) feedlist = ⟨feedlist ++ feeds, none⟩ ↔
      ∀ feed ∈ feeds, feed.Lasting ∧ ∃ loc, st.ofFeed feed = some loc ∧ loadItems st (stored loc) = .ok feed.items := by
  induction feeds generalizing i buf feedlist with
  | nil => simp [loadFeeds]
  | cons feed feeds ih =>
    obtain ⟨new, hnew, htitle, hsame⟩ := feed.new_spec
    have hplace : st.ofFeed new = st.ofFeed feed := by simp [Storage.ofFeed, htitle]
    rw [List.map_cons, loadFeeds, hnew, List.forall_mem_cons]
    simp only [hplace]
    cases hloc : st.ofFeed feed with
    | none => simp [readFile, json.parse_nil]
    | some loc =>
      have hfile : (some loc).bind d.items = some (json.print (stored loc)) :=
        hstored feed (by simp) loc hloc
      have hfirst : rd.FullAt i (json.print (stored loc)) :=
        hfull 0 feed rfl _ (by rw [hloc]; exact hfile)
      obtain ⟨hparse, hlen⟩ := parse_readFile json hfirst hbuf
      rw [hfile, hparse]
      simp only [Option.some.injEq, exists_eq_left']
      cases hitems : loadItems st (stored loc) with
      | error e => simp
      | ok items =>
        simp only [Except.ok.injEq]
        rw [← hsame items]
        by_cases heq : { new with items := items } = feed
        · have hrest : ∀ k, ∀ x ∈ feeds[k]?, ∀ t ∈ (st.ofFeed x).bind d.items, rd.FullAt (i + 1 + k) t := by
            intro k x hx t ht
            rw [Nat.add_assoc, Nat.add_comm 1]
            exact hfull (k + 1) x hx t ht
          have hrec := ih hrest (fun x hx => hstored x (List.mem_cons_of_mem _ hx)) hlen (feedlist ++ [feed])
          rw [heq, List.append_cons feedlist feed feeds, hrec]
          simp
        · -- a feed that has been changed stays in the list
          constructor
          · intro hloaded
            have hstays := loadFeeds_extends json st rd d
              (feeds.map RSSFeed.toJSONObject) (i + 1) (readFile rd i buf (some (json.print (stored loc)))).2
              (feedlist ++ [{ new with items := items }])
            rw [hloaded, List.prefix_append_right_inj, List.cons_prefix_cons] at hstays
            exact absurd hstays.1 heq
          · intro h
            exact absurd h.1 heq

/-- What is the same after saving and loading: feeds and items that are lasting; the feeds have
directories, and feeds that share one have the same items. -/
structure LastingFeeds (st : Storage) (feeds : List RSSFeed) : Prop where
  feed : ∀ feed ∈ feeds, feed.Lasting
  place : ∀ feed ∈ feeds, st.ofFeed feed ≠ none
  items : ∀ feed ∈ feeds, ∀ it ∈ feed.items, it.Lasting st.media
  shared : ∀ feed ∈ feeds, ∀ other ∈ feeds, st.ofFeed feed = st.ofFeed other → feed.items = other.items

/-- What the places hold in the end. -/
def storedAt (st : Storage) (feeds : List RSSFeed) (loc : ℕ) : List JSONObject :=
  (lastAt st feeds loc).elim [] fun feed => feed.items.map RSSItem.toJSONObject

/-- The feeds are restored exactly if each of them is lasting, has a place, and finds its items
there. -/
theorem restored_iff_stored (d : Disk) (feeds : List RSSFeed) (hfull : rd.Full st (saveToFile json st d feeds) feeds) :
    Restored json st rd d feeds ↔ ∀ feed ∈ feeds, feed.Lasting ∧
        ∃ loc, st.ofFeed feed = some loc ∧ loadItems st (storedAt st feeds loc) = .ok feed.items := by
  obtain ⟨hparse, hlen⟩ := parse_readFile json (hfull.list (json.print (feeds.map RSSFeed.toJSONObject)) rfl)
    (show (List.replicate charBuf (0 : UInt16)).length = charBuf by simp)
  have hstored : ∀ feed ∈ feeds, ∀ loc, st.ofFeed feed = some loc →
      (saveToFile json st d feeds).items loc = some (json.print (storedAt st feeds loc)) := by
    intro feed hfeed loc hplace
    obtain ⟨last, -, -, hlast⟩ := exists_lastAt hfeed hplace
    simp [saveToFile, saveFeedListToFile, items_saved, storedAt, hlast]
  have hiff := loadFeeds_eq_iff (storedAt st feeds) feeds hfull.items hstored hlen []
  rw [← hiff, Restored, loadFromFile, saveToFile, saveFeedListToFile]
  simp only [hparse, List.nil_append]

end Load

/-! ### A storage with one feed -/

def Key.name : Key → Text
  | .title => .of "title"
  | .description => .of "description"
  | .pubDate => .of "pubDate"
  | .pubDateStr => .of "pubDate_str"
  | .link => .of "link"
  | .enclosureUrl => .of "enclosure_url"
  | .enclosureLen => .of "enclosure_len"
  | .deadlineSec => .of "deadline_sec"
  | .status => .of "status"
  | .fileName => .of "file_name"
  | .uuid => .of "uuid"
  | .url => .of "url"
  | .id => .of "id"
  | .schedTime => .of "sched_time"

def Key.all : List Key :=
  [.title, .description, .pubDate, .pubDateStr, .link, .enclosureUrl, .enclosureLen, .deadlineSec, .status,
    .fileName, .uuid, .url, .id, .schedTime]

theorem Key.mem_all (key : Key) : key ∈ Key.all := by
  cases key <;> decide

theorem Key.name_injective : Function.Injective Key.name := by
  have hnodup : (Key.all.map Key.name).Nodup := by decide +kernel
  intro a b h
  exact List.inj_on_of_nodup_map hnodup a.mem_all b.mem_all h

def JSONObject.members (o : JSONObject) : List Json.Member :=
  Key.all.filterMap fun key => (o key).map fun v => (key.name, v)

def JSONObject.ofMembers (ms : List Json.Member) : JSONObject := fun key => ms.lookup key.name

theorem lookup_members (o : JSONObject) (keys : List Key) (key : Key) :
    (keys.filterMap fun k => (o k).map fun v => (k.name, v)).lookup key.name = if key ∈ keys then o key else none := by
  induction keys with
  | nil => simp
  | cons k keys ih =>
    by_cases hk : key = k
    · subst hk
      cases hv : o key with
      | none => simp [hv, ih]
      | some v => simp [hv]
    · have hname : (key.name == k.name) = false := by
        rw [beq_eq_false_iff_ne]
        exact fun h => hk (Key.name_injective h)
      cases hv : o k with
      | none => simp [hv, ih, hk]
      | some v => simp [hv, ih, hk, List.lookup_cons, hname]

theorem ofMembers_members (o : JSONObject) : JSONObject.ofMembers o.members = o := by
  funext key
  rw [JSONObject.ofMembers, JSONObject.members, lookup_members, if_pos key.mem_all]

/-- JSON as it is written without white space. -/
def plainJson : OrgJson where
  print a := Json.array (a.map JSONObject.members)
  parse t := (Json.readArray t).map fun r => r.1.map JSONObject.ofMembers
  parse_print a rest := by
    simp [Json.readArray_array, Function.comp_def, ofMembers_members]
  parse_nil := rfl

/-- Reads that fill the buffer as long as there is text. -/
def fullChunks : ℕ → Text → List Text
  | 0, _ => []
  | n + 1, t => if t = [] then [] else t.take charBuf :: fullChunks n (t.drop charBuf)

theorem fullChunks_nil (n : ℕ) : fullChunks n [] = [] := by
  cases n with
  | zero => rfl
  | succ n => simp [fullChunks]

theorem fullChunks_spec {n : ℕ} {t : Text} (h : t.length ≤ n) :
    (fullChunks n t).flatten = t ∧ [] ∉ fullChunks n t ∧ (∀ c ∈ fullChunks n t, c.length ≤ charBuf) ∧
      ∀ c ∈ (fullChunks n t).dropLast, c.length = charBuf := by
  induction n generalizing t with
  | zero =>
    have hnil : t = [] := by simpa using h
    simp [fullChunks, hnil]
  | succ n ih =>
    by_cases hnil : t = []
    · simp [fullChunks, hnil]
    · have hpos := List.length_pos_iff.mpr hnil
      obtain ⟨hflat, hne, hfits, hfull⟩ := ih (t := t.drop charBuf) (by
        rw [List.length_drop, charBuf]
        omega)
      have hstep : fullChunks (n + 1) t = t.take charBuf :: fullChunks n (t.drop charBuf) := by
        simp [fullChunks, hnil]
      rw [hstep]
      refine ⟨by simp [hflat], ?_, ?_, ?_⟩
      · have hchunk : t.take charBuf ≠ [] := by simp [charBuf, hnil]
        rw [List.mem_cons, not_or]
        exact ⟨Ne.symm hchunk, hne⟩
      · intro c hc
        rcases List.mem_cons.mp hc with rfl | hc
        · simp
        · exact hfits c hc
      · intro c hc
        cases hrest : fullChunks n (t.drop charBuf) with
        | nil => simp [hrest] at hc
        | cons c' cs =>
          rw [hrest, List.dropLast_cons_cons, List.mem_cons] at hc
          rcases hc with rfl | hc
          · -- there is more text
            have hmore : t.drop charBuf ≠ [] := by
              intro hd
              rw [hd, fullChunks_nil] at hrest
              simp at hrest
            have hlong := List.length_pos_iff.mpr hmore
            rw [List.length_drop] at hlong
            rw [List.length_take]
            omega
          · exact hfull c (by rw [hrest]; exact hc)

/-- A reader that fills the buffer. -/
def fullReader : Reader where
  chunks _ t := fullChunks t.length t
  flatten _ _ := (fullChunks_spec le_rfl).1
  nonempty _ _ := (fullChunks_spec le_rfl).2.1
  fits _ _ := (fullChunks_spec le_rfl).2.2.1

theorem fullAt_fullReader (i : ℕ) (t : Text) : fullReader.FullAt i t := (fullChunks_spec le_rfl).2.2.2

/-- One directory, named `a`, and no media files. -/
def oneDirectory : Storage where
  place t := if t = [97] then some 0 else none
  media _ := none

def feedWith (items : List RSSItem) : RSSFeed where
  url := some [117]
  title := some [97]
  link := some []
  description := some []
  itunesId := some []
  items := items

def datedItem : RSSItem where
  title := some [116]
  pubDateStr := some [100]
  link := some [108]
  deadlineSec := 1400000000

/-- An item whose feed gives no date. -/
def undatedItem : RSSItem where
  title := some [116]
  link := some [108]

/-- The first read returns one character. -/
def shortReader : Reader where
  chunks _ t :=
    match t with
    | [] => []
    | c :: t => [c] :: fullChunks t.length t
  flatten _ t := by
    cases t with
    | nil => simp
    | cons c t => simp [(fullChunks_spec (le_refl t.length)).1]
  nonempty _ t := by
    cases t with
    | nil => simp
    | cons c t => simp [(fullChunks_spec (le_refl t.length)).2.1]
  fits _ t := by
    cases t with
    | nil => simp
    | cons c t =>
      intro x hx
      rcases List.mem_cons.mp hx with rfl | hx
      · simp [charBuf]
      · exact (fullChunks_spec (le_refl t.length)).2.2.1 x hx

end Cedos.ReadyCast
