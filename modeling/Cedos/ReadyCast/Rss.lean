import Cedos.ReadyCast.Feeds
import Cedos.ReadyCast.Tags

/-!
# Reading a feed

`XMLParser` and `XMLRefresh` are handlers of SAX events. Both gather an item from `<item>` to
`</item>`. `XMLParser`, which reads a new feed, appends every item. `XMLRefresh` puts those that have
an enclosure with a new URL before the items that were there.

A handler refers to its current item also after it has been added to the feed. An exception that a
handler raises ends the parsing.
-/

namespace Cedos.ReadyCast

/-- A SAX event. Of the attributes only the value of `url` is read. -/
inductive SaxEvent
  | startElement (localName : Text) (url : Option Text)
  | characters (ch : Text)
  | endElement (localName : Text)
  deriving DecidableEq

/-- The tags in `xmltags`. -/
inductive XmlTag
  | title
  | link
  | pubDate
  | description
  | enclosure
  | length
  deriving DecidableEq

def tagItem : Text := .of "item"
def tagEnclosure : Text := .of "enclosure"

/-- `xmltags`. -/
def xmltags : List (Text × XmlTag) :=
  [(.of "title", .title), (.of "link", .link), (.of "pubDate", .pubDate),
    (.of "description", .description), (tagEnclosure, .enclosure), (.of "length", .length)]

/-- What the handlers use of the platform. -/
structure SaxPlatform where
  /-- what `equalsIgnoreCase` compares of a character -/
  foldCase : UInt16 → UInt16
  /-- `SimpleDateFormat.parse`; `none` is a `ParseException` -/
  readFormat : Text → Option Int64
  readFormat2 : Text → Option Int64
  /-- `SimpleDateFormat.format` -/
  printFormat : Int64 → Text

namespace SaxPlatform
variable (p : SaxPlatform)

def equalsIgnoreCase (a b : Text) : Bool := a.map p.foldCase == b.map p.foldCase

/-- `itemIndexFromString`; `none` is `-1`. -/
def itemIndexFromString (tagname : Text) : Option XmlTag :=
  (xmltags.find? fun t => p.equalsIgnoreCase tagname t.1).map Prod.snd

/-- `pubDate` and `pubDate_str` from the text of the element. -/
def setDate (text : Text) (it : RSSItem) : RSSItem :=
  let it := match p.readFormat text with
    | some date => { it with pubDate := date, pubDateStr := some (p.printFormat date) }
    | none => { it with pubDateStr := some [] }
  if it.pubDateStr = some [] then
    match p.readFormat2 text with
    | some date => { it with pubDate := date, pubDateStr := some (p.printFormat date) }
    | none => { it with pubDateStr := some [] }
  else it

/-- The end of an element within an item. -/
def setItem (tag : XmlTag) (text : Text) (it : RSSItem) : RSSItem :=
  match tag with
  | .title => { it with title := some text }
  | .link => { it with link := some text }
  | .pubDate => p.setDate text it
  | .description => { it with description := some (stripTags text) }
  | .enclosure | .length => it

end SaxPlatform

/-- The end of an element outside of the items. -/
def RSSFeed.setField (tag : XmlTag) (text : Text) (feed : RSSFeed) : RSSFeed :=
  match tag with
  | .title => { feed with title := feed.title.or (some text) }
  | .link => { feed with link := feed.link.or (some text) }
  | .description => { feed with description := feed.description.or (some text) }
  | .pubDate | .enclosure | .length => feed

/-! ## File names -/

/-- The last position of a character. -/
def lastIndexOf (a : UInt16) : Text → Option ℕ
  | [] => none
  | b :: t =>
    match lastIndexOf a t with
    | some i => some (i + 1)
    | none => if b = a then some 0 else none

/-- The file name of a URL, before it is compared with the others: what follows the last `/`, up to
the first `?` if that comes later. There is none if only the scheme has a `/`. -/
def baseName (title : Option Text) (url : Text) : Option Text :=
  let url := if httpScheme <+: url then url.drop httpScheme.length else url
  match lastIndexOf 47 url with
  | none => none
  | some index =>
    let name := match indexOf [63] url with
      | some endPos => if index + 1 < endPos then (url.take endPos).drop (index + 1) else url.drop (index + 1)
      | none => url.drop (index + 1)
    some (title.getD nullText ++ 47 :: name)

/-- A file name with a number before its first `.`. -/
def suffixed (fileName : Text) (n : ℕ) : Text :=
  match indexOf [46] fileName with
  | none => fileName ++ 40 :: Json.decimal n ++ [41]
  | some point =>
    fileName.take point ++ 40 :: Json.decimal n ++ [41, 46] ++ fileName.drop (point + 1)

/-- The loop over the items of the feed: the candidate is replaced whenever the next item has it. -/
def pickName (fileName : Text) (items : List RSSItem) : Text :=
  (items.foldl (fun (c : Text × ℕ) it =>
    if it.fileName = some c.1 then (suffixed fileName c.2, c.2 + 1) else c) (fileName, 1)).1

/-! ## Handlers -/

/-- `XMLParser` or `XMLRefresh`. -/
inductive HandlerKind
  | parser
  | refresh
  deriving DecidableEq

/-- The item that `currentitem` refers to: one of its own, or one that is in the list. -/
inductive CurrentItem
  | own (it : RSSItem)
  | listed (places : List ℕ)

structure Handler where
  currentitem : Option CurrentItem := none
  currentfeed : RSSFeed
  /-- `none` is `-1` -/
  currentindex : Option XmlTag := none
  isParsing : Bool := false
  builder : Option Text := some []
  /-- where `XMLRefresh` puts the next item -/
  index : ℕ := 0

namespace Handler
variable (p : SaxPlatform) (kind : HandlerKind)

def item (h : Handler) : Option RSSItem :=
  match h.currentitem with
  | none => none
  | some (.own it) => some it
  | some (.listed places) => places.head?.bind fun i => h.currentfeed.items[i]?

/-- An assignment to the current item. -/
def modify (h : Handler) (f : RSSItem → RSSItem) : Except Thrown Handler :=
  match h.currentitem with
  | none => .error .nullPointer
  | some (.own it) => .ok { h with currentitem := some (.own (f it)) }
  | some (.listed places) =>
    let items := places.foldl (fun items i => items.modify i f) h.currentfeed.items
    .ok { h with currentfeed := { h.currentfeed with items := items } }

def characters (h : Handler) (ch : Text) : Handler :=
  if h.currentindex.isSome then { h with builder := h.builder.map (· ++ ch) } else h

def enclosure (h : Handler) (url : Option Text) : Except Thrown Handler :=
  h.modify fun it =>
    let it := { it with enclosureUrl := url }
    match url.bind (baseName h.currentfeed.title) with
    | none => it
    | some fileName => { it with fileName := some (pickName fileName h.currentfeed.items) }

def startElement (h : Handler) (localName : Text) (url : Option Text) : Except Thrown Handler :=
  if p.equalsIgnoreCase localName tagItem then
    .ok { h with currentitem := some (.own {}), currentindex := none, isParsing := true }
  else
    let tag := p.itemIndexFromString localName
    let h := { h with currentindex := tag, builder := tag.map fun _ => [] }
    if p.equalsIgnoreCase localName tagEnclosure then h.enclosure url else .ok h

/-- The loop that looks for an item with the same URL. -/
def hasUrl (url : Text) : List RSSItem → Except Thrown Bool
  | [] => .ok false
  | it :: items =>
    match it.enclosureUrl with
    | none => .error .nullPointer
    | some u => if u = url then .ok true else hasUrl url items

/-- The current item is put into the list. -/
def add (h : Handler) (it : RSSItem) (i : ℕ) : Handler :=
  let places := match h.currentitem with
    | some (.listed places) => places
    | _ => []
  { h with
    currentfeed := { h.currentfeed with items := h.currentfeed.items.insertIdx i it }
    currentitem := some (.listed (places ++ [i]))
    isParsing := false }

/-- `</item>`. -/
def endItem (h : Handler) : Except Thrown Handler :=
  match h.item with
  | none => .error .nullPointer
  | some it =>
    match kind with
    | .parser => .ok (h.add it h.currentfeed.items.length)
    | .refresh =>
      match it.enclosureUrl with
      | none => .error .nullPointer
      | some url =>
        if url = [] then .ok h
        else match hasUrl url h.currentfeed.items with
          | .error e => .error e
          | .ok true => .ok h
          | .ok false => .ok { h.add it h.index with index := h.index + 1 }

/-- `endElement`. -/
def endElement (h : Handler) (localName : Text) : Except Thrown Handler :=
  if p.equalsIgnoreCase localName tagItem then h.endItem kind
  else match h.currentindex with
    | none => .ok h
    | some tag =>
      match h.builder with
      | none => .error .nullPointer
      | some text =>
        if h.isParsing then h.modify (p.setItem tag text)
        else .ok { h with currentfeed := h.currentfeed.setField tag text }

def handle (h : Handler) : SaxEvent → Except Thrown Handler
  | .startElement localName url => h.startElement p localName url
  | .characters ch => .ok (h.characters ch)
  | .endElement localName => h.endElement p kind localName

/-- The events of a document, up to an exception. No part of an event that raises one has changed the
feed. -/
def run (h : Handler) : List SaxEvent → Handler × Option Thrown
  | [] => (h, none)
  | e :: es =>
    match h.handle p kind e with
    | .error t => (h, some t)
    | .ok h => run h es

end Handler

def Handler.new (feed : RSSFeed) : Handler := { currentfeed := feed }

end Cedos.ReadyCast
