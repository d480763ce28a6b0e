import Cedos.ReadyCast.Rss

/-!
# Refreshing a feed

`XMLRefresh` puts each item it has read at `index`, which it then moves, into the list that it has just
searched for the URL of the item. So the new items stand before the old ones, in the order of the
document. An item that is not added leaves `isParsing` set; what follows it is then written to that item,
which is in no list.
-/

namespace Cedos.ReadyCast

/-! ## Documents -/

/-- A part of a document: an `item` element, or an event outside of these. -/
inductive RssNode
  | item (start : Text) (url : Option Text) (body : List SaxEvent) (stop : Text)
  | other (e : SaxEvent)

def RssNode.events : RssNode → List SaxEvent
  | .item start url body stop => .startElement start url :: (body ++ [.endElement stop])
  | .other e => [e]

/-- An event within an item: items are not nested, and an enclosure has a URL. -/
def SaxEvent.within (p : SaxPlatform) : SaxEvent → Bool
  | .startElement n url => !p.equalsIgnoreCase n tagItem && (!p.equalsIgnoreCase n tagEnclosure || url.isSome)
  | .characters _ => true
  | .endElement n => !p.equalsIgnoreCase n tagItem

/-- An event outside of the items: enclosures belong to items. -/
def SaxEvent.outside (p : SaxPlatform) : SaxEvent → Bool
  | .startElement n _ => !p.equalsIgnoreCase n tagItem && !p.equalsIgnoreCase n tagEnclosure
  | .characters _ => true
  | .endElement n => !p.equalsIgnoreCase n tagItem

/-- What a well-formed document consists of. -/
def RssNode.wellFormed (p : SaxPlatform) : RssNode → Bool
  | .item start _ body stop =>
    p.equalsIgnoreCase start tagItem && p.equalsIgnoreCase stop tagItem && body.all fun e => e.within p
  | .other e => e.outside p

structure ItemReading where
  item : RSSItem := {}
  tag : Option XmlTag := none
  text : Text := []

def ItemReading.read (p : SaxPlatform) (r : ItemReading) : SaxEvent → ItemReading
  | .startElement n url =>
    { item := if p.equalsIgnoreCase n tagEnclosure then { r.item with enclosureUrl := url } else r.item
      tag := p.itemIndexFromString n
      text := [] }
  | .characters ch => { r with text := r.text ++ ch }
  | .endElement _ =>
    match r.tag with
    | some tag => { r with item := p.setItem tag r.text r.item }
    | none => r

def RssNode.item? (p : SaxPlatform) : RssNode → Option RSSItem
  | .item _ _ body _ => some (body.foldl (ItemReading.read p) {}).item
  | .other _ => none

/-- The items of a document, in its order. -/
def docItems (p : SaxPlatform) (doc : List RssNode) : List RSSItem := doc.filterMap (RssNode.item? p)

/-- The items with a URL that is not empty and does not occur before. -/
def firstNew (seen : List (Option Text)) : List RSSItem → List RSSItem
  | [] => []
  | it :: items =>
    if it.enclosureUrl = some [] ∨ it.enclosureUrl ∈ seen then firstNew seen items
    else it :: firstNew (it.enclosureUrl :: seen) items

def urls (items : List RSSItem) : List (Option Text) := items.map RSSItem.enclosureUrl

/-- An item as the document has it, without the file name that depends on the feed. -/
def RSSItem.unnamed (it : RSSItem) : RSSItem := { it with fileName := some [] }

theorem urls_unnamed (items : List RSSItem) : urls (items.map RSSItem.unnamed) = urls items := by
  rw [urls, urls, List.map_map]
  rfl

section FirstNew
variable {seen seen' : List (Option Text)} {items : List RSSItem}

theorem firstNew_congr (h : ∀ u, u ∈ seen ↔ u ∈ seen') : firstNew seen items = firstNew seen' items := by
  induction items generalizing seen seen' with
  | nil => rfl
  | cons it items ih =>
    have hcons : ∀ u, u ∈ it.enclosureUrl :: seen ↔ u ∈ it.enclosureUrl :: seen' := by
      intro u
      rw [List.mem_cons, List.mem_cons, h u]
    simp only [firstNew, h it.enclosureUrl, ih h, ih hcons]

/-- Every URL of the list has been seen then, unless it is empty. -/
theorem mem_urls_firstNew {it : RSSItem} (hmem : it ∈ items) (hurl : it.enclosureUrl ≠ some []) :
    it.enclosureUrl ∈ urls (firstNew seen items) ∨ it.enclosureUrl ∈ seen := by
  induction items generalizing seen with
  | nil => cases hmem
  | cons x items ih =>
    simp only [firstNew]
    cases List.mem_cons.mp hmem with
    | inl heq =>
      subst heq
      split_ifs with hold
      · exact .inr (hold.resolve_left hurl)
      · exact .inl List.mem_cons_self
    | inr htail =>
      split_ifs
      · exact ih htail
      · have hmem : it.enclosureUrl ∈ urls (firstNew (x.enclosureUrl :: seen) items) ∨
            it.enclosureUrl ∈ x.enclosureUrl :: seen := ih htail
        rcases hmem with hnew | hseen
        · exact .inl (List.mem_cons_of_mem _ hnew)
        · rcases List.mem_cons.mp hseen with heq | hseen
          · exact .inl (List.mem_cons.mpr (.inl heq))
          · exact .inr hseen

theorem firstNew_eq_nil (h : ∀ it ∈ items, it.enclosureUrl = some [] ∨ it.enclosureUrl ∈ seen) :
    firstNew seen items = [] := by
  induction items with
  | nil => rfl
  | cons it items ih =>
    rw [firstNew, if_pos (h it List.mem_cons_self)]
    exact ih fun x hx => h x (List.mem_cons_of_mem it hx)

end FirstNew

/-! ## The handler -/

namespace Handler
variable {p : SaxPlatform} {k : HandlerKind} {h h' : Handler}

theorem run_append {es fs : List SaxEvent} (hrun : h.run p k es = (h', none)) :
    h.run p k (es ++ fs) = h'.run p k fs := by
  induction es generalizing h with
  | nil =>
    cases hrun
    rfl
  | cons e es ih =>
    simp only [run, List.cons_append] at hrun ⊢
    cases hone : h.handle p k e with
    | error t => simp [hone] at hrun
    | ok x =>
      rw [hone] at hrun
      exact ih hrun

theorem run_cons {e : SaxEvent} {es : List SaxEvent} (hone : h.handle p k e = .ok h') :
    h.run p k (e :: es) = h'.run p k es := by
  simp only [run, hone]

theorem hasUrl_eq {url : Text} {items : List RSSItem} (h : none ∉ urls items) :
    hasUrl url items = .ok (decide (some url ∈ urls items)) := by
  induction items with
  | nil => rfl
  | cons it items ih =>
    simp only [urls, List.map_cons, List.mem_cons, not_or] at h
    cases hu : it.enclosureUrl with
    | none => exact absurd hu.symm h.1
    | some u =>
      simp only [hasUrl, hu]
      split_ifs with heq
      · simp [urls, hu, heq]
      · rw [ih h.2]
        simp [urls, hu, Ne.symm heq]

/-- The list is `items`, and the handler is ready for an event outside of the items. -/
structure Between (items : List RSSItem) (index : ℕ) (h : Handler) : Prop where
  items : h.currentfeed.items = items
  index : h.index = index
  own : h.isParsing = true → ∃ it, h.currentitem = some (.own it)
  builder : h.currentindex.isSome = true → h.builder.isSome = true

/-- The list is `items`, and the handler has read the item as far as `r`. -/
structure Inside (items : List RSSItem) (index : ℕ) (r : ItemReading) (h : Handler) : Prop where
  items : h.currentfeed.items = items
  index : h.index = index
  parsing : h.isParsing = true
  own : ∃ it, h.currentitem = some (.own it) ∧ it.unnamed = r.item
  tag : h.currentindex = r.tag
  builder : r.tag.isSome = true → h.builder = some r.text

variable {items : List RSSItem} {index : ℕ} {r : ItemReading}

theorem Between.of_new (feed : RSSFeed) :
    Between ([] ++ feed.items) (List.length (α := RSSItem) []) (Handler.new feed) where
  items := rfl
  index := rfl
  own := by simp [Handler.new]
  builder := by simp [Handler.new]

/-- An event outside of the items leaves the list alone. -/
theorem Between.handle (hb : Between items index h) {e : SaxEvent} (he : e.outside p = true) :
    ∃ h', h.handle p k e = .ok h' ∧ Between items index h' := by
  cases e with
  | startElement n url =>
    simp only [SaxEvent.outside, Bool.and_eq_true, Bool.not_eq_true'] at he
    simp only [Handler.handle, startElement, he.1, he.2, Bool.false_eq_true, if_false]
    refine ⟨_, rfl, hb.items, hb.index, hb.own, ?_⟩
    intro htag
    simpa using htag
  | characters ch =>
    refine ⟨_, rfl, ?_⟩
    rw [characters]
    split_ifs with htag
    · exact ⟨hb.items, hb.index, hb.own, fun h => by simpa using hb.builder h⟩
    · exact hb
  | endElement n =>
    have hname : p.equalsIgnoreCase n tagItem = false := by simpa [SaxEvent.outside] using he
    simp only [Handler.handle, endElement, hname, Bool.false_eq_true, if_false]
    cases htag : h.currentindex with
    | none => exact ⟨h, rfl, hb⟩
    | some tag =>
      obtain ⟨text, htext⟩ := Option.isSome_iff_exists.mp (hb.builder (by rw [htag]; rfl))
      simp only [htext]
      split_ifs with hparse
      · -- the item is not in the list
        obtain ⟨it, hit⟩ := hb.own hparse
        simp only [Handler.modify, hit]
        refine ⟨_, rfl, hb.items, hb.index, fun _ => ⟨_, rfl⟩, fun _ => ?_⟩
        exact Option.isSome_iff_exists.mpr ⟨text, htext⟩
      · refine ⟨_, rfl, ?_, hb.index, hb.own, fun _ => rfl⟩
        cases tag <;> exact hb.items

theorem Between.startItem (hb : Between items index h) {n : Text} (hn : p.equalsIgnoreCase n tagItem = true)
    (url : Option Text) :
    ∃ h', h.handle p k (.startElement n url) = .ok h' ∧ Inside items index {} h' := by
  simp only [Handler.handle, startElement, hn, if_true]
  exact ⟨_, rfl, hb.items, hb.index, rfl, ⟨{}, rfl, rfl⟩, rfl, fun h => nomatch h⟩

theorem unnamed_setItem (tag : XmlTag) (text : Text) (it : RSSItem) :
    (p.setItem tag text it).unnamed = p.setItem tag text it.unnamed := by
  cases tag with
  | pubDate =>
    simp only [SaxPlatform.setItem, SaxPlatform.setDate]
    cases p.readFormat text <;> cases p.readFormat2 text <;> simp only [RSSItem.unnamed] <;> split_ifs <;> rfl
  | _ => rfl

/-- The handler reads the item as the document has it. -/
theorem Inside.handle (hi : Inside items index r h) {e : SaxEvent} (he : e.within p = true) :
    ∃ h', h.handle p k e = .ok h' ∧ Inside items index (r.read p e) h' := by
  obtain ⟨it, hit, hname⟩ := hi.own
  cases e with
  | startElement n url =>
    simp only [SaxEvent.within, Bool.and_eq_true, Bool.not_eq_true'] at he
    simp only [Handler.handle, startElement, he.1, Bool.false_eq_true, if_false]
    split_ifs with henc
    · simp only [enclosure, Handler.modify, hit]
      refine ⟨_, rfl, hi.items, hi.index, hi.parsing, ⟨_, rfl, ?_⟩, rfl, ?_⟩
      · simp only [ItemReading.read, henc, if_true, ← hname]
        split <;> rfl
      · intro htag
        obtain ⟨tag, htag⟩ := Option.isSome_iff_exists.mp htag
        simp only [ItemReading.read] at htag ⊢
        simp [htag]
    · refine ⟨_, rfl, hi.items, hi.index, hi.parsing, ⟨it, hit, ?_⟩, rfl, ?_⟩
      · simp only [ItemReading.read, henc, Bool.false_eq_true, if_false, hname]
      · intro htag
        obtain ⟨tag, htag⟩ := Option.isSome_iff_exists.mp htag
        simp only [ItemReading.read] at htag ⊢
        simp [htag]
  | characters ch =>
    refine ⟨_, rfl, ?_⟩
    rw [characters, hi.tag]
    split_ifs with htag
    · refine ⟨hi.items, hi.index, hi.parsing, hi.own, rfl, fun _ => ?_⟩
      simp [hi.builder htag, ItemReading.read]
    · exact ⟨hi.items, hi.index, hi.parsing, hi.own, hi.tag, fun h => absurd h htag⟩
  | endElement n =>
    have hn : p.equalsIgnoreCase n tagItem = false := by simpa [SaxEvent.within] using he
    simp only [Handler.handle, endElement, hn, Bool.false_eq_true, if_false, hi.tag, ItemReading.read]
    cases htag : r.tag with
    | none => exact ⟨h, rfl, hi⟩
    | some tag =>
      have htext := hi.builder (by rw [htag]; rfl)
      simp only [htext, hi.parsing, if_true, Handler.modify, hit]
      refine ⟨_, rfl, hi.items, hi.index, rfl, ⟨_, rfl, ?_⟩, hi.tag.trans htag, fun _ => rfl⟩
      rw [unnamed_setItem, hname]

theorem Inside.run (hi : Inside items index r h) {es : List SaxEvent} (hes : es.all (fun e => e.within p) = true) :
    ∃ h', h.run p k es = (h', none) ∧ Inside items index (es.foldl (ItemReading.read p) r) h' := by
  induction es generalizing h r with
  | nil => exact ⟨h, rfl, hi⟩
  | cons e es ih =>
    simp only [List.all_cons, Bool.and_eq_true] at hes
    obtain ⟨x, hone, hx⟩ := hi.handle (k := k) hes.1
    obtain ⟨h', hrun, hi'⟩ := ih hx hes.2
    exact ⟨h', (run_cons hone).trans hrun, hi'⟩

theorem url_read {es : List SaxEvent} (hes : es.all (fun e => e.within p) = true) (hr : r.item.enclosureUrl ≠ none) :
    (es.foldl (ItemReading.read p) r).item.enclosureUrl ≠ none := by
  induction es generalizing r with
  | nil => exact hr
  | cons e es ih =>
    simp only [List.all_cons, Bool.and_eq_true] at hes
    refine ih hes.2 ?_
    cases e with
    | startElement n url =>
      have hone := hes.1
      simp only [SaxEvent.within, Bool.and_eq_true, Bool.or_eq_true, Bool.not_eq_true'] at hone
      simp only [ItemReading.read]
      split_ifs with henc
      · exact Option.isSome_iff_ne_none.mp (hone.2.resolve_left (by simp [henc]))
      · exact hr
    | characters ch => exact hr
    | endElement n =>
      simp only [ItemReading.read]
      cases r.tag with
      | none => exact hr
      | some tag =>
        cases tag with
        | pubDate =>
          simp only [SaxPlatform.setItem, SaxPlatform.setDate]
          cases p.readFormat r.text <;> cases p.readFormat2 r.text <;> simp only <;> split_ifs <;> exact hr
        | _ => exact hr

theorem insertIdx_length {new old : List RSSItem} (it : RSSItem) :
    (new ++ old).insertIdx new.length it = new ++ [it] ++ old := by
  induction new with
  | nil => rfl
  | cons x new ih => simpa using ih

/-- The end of an item: it is added if its URL is new. -/
theorem Inside.endItem {new old : List RSSItem} (hi : Inside (new ++ old) new.length r h)
    (hall : none ∉ urls (new ++ old)) (hurl : r.item.enclosureUrl ≠ none) {n : Text}
    (hn : p.equalsIgnoreCase n tagItem = true) :
    ∃ h' N, h.handle p .refresh (.endElement n) = .ok h' ∧ Between (new ++ N ++ old) (new ++ N).length h' ∧
      N.map RSSItem.unnamed = firstNew (urls (new ++ old)) [r.item] := by
  obtain ⟨it, hit, hname⟩ := hi.own
  obtain ⟨url, hsome⟩ := Option.ne_none_iff_exists'.mp hurl
  have hit' : it.enclosureUrl = some url := (congrArg RSSItem.enclosureUrl hname).trans hsome
  have hkept : Between (new ++ [] ++ old) (new ++ []).length h := by
    rw [List.append_nil]
    refine ⟨hi.items, hi.index, fun _ => ⟨it, hit⟩, fun htag => ?_⟩
    rw [hi.builder (hi.tag ▸ htag)]
    rfl
  simp only [Handler.handle, endElement, hn, if_true, Handler.endItem, item, hit, hit', firstNew, hsome]
  rw [hi.items, hasUrl_eq hall]
  by_cases hempty : url = []
  · rw [if_pos hempty, if_pos (.inl (by rw [hempty]))]
    exact ⟨h, [], rfl, hkept, rfl⟩
  rw [if_neg hempty]
  by_cases hmem : some url ∈ urls (new ++ old)
  · rw [if_pos (.inr hmem), decide_eq_true hmem]
    exact ⟨h, [], rfl, hkept, rfl⟩
  · rw [if_neg (by simp [hempty, hmem]), decide_eq_false hmem]
    refine ⟨_, [it], rfl, ⟨?_, ?_, (fun h => nomatch h), hkept.builder⟩, by rw [List.map_singleton, hname]⟩
    · simp only [add, hi.items, hi.index, insertIdx_length]
    · simp [hi.index]

theorem Between.node {new old : List RSSItem} (hb : Between (new ++ old) new.length h)
    (hall : none ∉ urls (new ++ old)) {nd : RssNode} (hnd : nd.wellFormed p = true) :
    ∃ h' N, h.run p .refresh nd.events = (h', none) ∧ Between (new ++ N ++ old) (new ++ N).length h' ∧
      N.map RSSItem.unnamed = firstNew (urls (new ++ old)) (docItems p [nd]) := by
  cases nd with
  | other e =>
    obtain ⟨h', hone, hb'⟩ := hb.handle (k := .refresh) hnd
    refine ⟨h', [], run_cons hone, ?_, rfl⟩
    rw [List.append_nil]
    exact hb'
  | item start url body stop =>
    simp only [RssNode.wellFormed, Bool.and_eq_true] at hnd
    obtain ⟨⟨hstart, hstop⟩, hbody⟩ := hnd
    obtain ⟨x, hone, hx⟩ := hb.startItem (k := .refresh) hstart url
    obtain ⟨y, hrun, hy⟩ := hx.run (k := .refresh) hbody
    have hurl := url_read (r := {}) hbody (by simp)
    obtain ⟨h', N, hend, hb', hN⟩ := hy.endItem hall hurl hstop
    refine ⟨h', N, ?_, hb', hN⟩
    rw [RssNode.events, run_cons hone, run_append hrun, run_cons hend]
    rfl

/-- The list never has an item without a URL. -/
theorem none_notMem_urls {new N old : List RSSItem} {seen : List (Option Text)} {its : List RSSItem}
    (hall : none ∉ urls (new ++ old)) (hits : none ∉ urls its)
    (hN : N.map RSSItem.unnamed = firstNew seen its) : none ∉ urls (new ++ N ++ old) := by
  have hsub : ∀ {seen its}, none ∉ urls its → none ∉ urls (firstNew seen its) := by
    intro seen its h
    induction its generalizing seen with
    | nil => exact h
    | cons it its ih =>
      simp only [urls, List.map_cons, List.mem_cons, not_or] at h
      rw [firstNew]
      split_ifs
      · exact ih h.2
      · simp only [urls, List.map_cons, List.mem_cons, not_or]
        exact ⟨h.1, ih h.2⟩
  have hurls : urls N = urls (firstNew seen its) := by rw [← hN, urls_unnamed]
  have hnew : none ∉ urls N := hurls ▸ hsub hits
  simp only [urls, List.map_append, List.mem_append, not_or] at hall hnew ⊢
  exact ⟨⟨hall.1, hnew⟩, hall.2⟩

end Handler

theorem firstNew_append (seen : List (Option Text)) (a b : List RSSItem) :
    firstNew seen (a ++ b) = firstNew seen a ++ firstNew (urls (firstNew seen a) ++ seen) b := by
  induction a generalizing seen with
  | nil => rfl
  | cons it a ih =>
    simp only [List.cons_append, firstNew]
    split_ifs
    · exact ih seen
    · rw [ih, List.cons_append]
      refine congrArg _ (congrArg _ (firstNew_congr fun u => ?_))
      simp only [urls, List.map_cons, List.mem_append, List.mem_cons]
      tauto

section Refresh
variable {p : SaxPlatform} {h : Handler}

theorem none_notMem_docItems {doc : List RssNode} (hdoc : ∀ nd ∈ doc, nd.wellFormed p = true) :
    none ∉ urls (docItems p doc) := by
  simp only [urls, docItems, List.mem_map, List.mem_filterMap, not_exists, not_and]
  rintro it ⟨nd, hnd, hitem⟩
  cases nd with
  | other e => cases hitem
  | item start url body stop =>
    have hwf := hdoc _ hnd
    simp only [RssNode.wellFormed, Bool.and_eq_true] at hwf
    cases hitem
    exact Handler.url_read hwf.2 (by simp)

theorem Handler.Between.run {new old : List RSSItem} {doc : List RssNode} (hb : Between (new ++ old) new.length h)
    (hall : none ∉ urls (new ++ old)) (hdoc : ∀ nd ∈ doc, nd.wellFormed p = true) :
    ∃ h' N, h.run p .refresh (doc.flatMap RssNode.events) = (h', none) ∧ h'.currentfeed.items = new ++ N ++ old ∧
      N.map RSSItem.unnamed = firstNew (urls (new ++ old)) (docItems p doc) := by
  induction doc generalizing h new with
  | nil => exact ⟨h, [], rfl, by rw [List.append_nil, hb.items], rfl⟩
  | cons nd doc ih =>
    have hone : ∀ x ∈ [nd], x.wellFormed p = true := fun x hx => hdoc x (List.mem_cons.mpr (.inl (by simpa using hx)))
    obtain ⟨x, N, hrun, hx, hN⟩ := hb.node hall (hdoc nd List.mem_cons_self)
    have hall' := none_notMem_urls hall (none_notMem_docItems hone) hN
    obtain ⟨h', M, hrun', hitems, hM⟩ := ih hx hall' fun y hy => hdoc y (List.mem_cons_of_mem nd hy)
    refine ⟨h', N ++ M, ?_, by rw [hitems]; simp, ?_⟩
    · rw [List.flatMap_cons, run_append hrun, hrun']
    · have hurls : urls N = urls (firstNew (urls (new ++ old)) (docItems p [nd])) := by rw [← hN, urls_unnamed]
      have hsplit : docItems p (nd :: doc) = docItems p [nd] ++ docItems p doc := by
        rw [docItems, ← List.singleton_append, List.filterMap_append]
        rfl
      rw [hsplit, firstNew_append, ← hurls, List.map_append, hN, hM]
      refine congrArg _ (firstNew_congr fun u => ?_)
      simp only [urls, List.map_append, List.mem_append]
      tauto

/-- **A refresh merges the document into the feed.**  If no item of the feed lacks a URL, the refresh ends without an
exception. The items of the document whose URL is not empty and not in the feed are put before the items of the feed,
each URL once and in the order of the document. To refresh again with the same document adds nothing. -/
theorem refresh_merges (p : SaxPlatform) (feed : RSSFeed) (doc : List RssNode)
    (hfeed : ∀ it ∈ feed.items, it.enclosureUrl ≠ none) (hdoc : ∀ nd ∈ doc, nd.wellFormed p = true) :
    ∃ h N, (Handler.new feed).run p .refresh (doc.flatMap RssNode.events) = (h, none) ∧
      h.currentfeed.items = N ++ feed.items ∧ N.map RSSItem.unnamed = firstNew (urls feed.items) (docItems p doc) ∧
      ∃ h', (Handler.new h.currentfeed).run p .refresh (doc.flatMap RssNode.events) = (h', none) ∧
        h'.currentfeed.items = h.currentfeed.items := by
  have hall : none ∉ urls ([] ++ feed.items) := by
    simp only [urls, List.nil_append, List.mem_map, not_exists, not_and]
    exact hfeed
  obtain ⟨h, N, hrun, hitems, hN⟩ := Handler.Between.run (.of_new feed) hall hdoc
  rw [List.nil_append] at hN
  have hurls : urls N = urls (firstNew (urls feed.items) (docItems p doc)) := by rw [← hN, urls_unnamed]
  have hall' : none ∉ urls ([] ++ h.currentfeed.items) := by
    rw [List.nil_append, hitems]
    exact Handler.none_notMem_urls hall (none_notMem_docItems hdoc) hN
  refine ⟨h, N, hrun, by simpa using hitems, hN, ?_⟩
  obtain ⟨h', M, hrun', hitems', hM⟩ := Handler.Between.run (.of_new h.currentfeed) hall' hdoc
  have hnone : firstNew (urls ([] ++ h.currentfeed.items)) (docItems p doc) = [] := by
    refine firstNew_eq_nil fun it hit => or_iff_not_imp_left.mpr fun hne => ?_
    have hmem : it.enclosureUrl ∈ urls N ∨ it.enclosureUrl ∈ urls feed.items := hurls ▸ mem_urls_firstNew hit hne
    rw [List.nil_append, hitems, List.nil_append, urls, List.map_append, List.mem_append]
    exact hmem
  have hM : M = [] := List.map_eq_nil_iff.mp (hM.trans hnone)
  exact ⟨h', hrun', by rw [hitems', hM]; rfl⟩

/-- A platform that reads no dates. -/
def plainPlatform : SaxPlatform where
  foldCase := id
  readFormat := fun _ => none
  readFormat2 := fun _ => none
  printFormat := fun _ => []

/-- A document with items of these URLs. -/
def itemsOf (us : List Text) : List RssNode :=
  us.map fun u => .item tagItem none [.startElement tagEnclosure (some u), .endElement tagEnclosure] tagItem

theorem refresh_merges_itemsOf :
    ∃ h N, (Handler.new { items := [{ enclosureUrl := some [50] }] }).run plainPlatform .refresh
        ((itemsOf [[49], [50], [49], [], [51]]).flatMap RssNode.events) = (h, none) ∧
      h.currentfeed.items = N ++ [{ enclosureUrl := some [50] }] ∧ urls N = [some [49], some [51]] := by
  obtain ⟨h, N, hrun, hitems, hN, -⟩ := refresh_merges plainPlatform { items := [{ enclosureUrl := some [50] }] }
    (itemsOf [[49], [50], [49], [], [51]]) (by simp) (by decide)
  refine ⟨h, N, hrun, hitems, ?_⟩
  rw [← urls_unnamed, hN]
  decide

end Refresh

end Cedos.ReadyCast
