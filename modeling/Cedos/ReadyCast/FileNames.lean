import Cedos.Lib.Run
import Cedos.ReadyCast.Refresh

/-!
# File names of episodes

The handlers give an item the name at the end of its URL, or that name with the first number that is
free. They look for it in one pass over the list: whenever an item has the candidate, the next candidate
is compared with the items that follow. A candidate that only an earlier item has is not noticed.
`XMLRefresh` puts the newer items, which have the higher numbers, to the front.
-/

namespace Cedos.ReadyCast

/-! ## The pass over the list -/

/-- The names that are tried. -/
def candidate (fileName : Text) : ℕ → Text
  | 0 => fileName
  | n + 1 => suffixed fileName (n + 1)

/-- Where items have the first `k` candidates, in this order, and some item has the next one, there are items that have
the first `k + 1` in this order. -/
def InOrder (fileName : Text) (names : List (Option Text)) : Prop :=
  ∀ k, ((List.range k).map fun i => some (candidate fileName i)).Sublist names →
    some (candidate fileName k) ∈ names → ((List.range (k + 1)).map fun i => some (candidate fileName i)).Sublist names

/-- How many candidates the pass replaces, beginning with the `k`-th. -/
def replaced (fileName : Text) (k : ℕ) : List (Option Text) → ℕ
  | [] => k
  | n :: names => if n = some (candidate fileName k) then replaced fileName (k + 1) names else replaced fileName k names

section Pass
variable {f : Text} {names : List (Option Text)}

theorem pickName_eq (f : Text) (items : List RSSItem) :
    pickName f items = candidate f (replaced f 0 (items.map RSSItem.fileName)) := by
  have hpass (k : ℕ) : (items.foldl (fun (c : Text × ℕ) it =>
      if it.fileName = some c.1 then (suffixed f c.2, c.2 + 1) else c) (candidate f k, k + 1)).1 =
        candidate f (replaced f k (items.map RSSItem.fileName)) := by
    induction items generalizing k with
    | nil => rfl
    | cons it items ih =>
      simp only [List.foldl_cons, List.map_cons, replaced]
      split_ifs
      · exact ih (k + 1)
      · exact ih k
  exact hpass 0

theorem le_replaced (k : ℕ) (names : List (Option Text)) : k ≤ replaced f k names := by
  induction names generalizing k with
  | nil => exact le_rfl
  | cons n names ih =>
    rw [replaced]
    split_ifs
    · exact (Nat.le_succ k).trans (ih (k + 1))
    · exact ih k

/-- The pass replaces as many candidates as the list has in their order. -/
theorem sublist_iff_replaced (k m : ℕ) :
    ((List.range' k m).map fun i => some (candidate f i)).Sublist names ↔ k + m ≤ replaced f k names := by
  induction names generalizing k m with
  | nil =>
    cases m with
    | zero => simp [replaced]
    | succ m => simp [replaced, List.range'_succ]
  | cons n names ih =>
    cases m with
    | zero => simpa using le_replaced k (n :: names)
    | succ m =>
      rw [List.range'_succ, List.map_cons, replaced]
      split_ifs with hn
      · rw [hn, List.cons_sublist_cons, ih]
        omega
      · rw [List.sublist_cons_iff]
        have hskip := ih k (m + 1)
        rw [List.range'_succ, List.map_cons] at hskip
        rw [hskip]
        refine or_iff_left ?_
        rintro ⟨r, hr, -⟩
        exact hn (List.cons.inj hr).1.symm

/-- No item has the name that the pass ends with, if the candidates are in order, and only then. -/
theorem pickName_fresh_iff (f : Text) (items : List RSSItem) :
    some (pickName f items) ∉ items.map RSSItem.fileName ↔ InOrder f (items.map RSSItem.fileName) := by
  have hsub (k : ℕ) : ((List.range k).map fun i => some (candidate f i)).Sublist (items.map RSSItem.fileName) ↔
      k ≤ replaced f 0 (items.map RSSItem.fileName) := by
    rw [List.range_eq_range', sublist_iff_replaced, Nat.zero_add]
  rw [pickName_eq]
  constructor
  · intro hfresh k hk hmem
    rw [hsub] at hk ⊢
    refine lt_of_le_of_ne hk ?_
    rintro rfl
    exact hfresh hmem
  · intro hord hmem
    have hnext := hord _ ((hsub _).mpr le_rfl) hmem
    rw [hsub] at hnext
    omega

end Pass

/-! ## Sessions -/

/-- The URL contains a `/`. -/
def RSSItem.slashed (it : RSSItem) : Bool := it.enclosureUrl.any fun u => decide (47 ∈ u)

/-- No two such items have the same file name. -/
def DistinctNames (items : List RSSItem) : Prop :=
  items.Pairwise fun a b => a.slashed = true → b.slashed = true → a.fileName ≠ b.fileName

instance (items : List RSSItem) : Decidable (DistinctNames items) := by
  unfold DistinctNames
  infer_instance

/-- A feed and the handler that reads a document into it. -/
structure FeedSession where
  kind : HandlerKind := .parser
  handler : Handler
  /-- the handler has raised an exception -/
  thrown : Bool := false

/-- A new document, or the next event of the document. -/
inductive FeedEvent
  | opens (kind : HandlerKind)
  | sax (e : SaxEvent)

/-- The current item is in the list. -/
def Handler.listed (h : Handler) : Bool :=
  match h.currentitem with
  | some (.listed _) => true
  | _ => false

section Session
variable (p : SaxPlatform)

def FeedSession.apply (s : FeedSession) : FeedEvent → FeedSession
  | .opens kind => { kind := kind, handler := Handler.new s.handler.currentfeed }
  | .sax e =>
    if s.thrown then s
    else match s.handler.handle p s.kind e with
      | .ok h => { s with handler := h }
      | .error _ => { s with thrown := true }

/-- A new feed is parsed and then refreshed. -/
def feedSession : Machine FeedSession FeedEvent where
  init s := s.kind = .parser ∧ s.handler = Handler.new s.handler.currentfeed ∧ s.handler.currentfeed.items = []
  allowed s e := match e with
    | .opens kind => kind = .parser → s.kind = .parser
    | .sax _ => True
  apply := FeedSession.apply p

/-- Items and their enclosures are read before the item is in the list, and of an enclosure whose URL has a `/` there
is a name to begin with, the candidates after which are in order. -/
def Nameable (s : FeedSession) : FeedEvent → Prop
  | .opens _ => True
  | .sax (.startElement n url) => p.equalsIgnoreCase n tagEnclosure = true → s.handler.listed = false ∧
      ∀ u, url = some u → 47 ∈ u → ∃ f, baseName s.handler.currentfeed.title u = some f ∧
        InOrder f (s.handler.currentfeed.items.map RSSItem.fileName)
  | .sax (.characters _) => True
  | .sax (.endElement n) => p.equalsIgnoreCase n tagItem = true → s.handler.listed = false

end Session

/-- The names are distinct, and stay so when the current item is added. -/
structure NamesFresh (h : Handler) : Prop where
  distinct : DistinctNames h.currentfeed.items
  current : ∀ it, h.currentitem = some (.own it) → it.slashed = true →
    some it.fileName ∉ (h.currentfeed.items.map fun x => some x.fileName)
  parsing : h.isParsing = true → h.listed = false

namespace NamesFresh
variable {p : SaxPlatform} {k : HandlerKind} {h h' : Handler}

theorem of_new {feed : RSSFeed} (h : DistinctNames feed.items) : NamesFresh (Handler.new feed) where
  distinct := h
  current := fun _ hit => nomatch hit
  parsing := fun hparse => nomatch hparse

theorem of_same (hf : NamesFresh h) (hitems : h'.currentfeed.items = h.currentfeed.items)
    (hitem : h'.currentitem = h.currentitem) (hparse : h'.isParsing = h.isParsing) : NamesFresh h' := by
  constructor
  · rw [hitems]
    exact hf.distinct
  · rw [hitems, hitem]
    exact hf.current
  · intro hp
    rw [Handler.listed, hitem]
    exact hf.parsing (hparse ▸ hp)

theorem of_own (hf : NamesFresh h) (hitems : h'.currentfeed.items = h.currentfeed.items) {it : RSSItem}
    (hitem : h'.currentitem = some (.own it))
    (hfresh : it.slashed = true → some it.fileName ∉ (h.currentfeed.items.map fun x => some x.fileName)) :
    NamesFresh h' := by
  constructor
  · rw [hitems]
    exact hf.distinct
  · intro x hx
    rw [hitem, Option.some.injEq, CurrentItem.own.injEq] at hx
    subst hx
    rw [hitems]
    exact hfresh
  · intro _
    rw [Handler.listed, hitem]

theorem listed_eq_false (h0 : h.listed = false) {x : CurrentItem} (hx : h.currentitem = some x) :
    ∃ it, x = .own it := by
  rw [Handler.listed, hx] at h0
  cases x with
  | own it => exact ⟨it, rfl⟩
  | listed places => cases h0

theorem startElement (hf : NamesFresh h) {n : Text} {url : Option Text} {s : FeedSession} (hs : s.handler = h)
    (hn : Nameable p s (.sax (.startElement n url))) (hok : h.startElement p n url = .ok h') : NamesFresh h' := by
  rw [Handler.startElement] at hok
  split_ifs at hok with hitem henc
  · cases hok
    exact hf.of_own rfl rfl (by simp [RSSItem.slashed])
  · obtain ⟨hlisted, hname⟩ := hn henc
    subst hs
    simp only [Handler.enclosure, Handler.modify] at hok
    cases hcur : s.handler.currentitem with
    | none => simp [hcur] at hok
    | some x =>
      obtain ⟨it, rfl⟩ := listed_eq_false hlisted hcur
      simp only [hcur, Except.ok.injEq] at hok
      subst hok
      refine hf.of_own rfl rfl fun hslash => ?_
      cases url with
      | none => simp [RSSItem.slashed] at hslash
      | some u =>
        have hu : 47 ∈ u := by
          cases hb : baseName s.handler.currentfeed.title u <;> simpa [hb, RSSItem.slashed] using hslash
        obtain ⟨f, hbase, hord⟩ := hname u rfl hu
        have hfresh := (pickName_fresh_iff f s.handler.currentfeed.items).mpr hord
        simp only [Option.bind_some, hbase]
        simpa using hfresh
  · cases hok
    exact hf.of_same rfl rfl rfl

theorem add (hf : NamesFresh h) {it : RSSItem} (hit : h.currentitem = some (.own it)) (i : ℕ) :
    NamesFresh (h.add it i) := by
  constructor
  · have hall : DistinctNames (it :: h.currentfeed.items) := by
      refine List.pairwise_cons.mpr ⟨fun x hx hs _ heq => ?_, hf.distinct⟩
      exact hf.current it hit hs (heq ▸ List.mem_map_of_mem hx)
    change DistinctNames (h.currentfeed.items.insertIdx i it)
    by_cases hle : i ≤ h.currentfeed.items.length
    · refine ((List.perm_insertIdx it _ hle).pairwise_iff ?_).mpr hall
      intro a b hab ha hb heq
      exact hab hb ha heq.symm
    · rw [List.insertIdx_of_length_lt (by omega)]
      exact hf.distinct
  · intro x hx
    cases hx
  · intro hparse
    cases hparse

theorem endItem (hf : NamesFresh h) (hlisted : h.listed = false) (hok : h.endItem k = .ok h') : NamesFresh h' := by
  cases hcur : h.currentitem with
  | none => simp [Handler.endItem, Handler.item, hcur] at hok
  | some x =>
    obtain ⟨it, rfl⟩ := listed_eq_false hlisted hcur
    simp only [Handler.endItem, Handler.item, hcur] at hok
    cases k with
    | parser =>
      cases hok
      exact hf.add hcur _
    | refresh =>
      simp only at hok
      split at hok
      · cases hok
      · split_ifs at hok
        · cases hok
          exact hf
        · split at hok
          · cases hok
          · cases hok
            exact hf
          · cases hok
            exact (hf.add hcur _).of_same rfl rfl rfl

theorem endElement (hf : NamesFresh h) {n : Text} {s : FeedSession} (hs : s.handler = h)
    (hn : Nameable p s (.sax (.endElement n))) (hok : h.endElement p k n = .ok h') : NamesFresh h' := by
  have hset (tag : XmlTag) (text : Text) (it : RSSItem) :
      (p.setItem tag text it).slashed = it.slashed ∧ (p.setItem tag text it).fileName = it.fileName := by
    cases tag with
    | pubDate =>
      simp only [SaxPlatform.setItem, SaxPlatform.setDate]
      cases p.readFormat text <;> cases p.readFormat2 text <;> simp only <;> split_ifs <;> exact ⟨rfl, rfl⟩
    | _ => exact ⟨rfl, rfl⟩
  rw [Handler.endElement] at hok
  by_cases hitem : p.equalsIgnoreCase n tagItem = true
  · rw [if_pos hitem] at hok
    exact hf.endItem (hs ▸ hn hitem) hok
  rw [if_neg hitem] at hok
  cases htag : h.currentindex with
  | none =>
    simp only [htag, Except.ok.injEq] at hok
    exact hok ▸ hf
  | some tag =>
    cases htext : h.builder with
    | none => simp [htag, htext] at hok
    | some text =>
      simp only [htag, htext] at hok
      split_ifs at hok with hparse
      · cases hcur : h.currentitem with
        | none => simp [Handler.modify, hcur] at hok
        | some x =>
          obtain ⟨it, rfl⟩ := listed_eq_false (hf.parsing hparse) hcur
          simp only [Handler.modify, hcur, Except.ok.injEq] at hok
          subst hok
          refine hf.of_own rfl rfl ?_
          rw [(hset tag text it).1, (hset tag text it).2]
          exact hf.current it hcur
      · cases hok
        refine hf.of_same ?_ rfl rfl
        cases tag <;> rfl

theorem apply {s : FeedSession} (hf : NamesFresh s.handler) {e : FeedEvent} (he : Nameable p s e) :
    NamesFresh (s.apply p e).handler := by
  cases e with
  | opens kind => exact of_new hf.distinct
  | sax e =>
    rw [FeedSession.apply]
    split_ifs
    · exact hf
    cases hok : s.handler.handle p s.kind e with
    | error x => exact hf
    | ok h' =>
      cases e with
      | startElement n url => exact hf.startElement rfl he hok
      | characters ch =>
        cases hok
        rw [Handler.characters]
        split_ifs
        · exact hf.of_same rfl rfl rfl
        · exact hf
      | endElement n => exact hf.endElement rfl he hok

end NamesFresh

/-- **Episodes have files of their own** in every run in which each enclosure finds the candidates in order. -/
theorem distinct_file_names (p : SaxPlatform) {s : FeedSession}
    (hs : ((feedSession p).restrict (Nameable p)).Reachable s) : DistinctNames s.handler.currentfeed.items := by
  refine (Machine.Reachable.invariant (P := fun s => NamesFresh s.handler) ?_ ?_ hs).distinct
  · rintro s ⟨-, hnew, hitems⟩
    rw [hnew]
    refine .of_new ?_
    rw [hitems]
    exact List.Pairwise.nil
  · intro s e hf he
    exact hf.apply he.2

/-- A document with items of these URLs. -/
def episodes (kind : HandlerKind) (us : List Text) : List FeedEvent :=
  .opens kind :: ((itemsOf us).flatMap RssNode.events).map FeedEvent.sax

/-- The URL `http://h/n/a`. -/
def episodeUrl (n : UInt16) (a : UInt16) : Text := httpScheme ++ [104, 47, n, 47, a]

theorem feedSession_init (p : SaxPlatform) : (feedSession p).init { handler := Handler.new {} } := ⟨rfl, rfl, rfl⟩

theorem distinct_file_names_two : ∃ s, ((feedSession plainPlatform).restrict (Nameable plainPlatform)).Reachable s ∧
    s.handler.currentfeed.items.length = 2 ∧ DistinctNames s.handler.currentfeed.items := by
  have hadm : ((feedSession plainPlatform).restrict (Nameable plainPlatform)).Admits { handler := Handler.new {} }
      (episodes .parser [episodeUrl 49 97, episodeUrl 50 97]) := by
    have hitem (s : FeedSession) : Nameable plainPlatform s (.sax (.startElement tagItem none)) :=
      fun h => absurd h (by decide)
    have hend (s : FeedSession) : Nameable plainPlatform s (.sax (.endElement tagEnclosure)) :=
      fun h => absurd h (by decide)
    refine ⟨⟨fun _ => rfl, trivial⟩, ⟨trivial, hitem _⟩, ⟨trivial, fun _ => ⟨rfl, ?_⟩⟩, ⟨trivial, hend _⟩,
      ⟨trivial, fun _ => by decide +kernel⟩, ⟨trivial, hitem _⟩, ⟨trivial, fun _ => ⟨by decide +kernel, ?_⟩⟩,
      ⟨trivial, hend _⟩, ⟨trivial, fun _ => by decide +kernel⟩, trivial⟩
    · rintro u ⟨⟩ -
      exact ⟨_, rfl, (pickName_fresh_iff _ _).mp (by decide +kernel)⟩
    · rintro u ⟨⟩ -
      exact ⟨_, rfl, (pickName_fresh_iff _ _).mp (by decide +kernel)⟩
  have hinit : ((feedSession plainPlatform).restrict (Nameable plainPlatform)).init { handler := Handler.new {} } :=
    feedSession_init plainPlatform
  have hreach := Machine.Reachable.run (.init hinit) hadm
  exact ⟨_, hreach, by decide +kernel, distinct_file_names plainPlatform hreach⟩

/-- Three episodes named `a`, of which two documents are refreshes: the second and the third get the same name. -/
theorem refresh_repeats_name : ∃ s, (feedSession plainPlatform).Reachable s ∧
    ¬DistinctNames s.handler.currentfeed.items := by
  have hadm : (feedSession plainPlatform).Admits { handler := Handler.new {} }
      (episodes .parser [episodeUrl 49 97] ++ episodes .refresh [episodeUrl 50 97] ++
        episodes .refresh [episodeUrl 51 97]) := by
    simp [episodes, itemsOf, RssNode.events, Machine.Admits, feedSession]
  exact ⟨_, Machine.Reachable.run (.init (feedSession_init plainPlatform)) hadm, by decide +kernel⟩

end Cedos.ReadyCast
