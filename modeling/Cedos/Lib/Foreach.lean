import Cedos.Lib.TailQueue

/-!
# Loops over a tail queue that take items out

`TAILQ_FOREACH` reads the `next` field of an item after its body has been executed on it. A body that takes its own
item out of the queue clears this field, and the loop ends there; one that notes the item, and leaves it to the next
round or to the end of the loop to take it out, does not disturb the loop. `Fate` says which of the two the body
does.

## Main definitions

* `ItemQueue`, `Visit` — a queue of items with their contents, and the body of a loop over it.
* `ItemQueue.foreach` — the loop, with the items it has come to.
* `Visit.reached`, `ItemQueue.foreach_spec` — how far it comes, and what it leaves.
* `ItemQueue.Independent`, `ItemQueue.Local.independent_iff` — each item fares as it would in a queue of its own.
-/

namespace Cedos

universe u v

/-- A queue of items, and what the items hold. -/
structure ItemQueue (α : Type u) (σ : Type v) where
  links : TailQueues α Unit
  item : α → σ

/-- What becomes of an item when the loop is at it. -/
inductive Fate
  | stays
  /-- it is taken out, and closed, in the next round or after the loop -/
  | later
  /-- it is taken out at once -/
  | atOnce
  deriving DecidableEq, Repr

/-- The body of a loop, and the closing of an item that is taken out later. -/
structure Visit (α : Type u) (σ : Type v) where
  body : α → σ → σ × Fate
  close : σ → σ

variable {α : Type u} {σ : Type v}

namespace Visit

/-- What the loop makes of an item. -/
def alone (V : Visit α σ) (a : α) (i : σ) : σ :=
  if (V.body a i).2 = .later then V.close (V.body a i).1 else (V.body a i).1

/-- The items up to the first that is taken out at once. -/
def reached (V : Visit α σ) (item : α → σ) : List α → List α
  | [] => []
  | a :: as => a :: if (V.body a (item a)).2 = .atOnce then [] else V.reached item as

def staying (V : Visit α σ) (item : α → σ) (as : List α) : List α :=
  as.filter fun a => decide ((V.body a (item a)).2 = .stays)

theorem reached_congr {V : Visit α σ} {item item' : α → σ} {as : List α} (h : ∀ a ∈ as, item' a = item a) :
    V.reached item' as = V.reached item as := by
  induction as with
  | nil => rfl
  | cons a as ih =>
    simp only [reached, h a List.mem_cons_self]
    rw [ih fun x hx => h x (List.mem_cons_of_mem a hx)]

theorem staying_congr {V : Visit α σ} {item item' : α → σ} {as : List α} (h : ∀ a ∈ as, item' a = item a) :
    V.staying item' as = V.staying item as := by
  refine List.filter_congr fun a ha => ?_
  rw [h a ha]

theorem mem_of_mem_reached {V : Visit α σ} {item : α → σ} {as : List α} {x : α}
    (hx : x ∈ V.reached item as) : x ∈ as := by
  induction as with
  | nil => exact hx
  | cons a as ih =>
    simp only [reached] at hx
    split_ifs at hx
    · simp_all
    · cases List.mem_cons.mp hx with
      | inl heq => exact heq ▸ List.mem_cons_self
      | inr hmem => exact List.mem_cons_of_mem a (ih hmem)

/-- The loop comes to all items unless one before the last is taken out at once. -/
theorem reached_eq_self_iff (V : Visit α σ) (item : α → σ) (as : List α) :
    V.reached item as = as ↔ ∀ a ∈ as.dropLast, (V.body a (item a)).2 ≠ .atOnce := by
  induction as with
  | nil => simp [reached]
  | cons a as ih =>
    simp only [reached, List.cons.injEq, true_and]
    cases as with
    | nil => simp [reached]
    | cons a' as =>
      rw [List.dropLast_cons_cons, List.forall_mem_cons, ← ih]
      by_cases ha : (V.body a (item a)).2 = .atOnce
      · simp [ha]
      · simp [ha]

end Visit

namespace ItemQueue
variable [DecidableEq α]

/-- Replace what an item holds. -/
def set (s : ItemQueue α σ) (a : α) (i : σ) : ItemQueue α σ := { s with item := Function.update s.item a i }

/-- `TAILQ_REMOVE`. -/
def unlink (s : ItemQueue α σ) (a : α) : ItemQueue α σ := { s with links := s.links.remove () a }

/-- Take out and close the item that has been noted. -/
def settle (V : Visit α σ) (s : ItemQueue α σ) : Option α → ItemQueue α σ
  | none => s
  | some a => (s.unlink a).set a (V.close (s.item a))

/-- The rounds of the loop from an item on, with the item noted so far: the queue, the item noted last, and the
items the loop has come to. -/
def loop (V : Visit α σ) : ℕ → ItemQueue α σ → Option α → Option α → ItemQueue α σ × Option α × List α
  | _, s, none, noted => (s, noted, [])
  | 0, s, some _, noted => (s, noted, [])
  | rounds + 1, s, some a, noted =>
    let s := s.settle V noted
    let r := V.body a (s.item a)
    let s := s.set a r.1
    let s := if r.2 = .atOnce then s.unlink a else s
    let rest := loop V rounds s (s.links.next a) (if r.2 = .later then some a else none)
    (rest.1, rest.2.1, a :: rest.2.2)

/-- The loop, and what is left to do after it. -/
def foreach (V : Visit α σ) (rounds : ℕ) (s : ItemQueue α σ) : ItemQueue α σ × List α :=
  let r := s.loop V rounds (s.links.first ()) none
  (r.1.settle V r.2.1, r.2.2)

/-! ## One list -/

/-- The links of a queue are those of a list. -/
def Lists (s : ItemQueue α σ) (as : List α) : Prop := s.links.Holds fun _ => as

variable {s : ItemQueue α σ} {V : Visit α σ} {a : α} {as : List α}

theorem Lists.unlink {l₁ l₂ : List α} (h : s.Lists (l₁ ++ a :: l₂)) : (s.unlink a).Lists (l₁ ++ l₂) := by
  have hnd := h.nodup ()
  have hnot : a ∉ l₁ := by
    rw [List.nodup_append] at hnd
    exact fun hmem => hnd.2.2 a hmem a List.mem_cons_self rfl
  have herase : (l₁ ++ a :: l₂).erase a = l₁ ++ l₂ := by
    rw [List.erase_append_right _ hnot, List.erase_cons_head]
  have hremoved := TailQueues.Holds.remove (b := ()) h (by simp : a ∈ l₁ ++ a :: l₂)
  have hone : Function.update (fun _ : Unit => l₁ ++ a :: l₂) () ((l₁ ++ a :: l₂).erase a) = fun _ => l₁ ++ l₂ := by
    ext u
    simp [herase]
  rwa [hone] at hremoved

omit [DecidableEq α] in
theorem Lists.next {l₁ l₂ : List α} (h : s.Lists (l₁ ++ a :: l₂)) : s.links.next a = l₂.head? :=
  (h.chain ()).links.2

/-- An item that has been taken out is followed by nothing. -/
theorem next_unlink (s : ItemQueue α σ) (a : α) : (s.unlink a).links.next a = none := by
  simp [unlink, TailQueues.remove, TailQueues.clear]

/-- The noted item is gone, and closed. -/
theorem settle_spec {l₁ l₂ : List α} {noted : Option α} (h : s.Lists (l₁ ++ (noted.toList ++ l₂))) :
    (s.settle V noted).Lists (l₁ ++ l₂) ∧ (∀ x, noted = some x → (s.settle V noted).item x = V.close (s.item x)) ∧
      ∀ x, noted ≠ some x → (s.settle V noted).item x = s.item x := by
  cases noted with
  | none =>
    refine ⟨h, ?_, fun x _ => rfl⟩
    intro x hx
    cases hx
  | some b =>
    refine ⟨Lists.unlink h, ?_, ?_⟩
    · intro x hx
      cases hx
      simp [settle, ItemQueue.set]
    · intro x hx
      have hne : x ≠ b := fun heq => hx (by rw [heq])
      simp [settle, ItemQueue.set, unlink, hne]

/-! ## The loop -/

/-- What the rounds from `rest` on do, with `pending` noted before. -/
structure LoopSpec (V : Visit α σ) (s : ItemQueue α σ) (kept rest : List α) (pending : Option α)
    (r : ItemQueue α σ × Option α × List α) : Prop where
  visited : r.2.2 = V.reached s.item rest
  lists : (r.1.settle V r.2.1).Lists (kept ++ (V.staying s.item (V.reached s.item rest) ++
    rest.drop (V.reached s.item rest).length))
  reached : ∀ x ∈ V.reached s.item rest, (r.1.settle V r.2.1).item x = V.alone x (s.item x)
  noted : ∀ x, pending = some x → (r.1.settle V r.2.1).item x = V.close (s.item x)
  others : ∀ x, x ∉ V.reached s.item rest → pending ≠ some x → (r.1.settle V r.2.1).item x = s.item x

theorem LoopSpec.nil {rounds : ℕ} {kept : List α} {pending : Option α} (h : s.Lists (kept ++ (pending.toList ++ []))) :
    LoopSpec V s kept [] pending (s.loop V rounds none pending) := by
  have hloop : s.loop V rounds none pending = (s, pending, []) := by cases rounds <;> rfl
  obtain ⟨hl, hc, ho⟩ := settle_spec (V := V) h
  rw [hloop]
  refine ⟨rfl, hl, ?_, hc, fun x _ hx => ho x hx⟩
  intro x hx
  cases hx

/-- The first round, and the rounds `r` after it. -/
theorem LoopSpec.cons {kept rest : List α} {pending : Option α} {t : ItemQueue α σ} {kept' : List α}
    {pending' : Option α} {r : ItemQueue α σ × Option α × List α}
    (hstay : (V.body a (s.item a)).2 ≠ .atOnce)
    (hkept : kept' = kept ++ V.staying s.item [a])
    (hpending : pending' = if (V.body a (s.item a)).2 = .later then some a else none)
    (ha : a ∉ rest) (hp : pending ≠ some a) (hrest : ∀ x ∈ rest, pending ≠ some x)
    (hself : t.item a = (V.body a (s.item a)).1)
    (hclosed : ∀ x, pending = some x → t.item x = V.close (s.item x))
    (hsame : ∀ x, x ≠ a → pending ≠ some x → t.item x = s.item x)
    (h : LoopSpec V t kept' rest pending' r) :
    LoopSpec V s kept (a :: rest) pending (r.1, r.2.1, a :: r.2.2) := by
  have hsame' : ∀ x ∈ rest, t.item x = s.item x := by
    intro x hx
    exact hsame x (fun heq => ha (heq ▸ hx)) (hrest x hx)
  have hreached : V.reached t.item rest = V.reached s.item rest := Visit.reached_congr hsame'
  have hfirst : V.reached s.item (a :: rest) = a :: V.reached s.item rest := by
    rw [Visit.reached, if_neg hstay]
  have hstaying : V.staying t.item (V.reached s.item rest) = V.staying s.item (V.reached s.item rest) :=
    Visit.staying_congr fun x hx => hsame' x (Visit.mem_of_mem_reached hx)
  have hother : ∀ x, x ≠ a → pending' ≠ some x := by
    intro x hx
    rw [hpending]
    split_ifs
    · simpa using Ne.symm hx
    · simp
  have ha' : a ∉ V.reached s.item rest := fun hmem => ha (Visit.mem_of_mem_reached hmem)
  obtain ⟨hvisited, hlists, hmem, hnoted, hothers⟩ := h
  rw [hreached] at hvisited hlists hmem hothers
  constructor
  · rw [hfirst, hvisited]
  · rw [hfirst]
    rw [hstaying, hkept, List.append_assoc] at hlists
    have hcons : V.staying s.item (a :: V.reached s.item rest) =
        V.staying s.item [a] ++ V.staying s.item (V.reached s.item rest) :=
      List.filter_append [a] (V.reached s.item rest)
    rw [hcons, List.append_assoc]
    exact hlists
  · intro x hx
    rw [hfirst] at hx
    cases List.mem_cons.mp hx with
    | inl heq =>
      subst heq
      by_cases hlater : (V.body x (s.item x)).2 = .later
      · rw [hnoted x (by rw [hpending, if_pos hlater]), hself, Visit.alone, if_pos hlater]
      · rw [hothers x ha' (by rw [hpending, if_neg hlater]; simp), hself, Visit.alone, if_neg hlater]
    | inr hx =>
      rw [hmem x hx, hsame' x (Visit.mem_of_mem_reached hx)]
  · intro x hx
    have hxa : x ≠ a := fun heq => hp (heq ▸ hx)
    have hxr : x ∉ V.reached s.item rest := fun hm => hrest x (Visit.mem_of_mem_reached hm) hx
    rw [hothers x hxr (hother x hxa), hclosed x hx]
  · intro x hx hpx
    rw [hfirst, List.mem_cons, not_or] at hx
    rw [hothers x hx.2 (hother x hx.1), hsame x hx.1 hpx]

/-- A round that takes its item out at once is the last. -/
theorem LoopSpec.atOnce {rounds : ℕ} {kept rest : List α} {pending : Option α} {t : ItemQueue α σ}
    (hat : (V.body a (s.item a)).2 = .atOnce) (hl : t.Lists (kept ++ a :: rest))
    (hself : t.item a = (V.body a (s.item a)).1)
    (hclosed : ∀ x, pending = some x → t.item x = V.close (s.item x))
    (hsame : ∀ x, x ≠ a → pending ≠ some x → t.item x = s.item x) :
    LoopSpec V s kept (a :: rest) pending
      (((t.unlink a).loop V rounds none (if (V.body a (s.item a)).2 = .later then some a else none)).1,
        ((t.unlink a).loop V rounds none (if (V.body a (s.item a)).2 = .later then some a else none)).2.1,
        a :: ((t.unlink a).loop V rounds none
          (if (V.body a (s.item a)).2 = .later then some a else none)).2.2) := by
  have hlater : ¬(V.body a (s.item a)).2 = .later := by simp [hat]
  have hloop : (t.unlink a).loop V rounds none none = (t.unlink a, none, []) := by cases rounds <;> rfl
  have hreached : V.reached s.item (a :: rest) = [a] := by rw [Visit.reached, if_pos hat]
  rw [if_neg hlater, hloop]
  constructor
  · rw [hreached]
  · change (t.unlink a).Lists _
    rw [hreached]
    simpa [Visit.staying, hat] using hl.unlink
  · intro x hx
    rw [hreached, List.mem_singleton] at hx
    subst hx
    rw [Visit.alone, if_neg hlater]
    exact hself
  · exact hclosed
  · intro x hx hpx
    rw [hreached, List.mem_singleton] at hx
    exact hsame x hx hpx

theorem loop_spec (V : Visit α σ) {rounds : ℕ} {s : ItemQueue α σ} {kept rest : List α} {pending : Option α}
    (h : s.Lists (kept ++ (pending.toList ++ rest))) (hr : rest.length ≤ rounds) :
    LoopSpec V s kept rest pending (s.loop V rounds rest.head? pending) := by
  induction rest generalizing rounds s kept pending with
  | nil => exact .nil h
  | cons a rest ih =>
    obtain ⟨rounds, rfl⟩ : ∃ n, rounds = n + 1 := ⟨rounds - 1, by simp at hr; omega⟩
    obtain ⟨hl, hc, ho⟩ := settle_spec (V := V) h
    have hnd := h.nodup ()
    rw [List.nodup_append, List.nodup_append] at hnd
    have ha : a ∉ rest := (List.nodup_cons.mp hnd.2.1.2.1).1
    have hpending : ∀ x ∈ a :: rest, pending ≠ some x := by
      intro x hx heq
      exact hnd.2.1.2.2 x (by simp [heq]) x hx rfl
    have hitem : (s.settle V pending).item a = s.item a := ho a (hpending a List.mem_cons_self)
    have hround : s.loop V (rounds + 1) (some a) pending = let t := (s.settle V pending).set a (V.body a (s.item a)).1
        let t := if (V.body a (s.item a)).2 = .atOnce then t.unlink a else t
        let r := t.loop V rounds (t.links.next a)
          (if (V.body a (s.item a)).2 = .later then some a else none)
        (r.1, r.2.1, a :: r.2.2) := by
      rw [← hitem]
      rfl
    have hset : ((s.settle V pending).set a (V.body a (s.item a)).1).Lists (kept ++ a :: rest) := hl
    rw [List.head?_cons, hround]
    have hself : ((s.settle V pending).set a (V.body a (s.item a)).1).item a = (V.body a (s.item a)).1 := by
      simp [ItemQueue.set]
    have hclosed : ∀ x, pending = some x →
        ((s.settle V pending).set a (V.body a (s.item a)).1).item x = V.close (s.item x) := by
      intro x hx
      have hne : x ≠ a := fun heq => hpending a List.mem_cons_self (heq ▸ hx)
      simp [ItemQueue.set, hne, hc x hx]
    have hsame : ∀ x, x ≠ a → pending ≠ some x →
        ((s.settle V pending).set a (V.body a (s.item a)).1).item x = s.item x := by
      intro x hne hx
      simp [ItemQueue.set, hne, ho x hx]
    by_cases hat : (V.body a (s.item a)).2 = .atOnce
    · -- the loop reads the field that has just been cleared
      simp only [if_pos hat]
      rw [next_unlink]
      exact .atOnce hat hset hself hclosed hsame
    · have hlists : kept ++ V.staying s.item [a] ++
          ((if (V.body a (s.item a)).2 = .later then some a else none).toList ++ rest) = kept ++ a :: rest := by
        cases hf : (V.body a (s.item a)).2 with
        | stays => simp [Visit.staying, hf]
        | later => simp [Visit.staying, hf]
        | atOnce => exact absurd hf hat
      simp only [if_neg hat]
      rw [hset.next]
      refine .cons hat rfl rfl ha (hpending a List.mem_cons_self)
        (fun x hx => hpending x (List.mem_cons_of_mem a hx)) hself hclosed hsame (ih ?_ ?_)
      · rw [hlists]
        exact hset
      · simpa using hr

/-- The loop over a whole queue. -/
theorem foreach_spec (V : Visit α σ) {rounds : ℕ} (h : s.Lists as) (hr : as.length ≤ rounds) :
    (s.foreach V rounds).2 = V.reached s.item as ∧
      (s.foreach V rounds).1.Lists (V.staying s.item (V.reached s.item as) ++ as.drop (V.reached s.item as).length) ∧
      (∀ x ∈ V.reached s.item as, (s.foreach V rounds).1.item x = V.alone x (s.item x)) ∧
      ∀ x, x ∉ V.reached s.item as → (s.foreach V rounds).1.item x = s.item x := by
  have hfirst : s.links.first () = as.head? := (h.chain ()).read_eq
  have hspec : LoopSpec V s [] as none (s.loop V rounds (s.links.first ()) none) := by
    rw [hfirst]
    exact loop_spec V h hr
  exact ⟨hspec.visited, hspec.lists, hspec.reached, fun x hx => hspec.others x hx (by simp)⟩

/-- A loop whose body leaves the queue alone. -/
theorem foreach_of_stays {rounds : ℕ} (h : s.Lists as) (hr : as.length ≤ rounds)
    (hV : ∀ a i, (V.body a i).2 = .stays) :
    (s.foreach V rounds).1.Lists as ∧ (∀ x ∈ as, (s.foreach V rounds).1.item x = (V.body x (s.item x)).1) ∧
      ∀ x, x ∉ as → (s.foreach V rounds).1.item x = s.item x := by
  have hreached : V.reached s.item as = as := by
    rw [Visit.reached_eq_self_iff]
    intro a _
    simp [hV]
  have hstaying : V.staying s.item as = as := by
    refine List.filter_eq_self.mpr fun a _ => ?_
    simp [hV]
  obtain ⟨-, hlists, hitem, hothers⟩ := foreach_spec V h hr
  rw [hreached] at hlists hitem hothers
  rw [hstaying, List.drop_length, List.append_nil] at hlists
  refine ⟨hlists, fun x hx => ?_, hothers⟩
  rw [hitem x hx, Visit.alone, if_neg (by simp [hV])]

/-! ## Independence -/

/-- The items `TAILQ_FOREACH` comes to when its body leaves the queue alone. -/
def queue (s : ItemQueue α σ) (rounds : ℕ) : List α := s.links.visits rounds (s.links.first ())

/-- The same items, with one of them alone in the queue. -/
def solo (s : ItemQueue α σ) (a : α) : ItemQueue α σ := { s with links := TailQueues.init.insertHead () a }

omit [DecidableEq α] in
theorem Lists.queue_eq {rounds : ℕ} (h : s.Lists as) (hr : as.length ≤ rounds) : s.queue rounds = as :=
  (h.chain ()).visits_eq hr

theorem lists_solo (s : ItemQueue α σ) (a : α) : (s.solo a).Lists [a] := by
  have hinsert := TailQueues.Holds.insertHead (b := ()) (a := a) TailQueues.holds_init (by simp)
  have hone : Function.update (fun _ : Unit => ([] : List α)) () [a] = fun _ => [a] := by
    ext u
    simp
  rwa [hone] at hinsert

/-- A pass comes to each item once, and leaves it as it would leave it alone: with the same content, and in the
queue or not. -/
structure Independent (pass : ItemQueue α σ → ItemQueue α σ × List α) (rounds : ℕ) (s : ItemQueue α σ)
    (as : List α) : Prop where
  visited : (pass s).2 = as
  item : ∀ a ∈ as, (pass s).1.item a = (pass (s.solo a)).1.item a
  queue : ∀ a ∈ as, a ∈ (pass s).1.queue rounds ↔ a ∈ (pass (s.solo a)).1.queue rounds

theorem Independent.congr {pass pass' : ItemQueue α σ → ItemQueue α σ × List α} {rounds : ℕ}
    (h : pass s = pass' s) (hsolo : ∀ a, pass (s.solo a) = pass' (s.solo a)) :
    Independent pass rounds s as ↔ Independent pass' rounds s as := by
  constructor
  · rintro ⟨hvisited, hitem, hqueue⟩
    simp only [h, hsolo] at hvisited hitem hqueue
    exact ⟨hvisited, hitem, hqueue⟩
  · rintro ⟨hvisited, hitem, hqueue⟩
    simp only [← h, ← hsolo] at hvisited hitem hqueue
    exact ⟨hvisited, hitem, hqueue⟩

/-- A pass that comes to the items `V` comes to, and when these are all makes of each what its content says. -/
structure Local (V : Visit α σ) (rounds : ℕ) (out : α → σ → σ)
    (pass : ItemQueue α σ → ItemQueue α σ × List α) : Prop where
  visited : ∀ {s as}, s.Lists as → as.length ≤ rounds → (pass s).2 = V.reached s.item as
  lists : ∀ {s as}, s.Lists as → as.length ≤ rounds → V.reached s.item as = as → (pass s).1.Lists (V.staying s.item as)
  item : ∀ {s as}, s.Lists as → as.length ≤ rounds → V.reached s.item as = as →
    ∀ a ∈ as, (pass s).1.item a = out a (s.item a)

theorem local_foreach (V : Visit α σ) (rounds : ℕ) : Local V rounds V.alone (foreach V rounds) := by
  constructor
  · intro s as h hr
    exact (foreach_spec V h hr).1
  · intro s as h hr hall
    obtain ⟨-, hlists, -, -⟩ := foreach_spec V h hr
    rw [hall, List.drop_length, List.append_nil] at hlists
    exact hlists
  · intro s as h hr hall
    obtain ⟨-, -, hitem, -⟩ := foreach_spec V h hr
    rw [hall] at hitem
    exact hitem

/-- A pass and a loop after it that leaves the queue alone. -/
def followed (W : Visit α σ) (rounds : ℕ) (pass : ItemQueue α σ → ItemQueue α σ × List α) (s : ItemQueue α σ) :
    ItemQueue α σ × List α :=
  (((pass s).1.foreach W rounds).1, (pass s).2)

omit [DecidableEq α] in
theorem length_staying_le (V : Visit α σ) (item : α → σ) (as : List α) : (V.staying item as).length ≤ as.length :=
  List.length_filter_le _ _

omit [DecidableEq α] in
theorem mem_staying {V : Visit α σ} {item : α → σ} (ha : a ∈ as) :
    a ∈ V.staying item as ↔ (V.body a (item a)).2 = .stays := by
  simp only [Visit.staying, List.mem_filter, ha, true_and]
  exact decide_eq_true_iff

theorem Local.followed {W : Visit α σ} {rounds : ℕ} {out : α → σ → σ}
    {pass : ItemQueue α σ → ItemQueue α σ × List α} (h : Local V rounds out pass)
    (hW : ∀ a i, (W.body a i).2 = .stays) :
    Local V rounds (fun a i => if (V.body a i).2 = .stays then (W.body a (out a i)).1 else out a i)
      (followed W rounds pass) := by
  constructor
  · intro s as hs hr
    exact h.visited hs hr
  · intro s as hs hr hall
    have hlen := Nat.le_trans (length_staying_le V s.item as) hr
    exact (foreach_of_stays (h.lists hs hr hall) hlen hW).1
  · intro s as hs hr hall a ha
    have hlen := Nat.le_trans (length_staying_le V s.item as) hr
    obtain ⟨-, hin, hout⟩ := foreach_of_stays (h.lists hs hr hall) hlen hW
    by_cases hstays : (V.body a (s.item a)).2 = .stays
    · simp only [if_pos hstays]
      rw [← h.item hs hr hall a ha]
      exact hin a ((mem_staying ha).mpr hstays)
    · simp only [if_neg hstays]
      rw [← h.item hs hr hall a ha]
      exact hout a fun hmem => hstays ((mem_staying ha).mp hmem)

/-- Each item fares as it would alone unless one before the last is taken out at once. -/
theorem Local.independent_iff {rounds : ℕ} {out : α → σ → σ} {pass : ItemQueue α σ → ItemQueue α σ × List α}
    (hpass : Local V rounds out pass) (h : s.Lists as) (hr : as.length ≤ rounds) :
    Independent pass rounds s as ↔ ∀ a ∈ as.dropLast, (V.body a (s.item a)).2 ≠ .atOnce := by
  rw [← Visit.reached_eq_self_iff]
  constructor
  · intro hind
    rw [← hpass.visited h hr]
    exact hind.visited
  · intro hall
    have hself : ∀ a, V.reached (s.solo a).item [a] = [a] := by
      intro a
      simp [Visit.reached]
    have hpos : ∀ a ∈ as, [a].length ≤ rounds :=
      fun a ha => Nat.le_trans (List.length_pos_of_mem ha) hr
    refine ⟨(hpass.visited h hr).trans hall, fun a ha => ?_, fun a ha => ?_⟩
    · rw [hpass.item h hr hall a ha, hpass.item (lists_solo s a) (hpos a ha) (hself a) a List.mem_cons_self]
      rfl
    · have hqueue := (hpass.lists h hr hall).queue_eq (Nat.le_trans (length_staying_le V s.item as) hr)
      have hqueue' := (hpass.lists (lists_solo s a) (hpos a ha) (hself a)).queue_eq
        (Nat.le_trans (length_staying_le V (s.solo a).item [a]) (hpos a ha))
      rw [hqueue, hqueue', mem_staying ha, mem_staying List.mem_cons_self]
      rfl

end ItemQueue
end Cedos
