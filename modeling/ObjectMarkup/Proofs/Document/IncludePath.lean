import Mathlib.Data.List.Chain
import Mathlib.Data.List.Nodup
import ObjectMarkup.Proofs.Document.Visit

namespace ObjectMarkup

open Markup

def Leads (text : Option String → Option (List Char)) (p q : Option String) : Prop :=
  ∃ source e i, text p = some source ∧ e ∈ documentEvents (Text.dropMark source) ∧
    e.inclusion? = some i ∧ q = some (i.path p)

/-- Documents from the one at `top` on, each of which has an inclusion of the next. -/
def Reader.IncludePath (r : Reader) (top : Option String) (source : Except ReadError (List Char))
    (path : List (Option String)) : Prop :=
  path.head? = some top ∧ path.IsChain (Leads (r.textOf top source))

variable {r : Reader} {location : Option String} {source : Except ReadError (List Char)}
  {x : Reading Document} {s t : Session} {n : NestingError} {d : Document} {text : List Char}

namespace Visit

variable {v w : Visit} {outers : List Visit} {q : String}

theorem Asks.leads {i : Inclusion} {reader : Reader} (h : v.Asks t i reader)
    {text : Option String → Option (List Char)} (htext : text v.location = some v.text) :
    Leads text v.location (some (i.path v.location)) := by
  obtain ⟨taken, b, e, ahead, hi, hreached⟩ := h.moment
  exact ⟨v.text, e, i, htext, hreached.mem_documentEvents, hi, rfl⟩

theorem Refuses.leads (h : v.Refuses q n) {text : Option String → Option (List Char)}
    (htext : text v.location = some v.text) : Leads text v.location (some q) := by
  cases h with
  | intro asks refused => exact asks.leads htext

theorem Refuses.enter_eq (h : v.Refuses q n) : v.session.guard.enter (some q) = .error n := by
  cases h with
  | intro asks refused => exact asks.guard_eq ▸ refused

namespace Trail

theorem includePath (h : Trail (.first r location text s) outers v) :
    r.IncludePath location (.ok text) ((outers ++ [v]).map Visit.location) := by
  induction h with
  | first => exact ⟨rfl, .singleton _⟩
  | @enters outers v w around enters ih =>
    have hleads : Leads (r.textOf location (.ok text)) v.location w.location := by
      cases enters with
      | intro asks entered found => exact asks.leads around.text_eq
    constructor
    · rw [List.map_append, List.head?_append_of_ne_nil _ (by simp)]
      exact ih.1
    · have hchain := List.isChain_append_cons_cons.mpr
        ⟨by simpa using ih.2, hleads, List.IsChain.singleton w.location⟩
      simpa using hchain

theorem includePath_of_refuses (h : Trail (.first r location text s) outers v)
    (hq : v.Refuses q n) :
    r.IncludePath location (.ok text) ((outers ++ [v]).map Visit.location ++ [some q]) := by
  obtain ⟨hhead, hchain⟩ := h.includePath
  constructor
  · rw [List.head?_append_of_ne_nil _ (by simp)]
    exact hhead
  · have hchain := List.isChain_append_cons_cons.mpr
      ⟨by simpa using hchain, hq.leads h.text_eq, List.IsChain.singleton (some q)⟩
    simpa using hchain

/-- Only the first document may be without a location. -/
theorem locations_eq {first : Visit} (h : Trail first outers v) :
    (outers ++ [v]).map Visit.location =
      (if first.location.isSome then [] else [none]) ++
        ((outers ++ [v]).filterMap Visit.location).map some := by
  induction h with
  | first =>
    rw [locations_concat]
    cases hl : first.location <;> simp [hl]
  | @enters outers v w around enters ih =>
    rw [List.map_append, ih, locations_concat (outers ++ [v])]
    cases enters with
    | intro asks entered found => simp

/-- When a document has been read, so has each along a path that leads on from it. -/
theorem of_path (h : Trail (.first r location text s) outers v) (hrun : v.run = (.ok d, t))
    {path : List (Option String)}
    (hpath : (v.location :: path).IsChain (Leads (r.textOf location (.ok text)))) :
    ∃ outers' w, Trail (.first r location text s) outers' w ∧
      (outers' ++ [w]).map Visit.location = outers.map Visit.location ++ v.location :: path := by
  -- A document that has been read has entered all that it includes, so the next one on the path
  -- has been read as well.
  induction path generalizing outers v d t with
  | nil => exact ⟨outers, v, h, by simp⟩
  | cons q rest ih =>
    obtain ⟨⟨source, e, i, hsource, he, hi, hq⟩, hrest⟩ := List.isChain_cons_cons.mp hpath
    have hsame : source = v.text := Option.some.inj (hsource.symm.trans h.text_eq)
    obtain ⟨w, d', u, henters, hlocation, -, hrun⟩ := enters_of_ok hrun (hsame ▸ he) hi
    rw [hq, ← hlocation] at hrest
    obtain ⟨outers', w', htrail, hmap⟩ := ih (h.enters henters) hrun hrest
    exact ⟨outers', w', htrail, by simp [hmap, hq, hlocation]⟩

end Trail

end Visit

namespace Reader.Entry

/-- A document that is refused for a cycle is open along the path that leads back to it. -/
theorem cyclic (h : r.Entry location source x) (hs : s.guard = .idle) {chain : List String}
    (hx : x.perform s = (.error (.nesting (.cyclic chain)), t)) :
    ∃ front last, chain = front ++ [last] ∧ front.Nodup ∧ last ∈ front ∧
      r.IncludePath location source
        ((if location.isSome then [] else [none]) ++ chain.map some) := by
  obtain ⟨text, u, rfl, hrun⟩ := h.run_nesting hs hx
  obtain ⟨outers, v, q, htrail, hrefuses⟩ := Visit.Trail.first.refused hrun
  have hpath := htrail.includePath_of_refuses hrefuses
  have hbounded := (htrail.bounded rfl).1
  rw [htrail.locations_eq] at hpath hbounded
  have hrefused := hrefuses.enter_eq
  rw [htrail.guard_eq rfl] at hrefused
  rcases Guard.enter_error hrefused with ⟨-, hn⟩ | ⟨l, hl, hmem, hn⟩
  · cases hn
  · cases hl
    cases hn
    refine ⟨_, q, rfl, List.Nodup.of_map some (List.nodup_append.mp hbounded).2.1, hmem, ?_⟩
    rw [List.map_append, ← List.append_assoc]
    exact hpath

/-- A document that is refused for the depth comes on top of as many open ones as there may be. -/
theorem tooDeep (h : r.Entry location source x) (hs : s.guard = .idle) {limit : Nat}
    (hx : x.perform s = (.error (.nesting (.tooDeep limit)), t)) :
    limit = Guard.maxDepth ∧ ∃ text outers v q, source = .ok text ∧
      Visit.Trail (.first r location text s) outers v ∧
      (outers ++ [v]).length = Guard.maxDepth ∧ v.Refuses q (.tooDeep limit) ∧
      r.IncludePath location source ((outers ++ [v]).map Visit.location ++ [some q]) := by
  obtain ⟨text, u, rfl, hrun⟩ := h.run_nesting hs hx
  obtain ⟨outers, v, q, htrail, hrefuses⟩ := Visit.Trail.first.refused hrun
  have hrefused := hrefuses.enter_eq
  rw [htrail.guard_eq rfl] at hrefused
  rcases Guard.enter_error hrefused with ⟨hdepth, hn⟩ | ⟨l, hl, hmem, hn⟩
  · cases hn
    refine ⟨rfl, text, outers, v, q, rfl, htrail, ?_, hrefuses,
      htrail.includePath_of_refuses hrefuses⟩
    have hbounded := (htrail.bounded rfl).2
    simp only [List.length_append, List.length_singleton] at hbounded ⊢
    exact Nat.le_antisymm hbounded hdepth
  · cases hn

theorem paths_bounded (h : r.Entry location source x) (hs : s.guard = .idle)
    (hx : x.perform s = (.ok d, t)) {path : List (Option String)}
    (hpath : r.IncludePath location source path) :
    path.Nodup ∧ path.length ≤ Guard.maxDepth := by
  obtain ⟨text, u, rfl, hrun⟩ := h.run_ok hs hx
  obtain ⟨hhead, hchain⟩ := hpath
  obtain ⟨rest, rfl⟩ := List.head?_eq_some_iff.mp hhead
  obtain ⟨outers, v, htrail, hmap⟩ := Visit.Trail.first.of_path hrun hchain
  have hbounded := htrail.bounded rfl
  rw [hmap] at hbounded
  have hlength := congrArg List.length hmap
  simp only [List.length_map] at hlength
  exact ⟨hbounded.1, by simpa [hlength] using hbounded.2⟩

end Reader.Entry

/-- What the guard refuses and what it allows, for every way to start reading when no document is
open. Reads are the recursion without a bound: neither how much room there is for it nor what would
be done below that counts. A refusal for a cycle tells the path of inclusions that leads back into
itself, and one for the depth comes when as many documents are open as may be. No documents that are
ever open repeat a location or are too many; after a read that succeeds, the same holds of all the
paths of inclusions; and where it holds of them, no read is refused. -/
theorem inclusions_guarded (r : Reader) :
    (∀ l s, (∀ floor, (r.readAbove floor (Guard.maxDepth + 1) l).perform s = (r.read l).perform s) ∧
      (r.read l).perform s = (r.readSource (some l) (r.sourceAt l)).perform s) ∧
    ∀ location source x s, r.Entry location source x → s.guard = .idle →
      (∀ chain t, x.perform s = (.error (.nesting (.cyclic chain)), t) →
        ∃ front last, chain = front ++ [last] ∧ front.Nodup ∧ last ∈ front ∧
          r.IncludePath location source
            ((if location.isSome then [] else [none]) ++ chain.map some)) ∧
      (∀ limit t, x.perform s = (.error (.nesting (.tooDeep limit)), t) →
        limit = 64 ∧ ∃ text outers v q, source = .ok text ∧
          Visit.Trail (.first r location text s) outers v ∧ (outers ++ [v]).length = 64 ∧
          v.Refuses q (.tooDeep limit) ∧
          r.IncludePath location source ((outers ++ [v]).map Visit.location ++ [some q])) ∧
      (∀ text outers v, source = .ok text → Visit.Trail (.first r location text s) outers v →
        ((outers ++ [v]).map Visit.location).Nodup ∧ (outers ++ [v]).length ≤ 64) ∧
      (∀ d t, x.perform s = (.ok d, t) → ∀ path, r.IncludePath location source path →
        path.Nodup ∧ path.length ≤ 64) ∧
      ((∀ path, r.IncludePath location source path → path.Nodup ∧ path.length ≤ 64) →
        ∀ n t, x.perform s ≠ (.error (.nesting n), t)) := by
  constructor
  · intro l s
    refine ⟨fun floor => ?_, Reader.read_eq_readSource r l s⟩
    exact Reader.readAbove_eq r l s floor _ (Nat.lt_succ_of_le (Nat.sub_le ..))
  · intro location source x s hx hs
    refine ⟨fun _ _ h => hx.cyclic hs h, fun _ _ h => hx.tooDeep hs h, ?_,
      fun _ _ h _ => hx.paths_bounded hs h, ?_⟩
    · intro text outers v _ htrail
      exact htrail.bounded rfl
    · intro hall n t hfails
      cases n with
      | cyclic chain =>
        obtain ⟨front, last, rfl, -, hmem, hpath⟩ := hx.cyclic hs hfails
        have hnodup := (List.nodup_append.mp (hall _ hpath).1).2.1
        have hchain := List.nodup_append.mp (List.Nodup.of_map some hnodup)
        exact hchain.2.2 last hmem last (List.mem_singleton.mpr rfl) rfl
      | tooDeep limit =>
        obtain ⟨-, text, outers, v, q, -, -, hlength, -, hpath⟩ := hx.tooDeep hs hfails
        have hle := (hall _ hpath).2
        rw [List.length_append, List.length_map, hlength] at hle
        exact absurd hle (by simp [Guard.maxDepth])

/-- Two documents that include each other cannot be read. One that includes another twice can. -/
theorem inclusions_guarded_of_cycle :
    let library := ((Library.empty.addText "a" "<wtkx:include src='b'/>").addText "b"
      "<wtkx:include src='a'/>").addText "d" "<HashMap xmlns='wtkx.collections'/>"
    let list := "<ArrayList xmlns='wtkx.collections'><wtkx:include src='d'/>"
    let r := Reader.ofLibrary
      (library.addText "c" (list ++ "<wtkx:include src='d'/></ArrayList>"))
    ∃ t d u, (r.read "a").perform .initial = (.error (.nesting (.cyclic ["a", "b", "a"])), t) ∧
      r.IncludePath (some "a") (r.sourceAt "a") [some "a", some "b", some "a"] ∧
      (r.read "c").perform .initial = (.ok d, u) ∧
      (∀ path, r.IncludePath (some "c") (r.sourceAt "c") path →
        path.Nodup ∧ path.length ≤ 64) ∧
      ∀ n t, (r.read "c").perform .initial ≠ (.error (.nesting n), t) := by
  intro library list r
  have hcycle : ((r.read "a").perform .initial).1.toOption.isNone ∧
      (match ((r.read "a").perform .initial).1 with
        | .ok _ => false
        | .error e => e = .nesting (.cyclic ["a", "b", "a"])) = true := by
    decide +kernel
  have hread : ((r.read "c").perform .initial).1.toOption.isSome = true := by
    decide +kernel
  clear_value r
  obtain ⟨-, hguarded⟩ := inclusions_guarded r
  rcases ha : (r.read "a").perform .initial with ⟨e | d, t⟩
  · rw [ha] at hcycle
    obtain rfl : e = .nesting (.cyclic ["a", "b", "a"]) := of_decide_eq_true hcycle.2
    rcases hc : (r.read "c").perform .initial with ⟨e | d, u⟩
    · rw [hc] at hread
      cases hread
    · obtain ⟨front, last, -, -, -, hpath⟩ := (hguarded _ _ _ .initial (.located "a") rfl).1 _ t ha
      obtain ⟨-, -, -, hbounded, hcomplete⟩ := hguarded _ _ _ .initial (.located "c") rfl
      have hpaths := hbounded d u hc
      exact ⟨t, d, u, rfl, hpath, rfl, hpaths, hc ▸ hcomplete hpaths⟩
  · rw [ha] at hcycle
    cases hcycle.1

end ObjectMarkup
