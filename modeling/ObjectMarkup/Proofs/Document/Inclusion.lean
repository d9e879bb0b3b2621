import ObjectMarkup.Proofs.Document.Parts
import ObjectMarkup.Proofs.Renaming.Isomorphism

namespace ObjectMarkup

open Markup

/-- The registry under a name after elements have ended one after another. -/
theorem child?_foldl_bind (names : Registry) (elements : List Element) (id : String) :
    (elements.foldl Element.bind names).child? id =
      ((elements.filter fun e => e.id? = some id).filterMap Element.names?).getLast?.or
        (names.child? id) := by
  induction elements generalizing names with
  | nil => rfl
  | cons e rest ih =>
    rw [List.foldl_cons, ih]
    have hbind : (e.bind names).child? id =
        if e.id? = some id then e.names?.or (names.child? id) else names.child? id := by
      unfold Element.bind Registry.child?
      cases hid : e.id? with
      | none => simp
      | some own =>
        cases e.names? with
        | none => simp [Registry.put]
        | some inner =>
          simp [Registry.bindInclude, OrderedMap.get?_insert]
    rw [hbind]
    by_cases hid : e.id? = some id
    · cases hnames : e.names? with
      | none => simp [hid, hnames]
      | some inner =>
        cases hlast : ((rest.filter fun e => e.id? = some id).filterMap Element.names?).getLast? <;>
          simp [List.getLast?_cons, hid, hnames, hlast]
    · simp [hid]

/-- Where one event carries an id, one delivery does. -/
theorem Delivery.eq_of_once {taken : List Delivery} {id : String}
    (honce : (taken.map Delivery.event).countP (fun e => e.id? = some id) = 1) {d d' : Delivery}
    (hd : d ∈ taken) (hid : d.event.id? = some id) (hd' : d' ∈ taken)
    (hid' : d'.event.id? = some id) : d = d' := by
  have hlength : (taken.filter fun d => d.event.id? = some id).length = 1 := by
    rw [← List.countP_eq_length_filter]
    simpa [List.countP_map, Function.comp_def] using honce
  obtain ⟨only, honly⟩ := List.length_eq_one_iff.mp hlength
  have hall : ∀ d ∈ taken, d.event.id? = some id → d = only := by
    intro d hd hdid
    have hm : d ∈ taken.filter fun d => d.event.id? = some id :=
      List.mem_filter.mpr ⟨hd, by simp [hdid]⟩
    rw [honly] at hm
    exact List.mem_singleton.mp hm
  exact (hall d hd hid).trans (hall d' hd' hid').symm

namespace Builder

variable {nested : Reader → String → Reading Document} {r : Reader} {source : List Char}
  {location : Option String} {s t t' : Session} {taken : List Delivery} {b b' : Builder}
  {ahead : List Signal} {e : Event}

/-- Where an element with an id comes from: the event that put it on the stack. -/
def Origin (nested : Reader → String → Reading Document) (taken : List Delivery) (e : Element)
    (id : String) : Prop :=
  ∃ d ∈ taken, ∃ name attributes place own c t,
    d.event = .opened name attributes place ∧ takeId attributes = .ok (some id, own) ∧
      (d.builder.step nested d.event).perform d.session = (.ok c, t) ∧
      d.builder.Opens nested d.session t name ⟨some id, own⟩ e.content

theorem Reached.origin (h : Reached nested r source location s taken b t ahead) {id : String} :
    ∀ e : Element, e ∈ b.stack ∨ e ∈ endedElements taken → e.id? = some id →
      Origin nested taken e id := by
  intro e he hid
  have hclosing : e.closing?.isSome := by
    cases hc : e.closing? with
    | none => simp [Element.id?, hc] at hid
    | some closing => rfl
  obtain ⟨d, hd, attributes, c, u, hevent, hstep, hstack⟩ := h.pushed e he hclosing
  have hopened := hstep
  rw [hevent] at hopened
  obtain ⟨own, plain, content, names, htake, hopens, -, rfl⟩ := opened_ok hopened
  have he : (⟨e.name, e.location, content⟩ : Element) = e := (List.cons.inj hstack).1
  have hown : Element.id? ⟨e.name, e.location, content⟩ = own := hopens.id_eq
  rw [he, hid] at hown
  subst hown
  exact ⟨d, hd, e.name, attributes, e.location, plain, _, u, hevent, htake, hstep, he ▸ hopens⟩

/-- Where one event of a document that has ended carries an id, one element has ended with it, and
that event put it on the stack. -/
theorem Reached.origin_of_once (h : Reached nested r source location s taken b t ahead)
    (hstack : b.stack = []) {id : String} {e : Event} (he : e ∈ taken.map Delivery.event)
    (hid : e.id? = some id)
    (honce : (taken.map Delivery.event).countP (fun e => e.id? = some id) = 1) :
    ∃ element, (endedElements taken).filter (fun e => e.id? = some id) = [element] ∧
      ∃ d ∈ taken, d.event = e ∧ ∃ name attributes place own c t,
        e = .opened name attributes place ∧ takeId attributes = .ok (some id, own) ∧
        (d.builder.step nested e).perform d.session = (.ok c, t) ∧
        d.builder.Opens nested d.session t name ⟨some id, own⟩ element.content := by
  have hcount := h.countP_started id
  have hevents : (taken.countP fun d => d.event.id? = some id) = 1 := by
    simpa [List.countP_map, Function.comp_def] using honce
  rw [hstack, List.countP_nil, Nat.zero_add, hevents, List.countP_eq_length_filter] at hcount
  obtain ⟨element, helement⟩ := List.length_eq_one_iff.mp hcount.symm
  have hended : element ∈ (endedElements taken).filter fun e => e.id? = some id := by
    simp [helement]
  obtain ⟨hmem, hnamed⟩ := List.mem_filter.mp hended
  obtain ⟨d, hd, name, attributes, place, own, c, u, hevent, htake, hstep, hopens⟩ :=
    h.origin element (.inr hmem) (of_decide_eq_true hnamed)
  have hsame : d.event = e := by
    obtain ⟨d', hd', rfl⟩ := List.mem_map.mp he
    have hdid : d.event.id? = some id := by
      rw [hevent]
      simp only [Event.id?, htake]
    rw [Delivery.eq_of_once honce hd hdid hd' hid]
  exact ⟨element, helement, d, hd, hsame, name, attributes, place, own, c, u, hsame ▸ hevent, htake,
    hsame ▸ hstep, hopens⟩

/-- What a reader holds stays as it is while a document is read. -/
theorem Reached.shared_kept {room : Nat} {u : Session}
    (h : Reached (Reader.readNested room) r source location s taken b t ahead)
    (hshared : r.SharedIn s.heap u.heap) : r.SharedIn t.heap u.heap := by
  have hself : r.SharedIn s.heap s.heap := fun o ho => ⟨(hshared o ho).1, (hshared o ho).1, rfl⟩
  let c := Correspondence.ofShared r s s hself
  have hstep : c.Builders b b ∧ c.Sessions s.guard s.guard t t := by
    clear hshared
    induction h with
    | start => exact ⟨.start (fun o ho => Heap.Reaches.start ho) _, .start _⟩
    | @event taken b b' v v' e ahead before step ih =>
      have hfollows : Reading.Follows (c.Sessions s.guard s.guard) (fun _ => False) c.Builders
          (b.step (Reader.readNested room) e) (b.step (Reader.readNested room) e) :=
        Correspondence.follows_step
          (Correspondence.follows_readNested (fun _ _ h => h) (.inl ⟨rfl, rfl⟩))
          (fun _ _ h => h) ih.1 e
      obtain ⟨_, _, hstep, hb, hsessions⟩ := hfollows.ok_of_ok ih.2 step
      rw [step] at hstep
      cases hstep
      exact ⟨hb, hsessions⟩
    | checkpoint before unfinished ih => exact ih
  have hheaps := hstep.2.heaps
  intro o ho
  have hsame : s.heap.Reaches r.Holds o ∧ t.heap.object o = s.heap.object o := by
    have hkept : ∀ o, s.heap.Reaches r.Holds o → t.heap.object o = s.heap.object o :=
      fun o ho => hheaps.kept o (hshared o ho).1
    induction ho with
    | start ho => exact ⟨.start ho, hkept _ (.start ho)⟩
    | step ho hp ih =>
      rw [ih.2] at hp
      exact ⟨.step ih.1 hp, hkept _ (.step ih.1 hp)⟩
  obtain ⟨hleft, hright, hobject⟩ := hshared o hsame.1
  exact ⟨Nat.lt_of_lt_of_le hleft hheaps.grown, hright, hobject.trans hsame.2.symm⟩

end Builder

/-- The start of an element that includes the document `src` under the name `id`, with no bundle
for it. -/
inductive Markup.Event.Includes (id src : String) : Event → Prop
  | intro {name : QualifiedName} {attributes own : List Attribute} {place : Location}
      (control : name.isIn controlQualifier = true) (tag : name.localName = "include")
      (named : takeId attributes = .ok (some id, own))
      (found : plainValue? own "src" = some src)
      (plain : plainValue? own "resources" = none) :
      Includes id src (.opened name attributes place)

theorem Markup.Event.Includes.id_eq {e : Event} {id src : String} (h : e.Includes id src) :
    e.id? = some id := by
  cases h with
  | intro control tag named found plain => simp only [Event.id?, named]

/-- The objects are still there, of the types that they were of and with the parts that they had. -/
structure Heap.Retains (h h' : Heap) : Prop where
  keeps : h.Keeps h'
  types : ∀ o, o.index < h.size → h'.typeName o = h.typeName o

namespace Heap

instance : IsPreorder Heap Heap.Retains where
  refl _ := ⟨refl _, fun _ _ => rfl⟩
  trans _ _ _ h h' := ⟨IsTrans.trans _ _ _ h.keeps h'.keeps, fun o ho =>
    (h'.types o (Nat.lt_of_lt_of_le ho h.keeps.grown)).trans (h.types o ho)⟩

variable {h h' : Heap}

theorem Edit.retains (h₁ : h.Edit h') : h.Retains h' where
  keeps := h₁.keeps
  types := by
    intro p _
    obtain ⟨o, new, hnew, hname, rfl⟩ := h₁.eq_update
    rw [typeName, object_update]
    split
    · rename_i hop
      rw [hname, hop.1, typeName]
    · rfl

theorem retains_build (h : Heap) (blueprint : Blueprint) : h.Retains (h.build blueprint).2 where
  keeps := h.keeps_build blueprint
  types := by
    intro o ho
    rw [typeName, object_build, if_pos ho, typeName]

end Heap

/-- The document `inner` was read where the event `e` of a run includes it, and `after` is the session
of the run then. At the end of the run the document is found under the name `id`, and the objects
are still there. -/
structure Document.ReadAt (r : Reader) (room : Nat) (source : List Char) (location : Option String)
    (s : Session) (e : Event) (id src : String) (inner : Document) (after : Session) (d : Document)
    (t : Session) : Prop where
  moment : ∃ taken b before ahead c,
    Builder.Reached (Reader.readNested room) r source location s taken b before
      (.event e :: ahead) ∧
    (b.step (Reader.readNested room) e).perform before = (.ok c, after) ∧
    (r.readNested room (Path.resolve src location)).perform before = (.ok inner, after)
  root : d.names.get? id = some inner.root
  child : d.names.child? id = some inner.names
  retains : after.heap.Retains t.heap

/-- In a document without scripts, what is found under a name that is given once, to an inclusion, is
the document that was read there. -/
theorem Document.readAt_of_inclusion {room : Nat} {r : Reader} {source : List Char}
    {location : Option String} {s t : Session} {d : Document}
    (hread : (r.parse (Reader.readNested room) source location).perform s = (.ok d, t))
    (hno : ∀ e ∈ documentEvents (Text.dropMark source), e.startsScript = false)
    {e : Event} (he : e ∈ documentEvents (Text.dropMark source)) {id src : String}
    (hincludes : e.Includes id src) (hdot : '.' ∉ id.toList)
    (honce : (documentEvents (Text.dropMark source)).countP (fun e => e.id? = some id) = 1) :
    ∃ (inner : Document) (after : Session),
      inner.ReadAt r room source location s e id src after d t := by
  obtain ⟨taken, b, ahead, hreached, hstack, -, hnames, -, hevents⟩ := Builder.parse_ok hread
  rw [← hevents] at hno he honce
  obtain ⟨element, helement, opener, hopener, hsame, name, attributes, place, own, c, after, rfl,
    htake, hstep, hopens⟩ := hreached.origin_of_once hstack he hincludes.id_eq honce
  obtain ⟨front, back, hsplit⟩ := List.append_of_mem hopener
  obtain ⟨rest, hbefore⟩ := hreached.before_taken hsplit
  obtain ⟨-, hfold⟩ := hreached.names_of_no_script fun d hd =>
    hno d.event (List.mem_map_of_mem hd)
  cases hincludes with
  | intro control tag named found plain =>
    rw [named] at htake
    cases htake
    generalize hcontent : element.content = content at hopens
    cases hopens with
    | object o hplain => simp [control] at hplain
    | composite o hplain => simp [control] at hplain
    | assignment hplain => simp [control] at hplain
    | script inline _ hscript => simp [tag] at hscript
    | inclusion source' reader inner _ _ hfound hreader hinner =>
      rw [found] at hfound
      cases hfound
      have hr : reader = r := (hreader plain).trans hbefore.reader_eq
      rw [hr, hbefore.location_eq] at hinner
      rw [hsame] at hbefore
      refine ⟨inner, after, ⟨front, opener.builder, opener.session, rest, c, hbefore, hstep, hinner⟩,
        ?_, ?_, ?_⟩
      · rw [← hnames, Registry.get?_of_plain _ hdot, hfold, get?_foldl_bind, lastNamed?, helement]
        simp [Element.value, hcontent]
      · rw [← hnames, hfold, child?_foldl_bind, helement]
        simp [Element.names?, hcontent]
      · exact hreached.changes_since (fun _ _ => Heap.Edit.retains) Heap.retains_build hsplit
          (hsame ▸ hstep)

/-- What is found below the name of an inclusion is what the included document has there. -/
theorem Document.ReadAt.get?_eq {r : Reader} {room : Nat} {source : List Char}
    {location : Option String} {s t after : Session} {e : Event} {id src : String}
    {inner d : Document} (h : inner.ReadAt r room source location s e id src after d t)
    (hdot : '.' ∉ id.toList) (path : String) :
    d.names.get? (id ++ "." ++ path) = inner.names.get? path := by
  rw [Registry.get?_append d.names hdot, h.child, Option.bind_some]

/-- The documents around an included document only decide whether it may be opened: what the read
inside them gives, or fails with, a read by itself gives up to the identities of objects, or fails
with too. So what a document without scripts finds along a path through an inclusion refers to
objects that the run made where it included the document, and is what the included document, read by
itself, finds along the rest of the path. -/
theorem inclusions_context_free (r : Reader) :
    (∀ room l s t, t.guard = .idle → r.SharedIn s.heap t.heap →
      (∀ d s', (r.readNested room l).perform s = (.ok d, s') →
        ∃ f d' t', (r.read l).perform t = (.ok d', t') ∧ d.Isomorphism f s'.heap d' t'.heap) ∧
      (∀ e s', (r.readNested room l).perform s = (.error e, s') →
        (∃ n, e = .nesting n) ∨ ∃ t', (r.read l).perform t = (.error e, t'))) ∧
    (∀ room source location s d t,
      (r.parse (Reader.readNested room) source location).perform s = (.ok d, t) →
      (∀ e ∈ documentEvents (Text.dropMark source), e.startsScript = false) →
      ∀ e ∈ documentEvents (Text.dropMark source), ∀ id src, e.Includes id src →
      '.' ∉ id.toList →
      (documentEvents (Text.dropMark source)).countP (fun e => e.id? = some id) = 1 →
      ∀ u, u.guard = .idle → r.SharedIn s.heap u.heap →
      ∃ (inner : Document) (after : Session) (f : ObjectId → ObjectId) (d' : Document) (u' : Session),
        inner.ReadAt r room source location s e id src after d t ∧
        (r.read (Path.resolve src location)).perform u = (.ok d', u') ∧
        inner.Isomorphism f after.heap d' u'.heap ∧
        ∀ path,
          (∀ v, d.names.get? (id ++ "." ++ path) = some v → ∀ o ∈ v.refs, inner.Has after.heap o) ∧
          d'.names.get? path = (d.names.get? (id ++ "." ++ path)).map (Value.mapRefs f)) := by
  constructor
  · intro room l s t hidle hshared
    exact r.readNested_read room l hidle hshared
  · intro room source location s d t hread hno e he id src hincludes hdot honce u hidle hshared
    obtain ⟨inner, after, hat⟩ :=
      Document.readAt_of_inclusion hread hno he hincludes hdot honce
    obtain ⟨taken, b, before, ahead, c, hreached, -, hinner⟩ := hat.moment
    obtain ⟨f, d', u', halone, hiso⟩ := (r.readNested_read room (Path.resolve src location) hidle
      (hreached.shared_kept hshared)).1 inner after hinner
    refine ⟨inner, after, f, d', u', hat, halone, hiso, fun path => ⟨?_, ?_⟩⟩
    · intro v hv o ho
      rw [hat.get?_eq hdot] at hv
      exact .start (.inr (Registry.refs_get? hv o ho))
    · rw [hat.get?_eq hdot, hiso.names, Registry.get?_mapRefs]

theorem Reader.ofLibrary_holds (l : Library) (o : ObjectId) : ¬(ofLibrary l).Holds o := by
  intro ho
  cases ho with
  | resource found value ho => cases found
  | bundle known loaded value ho => cases known
  | script known compiled ho => cases known

/-- A named map in an included document is found under the name of the inclusion, in the heap of the
document around it and by itself. -/
theorem inclusions_context_free_of_map :
    let r := Reader.ofLibrary
      (Library.empty.addText "c" "<HashMap xmlns='wtkx.collections' wtkx:id='m'/>")
    let list := "<ArrayList xmlns='wtkx.collections'><wtkx:include src='c' wtkx:id='k'/>"
    let source := (list ++ "</ArrayList>").toList
    let start := Event.opened ⟨some "wtkx", "include", none⟩
      [⟨⟨none, "src", none⟩, "c"⟩, ⟨⟨some "wtkx", "id", none⟩, "k"⟩] ⟨1, 37⟩
    ∃ (d : Document) (t : Session) (inner : Document) (after : Session) (f : ObjectId → ObjectId)
      (d' : Document) (u' : Session) (o : ObjectId),
      (r.parse (Reader.readNested 2) source none).perform .initial = (.ok d, t) ∧
      inner.ReadAt r 2 source none .initial start "k" "c" after d t ∧
      (r.read (Path.resolve "c" none)).perform .initial = (.ok d', u') ∧
      inner.Isomorphism f after.heap d' u'.heap ∧
      d.names.get? "k.m" = some (.object o) ∧ t.heap.typeName o = "HashMap" ∧
      inner.Has after.heap o ∧ d'.names.get? "m" = some (.object (f o)) := by
  intro r list source start
  have hsome : ((r.parse (Reader.readNested 2) source none).perform .initial).1.toOption.any
      (fun d => d.names.get? "k.m" = some (.object ⟨1⟩)) = true := by
    decide +kernel
  have htype : ((r.parse (Reader.readNested 2) source none).perform .initial).2.heap.typeName ⟨1⟩ =
      "HashMap" := by
    decide +kernel
  have hevent : start ∈ documentEvents (Text.dropMark source) := by
    decide +kernel
  have hincludes : start.Includes "k" "c" := .intro rfl rfl rfl rfl rfl
  have hno : ∀ e ∈ documentEvents (Text.dropMark source), e.startsScript = false := by
    decide +kernel
  have honce : (documentEvents (Text.dropMark source)).countP (fun e => e.id? = some "k") = 1 := by
    decide +kernel
  have hheld : ∀ o, ¬r.Holds o := Reader.ofLibrary_holds _
  clear_value r list source start
  rcases hread : (r.parse (Reader.readNested 2) source none).perform .initial with ⟨e | d, t⟩
  · rw [hread] at hsome
    cases hsome
  · rw [hread] at hsome htype
    have hfound : d.names.get? "k.m" = some (.object ⟨1⟩) := by
      simpa [Except.toOption] using hsome
    obtain ⟨inner, after, f, d', u', hat, halone, hiso, hpaths⟩ :=
      (inclusions_context_free r).2 2 source none .initial d t hread hno start hevent "k" "c"
        hincludes (by decide) honce .initial rfl (Reader.sharedIn_of_empty hheld _ _)
    have hpath : "k" ++ "." ++ "m" = "k.m" := by decide
    obtain ⟨hown, hmap⟩ := hpaths "m"
    rw [hpath] at hown hmap
    rw [hfound] at hmap
    exact ⟨d, t, inner, after, f, d', u', ⟨1⟩, rfl, hat, halone, hiso, hfound, htype,
      hown _ hfound _ List.mem_cons_self, hmap⟩

end ObjectMarkup
