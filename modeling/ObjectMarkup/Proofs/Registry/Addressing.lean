import ObjectMarkup.Proofs.Document.Inclusion
import ObjectMarkup.Proofs.Registry.Operation

namespace ObjectMarkup

open Markup
open Registry (Operation lastOf? lastHung?)

namespace Registry

theorem contains_of_get? {names : Registry} {path : String} {v : Value}
    (h : names.get? path = some v) : names.contains path = true := by
  rw [contains, h, Option.isSome_some]

/-- A path through a name goes on in what hangs there. -/
theorem contains_append (names : Registry) {id : String} (hid : '.' ∉ id.toList) (path : String) :
    names.contains (id ++ "." ++ path) =
      (names.child? id).any fun inner => inner.contains path := by
  rw [contains, names.get?_append hid]
  cases names.child? id <;> rfl

theorem child?_runAll_empty (ops : List Operation) (id : String) :
    (empty.runAll ops).child? id = (lastHung? id ops).bind Operation.names? := by
  rw [child?_runAll]
  cases lastHung? id ops <;> rfl

/-- The last operation on a name answers for what hangs there, unless it is a store above an
inclusion. -/
theorem child?_eq_lastOf?_iff (ops : List Operation) (id : String) :
    (empty.runAll ops).child? id = (lastOf? id ops).bind Operation.names? ↔
      ∀ value, lastOf? id ops = some (.put id value) →
        (lastHung? id ops).bind Operation.names? = none := by
  rw [child?_runAll_empty]
  by_cases hput : ∃ value, lastOf? id ops = some (.put id value)
  · obtain ⟨value, hlast⟩ := hput
    simp [hlast, Operation.names?]
  · have hhung : lastHung? id ops = lastOf? id ops := by
      apply lastHung?_eq
      intro op hlast
      cases op with
      | put own value =>
        cases id_of_lastOf? hlast
        exact absurd ⟨value, hlast⟩ hput
      | bindInclude => rfl
      | remove => rfl
    rw [hhung]
    exact iff_of_true rfl fun value hlast => absurd ⟨value, hlast⟩ hput

/-- A name without dots is found as long as it is bound. -/
theorem get?_of_bound {before after : List Operation} {op : Operation} {v : Value}
    (hid : '.' ∉ op.id.toList) (hv : op.value? = some v)
    (hlast : ∀ later ∈ after, later.id ≠ op.id) :
    (empty.runAll (before ++ op :: after)).get? op.id = some v := by
  rw [get?_of_plain _ hid, values_get?_runAll, lastOf?_of_split hlast]
  exact hv

/-- Of the names without dots those are bound that lead to a value. -/
theorem mem_ids_iff (names : Registry) {id : String} (hid : '.' ∉ id.toList) :
    id ∈ names.ids ↔ names.contains id = true := by
  rw [ids, OrderedMap.mem_keys_iff, contains, names.get?_of_plain hid]

end Registry

/-- The registry under a name is what the last operation on the name has hung there that is no
store. A removal takes it away, but a store does not, so that paths through the name lead on into the
included document although the name now stands for something else. -/
theorem children_follow_inclusions {names : Registry} {ops : List Operation}
    (h : names.MadeBy ops) (id : String) :
    names.child? id = (lastHung? id ops).bind Operation.names? ∧
    (names.child? id = (lastOf? id ops).bind Operation.names? ↔
      ∀ value, lastOf? id ops = some (.put id value) →
        (lastHung? id ops).bind Operation.names? = none) ∧
    ('.' ∉ id.toList → ∀ path,
      names.get? (id ++ "." ++ path) =
        ((lastHung? id ops).bind Operation.names?).bind (fun inner => inner.get? path) ∧
      names.contains (id ++ "." ++ path) =
        ((lastHung? id ops).bind Operation.names?).any (fun inner => inner.contains path)) := by
  have hchild := Registry.child?_runAll_empty ops id
  rw [h.eq]
  refine ⟨hchild, Registry.child?_eq_lastOf?_iff ops id, ?_⟩
  intro hid path
  rw [Registry.get?_append _ hid, Registry.contains_append _ hid, hchild]
  exact ⟨rfl, rfl⟩

/-- An inclusion that is given a name after a store. -/
theorem children_follow_inclusions_of_inclusion :
    let inner := Registry.empty.put "x" (.boolean true)
    let ops : List Operation := [.put "c" .null, .bindInclude "c" (.boolean false) inner]
    (Registry.empty.runAll ops).MadeBy ops ∧ '.' ∉ "c".toList ∧
      (Registry.empty.runAll ops).child? "c" = some inner ∧
      (Registry.empty.runAll ops).get? ("c" ++ "." ++ "x") = some (.boolean true) := by
  intro inner ops
  have hmade : (Registry.empty.runAll ops).MadeBy ops := .operations ops
  have hdot : '.' ∉ "c".toList := by decide
  obtain ⟨hchild, -, hpath⟩ := children_follow_inclusions hmade "c"
  exact ⟨hmade, hdot, hchild, (hpath hdot "x").1⟩

/-- A store on the name of an inclusion leaves the names of the included document within reach, as a
removal does not. A script can do so in a document that is read. -/
theorem store_keeps_inclusion :
    let inner := Registry.empty.put "x" (.boolean true)
    let inclusion : Operation := .bindInclude "c" .null inner
    let stored := Registry.empty.runAll [inclusion, .put "c" (.string "hello")]
    let removed := Registry.empty.runAll [inclusion, .remove "c", .put "c" (.string "hello")]
    let library := Library.empty.addText "c"
      "<HashMap xmlns='wtkx.collections' xmlns:wtkx='urn:wtkx' wtkx:id='x'/>"
    let engine : ScriptEngine := ⟨"ops", [], fun _ => [.assign "c" (.string "hello")]⟩
    let plain := Reader.ofLibrary library
    let r := { plain with environment := { plain.environment with engines := [engine] } }
    let list := "<ArrayList xmlns='wtkx.collections' xmlns:wtkx='urn:wtkx'>"
    let inclusion := "<wtkx:include src='c' wtkx:id='c'/>"
    let script := "<wtkx:script language='ops'>put c hello</wtkx:script>"
    let read := ((r.parse (Reader.readNested 2) (list ++ inclusion ++ script ++ "</ArrayList>").toList
      none).perform .initial).1.toOption
    (stored.get? "c" = some (.string "hello") ∧ (stored.child? "c").isSome ∧
      stored.contains "c.x" = true) ∧
    (removed.get? "c" = some (.string "hello") ∧ (removed.child? "c").isNone ∧
      removed.contains "c.x" = false) ∧
    (read.map fun d => (d.names.get? "c", d.names.contains "c.x")) =
      some (some (.string "hello"), true) := by
  decide +kernel

def Delivery.Pushes (nested : Reader → String → Reading Document) (d : Delivery) (e : Element) :
    Prop :=
  ∃ b t, (d.builder.step nested d.event).perform d.session = (.ok b, t) ∧
    b.stack = e :: d.builder.stack

/-- Where one event of a document that has ended carries an id, one element has ended with it, and
it is the element that the event has put on the stack. -/
theorem Builder.Reached.pushed_of_once {nested : Reader → String → Reading Document} {r : Reader}
    {source : List Char} {location : Option String} {s t : Session} {taken : List Delivery}
    {b : Builder} {ahead : List Signal}
    (h : Builder.Reached nested r source location s taken b t ahead) (hstack : b.stack = [])
    {id : String} {e : Event} (he : e ∈ taken.map Delivery.event) (hid : e.id? = some id)
    (honce : (taken.map Delivery.event).countP (fun e => e.id? = some id) = 1) :
    ∃ element, (endedElements taken).filter (fun e => e.id? = some id) = [element] ∧
      ∃ opener ∈ taken, opener.event = e ∧ opener.Pushes nested element := by
  obtain ⟨element, helement, first, hfirst, hsame, -⟩ := h.origin_of_once hstack he hid honce
  have hended : element ∈ (endedElements taken).filter fun e => e.id? = some id := by
    simp [helement]
  obtain ⟨hmem, hnamed⟩ := List.mem_filter.mp hended
  have hclosing : element.closing?.isSome := by
    cases hc : element.closing? with
    | none => simp [Element.id?, hc] at hnamed
    | some closing => rfl
  obtain ⟨opener, hopener, attributes, c, u, hevent, hstep, hpushed⟩ :=
    h.pushed element (.inr hmem) hclosing
  have hopens : opener.event.id? = some id := by
    rw [hevent] at hstep
    obtain ⟨own, plain, content, names, htake, hopens, -, rfl⟩ := Builder.opened_ok hstep
    have hown : Element.id? ⟨element.name, element.location, content⟩ = own := hopens.id_eq
    rw [(List.cons.inj hpushed).1, of_decide_eq_true hnamed] at hown
    rw [hevent]
    simp only [Event.id?, htake, hown]
  have hone : opener = first := Delivery.eq_of_once honce hopener hopens hfirst (hsame ▸ hid)
  exact ⟨element, helement, opener, hopener, hone ▸ hsame, c, u, hstep, hpushed⟩

/-- In a document without scripts, a name without dots that is given once leads to the value of the
element that the start tag with the name has opened. -/
theorem get?_of_once {nested : Reader → String → Reading Document} {r : Reader}
    {source : List Char} {location : Option String} {s t : Session} {d : Document}
    (hread : (r.parse nested source location).perform s = (.ok d, t))
    (hno : ∀ e ∈ documentEvents (Text.dropMark source), e.startsScript = false)
    {e : Event} (he : e ∈ documentEvents (Text.dropMark source)) {id : String}
    (hid : e.id? = some id) (hdot : '.' ∉ id.toList)
    (honce : (documentEvents (Text.dropMark source)).countP (fun e => e.id? = some id) = 1) :
    ∃ taken b ahead, Builder.Reached nested r source location s taken b t ahead ∧
      ∃ opener ∈ taken, opener.event = e ∧ ∃ element, opener.Pushes nested element ∧
        d.names.get? id = some element.value := by
  obtain ⟨taken, b, ahead, hreached, hstack, -, hnames, -, hevents⟩ := Builder.parse_ok hread
  rw [← hevents] at hno he honce
  obtain ⟨element, helement, opener, hopener, hevent, hpushes⟩ :=
    hreached.pushed_of_once hstack he hid honce
  refine ⟨taken, b, ahead, hreached, opener, hopener, hevent, element, hpushes, ?_⟩
  obtain ⟨-, hfold⟩ := hreached.names_of_no_script fun d hd =>
    hno d.event (List.mem_map_of_mem hd)
  rw [Registry.get?_of_plain _ hdot, ← hnames, hfold, get?_foldl_bind, lastNamed?, helement]
  rfl

/-- A name without dots leads to what was last bound to it until it is removed, at every moment of a
read, in the middle of its scripts too. So a document without scripts in which a name is given once
leads from it to the object of that element. No operation on a name with a dot is ever seen by a
lookup. -/
theorem bound_names_found {names : Registry} {ops : List Operation} (h : names.MadeBy ops) :
    (∀ before op after v, ops = before ++ op :: after → '.' ∉ op.id.toList → op.value? = some v →
      (∀ later ∈ after, later.id ≠ op.id) →
        names.get? op.id = some v ∧ names.contains op.id = true) ∧
    (∀ id : String, '.' ∉ id.toList → (id ∈ names.ids ↔ names.contains id = true)) ∧
    (∀ path, names.get? path =
      (Registry.empty.runAll (ops.filter fun op => '.' ∉ op.id.toList)).get? path) ∧
    (∀ (nested : Reader → String → Reading Document) r source location s d t,
      (r.parse nested source location).perform s = (.ok d, t) →
      (∀ e ∈ documentEvents (Text.dropMark source), e.startsScript = false) →
      ∀ e ∈ documentEvents (Text.dropMark source), ∀ id, e.id? = some id → '.' ∉ id.toList →
      (documentEvents (Text.dropMark source)).countP (fun e => e.id? = some id) = 1 →
      ∃ taken b ahead, Builder.Reached nested r source location s taken b t ahead ∧
        ∃ opener ∈ taken, opener.event = e ∧ ∃ element, opener.Pushes nested element ∧
          d.names.get? id = some element.value ∧ d.names.contains id = true) := by
  refine ⟨?_, fun id => names.mem_ids_iff, ?_, ?_⟩
  · intro before op after v hsplit hid hv hlast
    have hget : names.get? op.id = some v := by
      rw [h.eq, hsplit]
      exact Registry.get?_of_bound hid hv hlast
    exact ⟨hget, Registry.contains_of_get? hget⟩
  · intro path
    rw [h.eq, Registry.empty.get?_runAll_filter]
  · intro nested r source location s d t hread hno e he id hid hdot honce
    obtain ⟨taken, b, ahead, hreached, opener, hopener, hevent, element, hpushes, hget⟩ :=
      get?_of_once hread hno he hid hdot honce
    exact ⟨taken, b, ahead, hreached, opener, hopener, hevent, element, hpushes, hget,
      Registry.contains_of_get? hget⟩

/-- The name of a map in a document, and a name that a script adds to it. -/
theorem bound_names_found_of_map :
    let source := "<HashMap xmlns='wtkx.collections' xmlns:wtkx='urn:wtkx' wtkx:id='ok'/>".toList
    ∃ d t ops, (Reader.plain.parse (Reader.readNested 1) source none).perform .initial = (.ok d, t) ∧
      (d.names.put "y" .null).MadeBy (ops ++ [.put "y" .null]) ∧
      (d.names.put "y" .null).get? "y" = some .null ∧
      ("y" ∈ (d.names.put "y" .null).ids ↔ (d.names.put "y" .null).contains "y" = true) ∧
      d.names.contains "ok" = true := by
  intro source
  have hok : (Reading.perform (Reader.plain.parse (Reader.readNested 1) source none)
      .initial).1.toOption.isSome = true := by
    decide +kernel
  have hno : ∀ e ∈ documentEvents (Text.dropMark source), e.startsScript = false := by
    decide +kernel
  have hevent : Event.opened ⟨none, "HashMap", some "wtkx.collections"⟩
      [⟨⟨some "wtkx", "id", some "urn:wtkx"⟩, "ok"⟩] ⟨1, 1⟩ ∈
      documentEvents (Text.dropMark source) := by
    decide +kernel
  have honce : (documentEvents (Text.dropMark source)).countP (fun e => e.id? = some "ok") = 1 := by
    decide +kernel
  rcases hperform : Reading.perform (Reader.plain.parse (Reader.readNested 1) source none)
      .initial with ⟨e | d, t⟩
  · rw [hperform] at hok
    cases hok
  · obtain ⟨taken, b, ahead, hreached, -, -, hnames, -⟩ := Builder.parse_ok hperform
    have hran : Command.runAll b.names [.assign "y" .null] = .ok (d.names.put "y" .null) := by
      rw [← hnames]
      rfl
    have hmade := Registry.MadeBy.read hreached hran
    obtain ⟨hbound, hids, -, hdocuments⟩ := bound_names_found hmade
    obtain ⟨-, -, -, -, -, -, -, -, -, -, hcontains⟩ :=
      hdocuments _ _ source _ _ d t hperform hno _ hevent "ok" rfl (by decide) honce
    exact ⟨d, t, _, rfl, hmade, (hbound _ (.put "y" .null) [] .null rfl (by decide) rfl (by simp)).1,
      hids "y" (by decide), hcontains⟩

/-- A name with a dot is bound, and is not found, neither by an operation nor by a document. -/
theorem dotted_name_lost :
    let names := Registry.empty.runAll [.put "a.b" (.boolean true)]
    let source := "<HashMap xmlns='wtkx.collections' xmlns:wtkx='urn:wtkx' wtkx:id='a.b'/>".toList
    let read := ((Reader.plain.parse (Reader.readNested 1) source none).perform .initial).1.toOption
    (names.ids = ["a.b"] ∧ names.get? "a.b" = none ∧ names.contains "a.b" = false) ∧
    (read.map fun d => (d.names.ids, d.names.get? "a.b", d.names.contains "a.b")) =
      some (["a.b"], none, false) := by
  decide +kernel

end ObjectMarkup
