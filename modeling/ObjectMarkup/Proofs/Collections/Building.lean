import ObjectMarkup.Proofs.Collections.Item
import ObjectMarkup.Proofs.Document.NameTimeline

namespace ObjectMarkup

open Markup

def Session.extend (s : Session) (os : List Object) : Session :=
  { s with heap := s.heap.extend os }

namespace Session

@[simp] theorem extend_nil (s : Session) : s.extend [] = s := by
  simp [extend]

@[simp] theorem extend_extend (s : Session) (os ps : List Object) :
    (s.extend os).extend ps = s.extend (os ++ ps) := by
  simp [extend]

@[simp] theorem heap_extend (s : Session) (os : List Object) :
    (s.extend os).heap = s.heap.extend os := rfl

@[simp] theorem guard_extend (s : Session) (os : List Object) :
    (s.extend os).guard = s.guard := rfl

end Session

/-- Whether the names of the collections stand for their types. -/
structure TypeRegistry.HasCollections (t : TypeRegistry) : Prop where
  list : t.blueprint collectionsSpace "ArrayList" = .ok { root := .arrayList }
  map : t.blueprint collectionsSpace "HashMap" = .ok { root := .hashMap }

theorem TypeRegistry.hasCollections_collections : TypeRegistry.collections.HasCollections :=
  ⟨by rfl, by rfl⟩

namespace Collections

variable {nested : Reader → String → Reading Document} {b : Builder} {s : Session}
  {name : QualifiedName} {place : Location} {closing : Closing} {rest : List Element}
  {v : Value} {vs : List Value} {es : List (String × Value)} {os : List Object} {content : String}

theorem setHeap_perform (s : Session) (h : Heap) :
    (Reading.setHeap h).perform s = (.ok (), { s with heap := h }) := rfl

theorem mapOf_insert (es : List (String × Value)) (key : String) (v : Value) :
    { mapOf es with dictionary := some ((OrderedMap.ofList es).insert key v) } =
      mapOf (es ++ [(key, v)]) := by
  simp [mapOf, OrderedMap.ofList, OrderedMap.insertAll]

theorem addItem_list (h : Heap) :
    (h.extend (listOf vs :: os)).addItem? ⟨h.size⟩ v =
      some (.ok (h.extend (listOf (vs ++ [v]) :: os))) := by
  simp [Heap.addItem?, listOf, Object.arrayList, Sequence.add, Sequence.forbids, Except.map]

theorem addItem_map (h : Heap) :
    (h.extend (mapOf es :: os)).addItem? ⟨h.size⟩ v = none := by
  simp [Heap.addItem?, mapOf, Object.hashMap]

theorem put_map (h : Heap) (key : String) :
    (h.extend (mapOf es :: os)).put ⟨h.size⟩ key v =
      .ok (h.extend (mapOf (es ++ [(key, v)]) :: os)) := by
  have haccess : (mapOf es).access? = some (.dictionary (.ofList es)) := rfl
  simp only [Heap.put, Heap.object_extend_size, Object.put, haccess, mapOf_insert, Except.map,
    Heap.update_extend_size]

theorem opened_typed {typeName : String} {blueprint : Blueprint} {root : Object}
    {attributes : List Attribute} (hupper : Unicode.startsUppercase typeName = true)
    (hblueprint : b.reader.environment.types.blueprint collectionsSpace typeName = .ok blueprint)
    (hcopy : blueprint.copyAt s.heap.size = [root])
    (hattributes : ∀ a ∈ attributes, a.name.isIn controlQualifier = false) (q : Qualifier) :
    (b.step nested (.opened (typed q typeName) attributes place)).perform s =
      (.ok (b.push ⟨typed q typeName, place, .created ⟨s.heap.size⟩ ⟨none, attributes⟩⟩),
        s.extend [root]) := by
  have hplain : (typed q typeName).isIn controlQualifier = false := by
    simp [typed, QualifiedName.isIn, q.2]
  have hbuild : (Reading.build blueprint).perform s = (.ok ⟨s.heap.size⟩, s.extend [root]) := by
    change (Except.ok (s.heap.build blueprint).1, { s with heap := (s.heap.build blueprint).2 }) = _
    rw [Heap.build, hcopy]
    rfl
  have hobject : (b.openObject (typed q typeName) ⟨none, attributes⟩ place).perform s =
      (.ok (b.push ⟨typed q typeName, place, .created ⟨s.heap.size⟩ ⟨none, attributes⟩⟩),
        s.extend [root]) := by
    simp only [Builder.openObject, typed, hblueprint, Reading.perform_bind, Reading.perform_lift_ok,
      hbuild, Reading.perform_pure]
  rw [Builder.step, Builder.opened, takeId_of_plain hattributes]
  simp only [Reading.perform_bind, Reading.perform_lift_ok, hplain, Bool.false_eq_true, if_false]
  rw [if_pos (by exact hupper)]
  exact hobject

theorem opened_list (htypes : b.reader.environment.types.HasCollections) (q : Qualifier) :
    (b.step nested (.opened (typed q "ArrayList") [] place)).perform s =
      (.ok (b.push ⟨typed q "ArrayList", place, .created ⟨s.heap.size⟩ ⟨none, []⟩⟩),
        s.extend [listOf []]) :=
  opened_typed (by decide) htypes.list rfl (by simp) q

theorem opened_map (htypes : b.reader.environment.types.HasCollections) (q : Qualifier)
    (attributes : List Entry) :
    (b.step nested
      (.opened (typed q "HashMap") (attributes.map Entry.attribute) place)).perform s =
      (.ok (b.push ⟨typed q "HashMap", place,
        .created ⟨s.heap.size⟩ ⟨none, attributes.map Entry.attribute⟩⟩), s.extend [mapOf []]) := by
  refine opened_typed (by decide) htypes.map rfl ?_ q
  intro a ha
  obtain ⟨e, -, rfl⟩ := List.mem_map.mp ha
  rfl

theorem opened_key (hstack : b.stack = ⟨name, place, .created ⟨s.heap.size⟩ closing⟩ :: rest)
    (key : Key) (space : Option String) (place' : Location) :
    (b.step nested (.opened ⟨none, key, space⟩ [] place')).perform (s.extend (mapOf es :: os)) =
      (.ok (b.push ⟨⟨none, key, space⟩, place', .assignment .null⟩),
        s.extend (mapOf es :: os)) := by
  have hholder : b.stack.head?.bind Element.holder? = some ⟨s.heap.size⟩ := by
    rw [hstack]
    rfl
  rw [Builder.step, Builder.opened]
  simp only [takeId, Reading.perform_bind, Reading.perform_lift_ok, QualifiedName.isIn, reduceCtorEq,
    decide_false, Bool.false_eq_true, if_false]
  rw [if_neg (by simp [key.2])]
  unfold Builder.openProperty
  rw [hholder]
  simp [Reading.perform_bind, Builder.propertyKind?, mapOf, Object.access?, Object.hashMap,
    Access.descriptor?]

theorem text_list (hstack : b.stack = ⟨name, place, .created ⟨s.heap.size⟩ closing⟩ :: rest)
    (hcontent : Text.isBlank content.toList = false) :
    (b.text content).perform (s.extend (listOf vs :: os)) =
      (.ok b, s.extend (listOf (vs ++ [.string content]) :: os)) := by
  unfold Builder.text
  simp only [hstack, hcontent, Bool.false_eq_true, if_false, Reading.perform_bind,
    Reading.perform_heap, Session.heap_extend, addItem_list, Reading.perform_lift_ok, setHeap_perform,
    Reading.perform_pure]
  rfl

theorem text_map (hstack : b.stack = ⟨name, place, .created ⟨s.heap.size⟩ closing⟩ :: rest) :
    (b.text content).perform (s.extend (mapOf es :: os)) = (.ok b, s.extend (mapOf es :: os)) := by
  unfold Builder.text
  simp only [hstack]
  split
  · rfl
  · simp only [Reading.perform_bind, Reading.perform_heap, Session.heap_extend, addItem_map,
      Reading.perform_pure]

theorem join_list (hstack : b.stack = ⟨name, place, .created ⟨s.heap.size⟩ closing⟩ :: rest)
    (place' : Location) :
    (b.join v place').perform (s.extend (listOf vs :: os)) =
      (.ok b, s.extend (listOf (vs ++ [v]) :: os)) := by
  unfold Builder.join Builder.joinObject
  simp only [hstack, Element.value, Value.object?, Reading.perform_bind, Reading.perform_heap,
    Session.heap_extend, addItem_list, Reading.perform_lift_ok, setHeap_perform,
    Reading.perform_pure]
  rfl

theorem applyAttribute_map (element : Element) (e : Entry) :
    (b.applyAttribute element ⟨s.heap.size⟩ e.attribute).perform (s.extend (mapOf es :: os)) =
      (.ok (), s.extend (mapOf (es ++ [e.entry]) :: os)) := by
  have haccess : (mapOf es).access? = some (.dictionary (.ofList es)) := rfl
  have hresolve : b.context.resolve e.text none = .ok (.string e.text) := by
    have hplain := e.plain
    unfold Context.resolve Context.resolveReference
    cases htext : e.text.toList with
    | nil => rfl
    | cons c cs =>
      cases cs with
      | nil => rfl
      | cons d cs =>
        have hc : isSigil c = false := by simpa [htext] using hplain
        simp [hc]
  unfold Builder.applyAttribute
  rw [if_neg (by simp [Entry.attribute, e.key.2])]
  unfold Builder.applyProperty
  simp only [Entry.attribute, Reading.perform_bind, Reading.perform_heap, Session.heap_extend,
    Heap.object_extend_size, haccess, Access.descriptor?, Option.map_none, hresolve,
    Reading.perform_lift_ok, Reading.put, put_map, setHeap_perform]
  rfl

theorem applyAll_map (element : Element) (attributes : List Entry) :
    (b.applyAll element ⟨s.heap.size⟩ (attributes.map Entry.attribute)).perform
        (s.extend (mapOf es :: os)) =
      (.ok (), s.extend (mapOf (es ++ attributes.map Entry.entry) :: os)) := by
  induction attributes generalizing es with
  | nil =>
    rw [List.map_nil, List.map_nil, List.append_nil]
    rfl
  | cons e rest ih =>
    simp only [List.map_cons, Builder.applyAll, Reading.perform_bind, applyAttribute_map, ih,
      List.append_assoc, List.cons_append, List.nil_append]

theorem applyAttributes_map {element : Element} (helement : element.value = .object ⟨s.heap.size⟩)
    (attributes : List Entry) :
    (b.applyAttributes element (attributes.map Entry.attribute)).perform
        (s.extend (mapOf es :: os)) =
      (.ok (), s.extend (mapOf (es ++ attributes.map Entry.entry) :: os)) := by
  unfold Builder.applyAttributes
  cases attributes with
  | nil =>
    rw [List.map_nil, List.map_nil, List.append_nil]
    rfl
  | cons e rest =>
    rw [helement]
    exact applyAll_map element (e :: rest)

theorem closed_created {attributes : List Attribute} {o : ObjectId}
    (hstack : b.stack = ⟨name, place, .created o ⟨none, attributes⟩⟩ :: rest)
    (place' : Location) :
    b.step nested (.closed place') = (do
      ({ b with stack := rest }).applyAttributes
        ⟨name, place, .created o ⟨none, attributes⟩⟩ attributes
      let b ← ({ b with stack := rest }).join (.object o) place
      return b.rooted (.object o)) :=
  Builder.closed_eq hstack rfl place'

theorem closed_key (hstack : b.stack = ⟨name, place, .created ⟨s.heap.size⟩ closing⟩ :: rest)
    (key : Key) (space : Option String) (place' ending : Location) :
    ((b.push ⟨⟨none, key, space⟩, place', .assignment v⟩).step nested (.closed ending)).perform
        (s.extend (mapOf es :: os)) =
      (.ok b, s.extend (mapOf (es ++ [(key.1, v)]) :: os)) := by
  have haccess : (mapOf es).access? = some (.dictionary (.ofList es)) := rfl
  have hparent : b.stack.head?.bind (fun parent => parent.value.object?) = some ⟨s.heap.size⟩ := by
    rw [hstack]
    rfl
  rw [Builder.step]
  unfold Builder.closed Builder.closeAssignment
  simp only [Builder.push, hparent, Reading.perform_bind, Reading.perform_heap,
    Session.heap_extend, Heap.object_extend_size, haccess, Access.descriptor?, Reading.put, put_map,
    Reading.perform_lift_ok, setHeap_perform, Reading.perform_pure]
  rfl

end Collections

end ObjectMarkup
