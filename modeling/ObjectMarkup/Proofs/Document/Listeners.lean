import ObjectMarkup.Demo.Objects
import ObjectMarkup.Proofs.Document.AttachedOwner

namespace ObjectMarkup

open Markup

def Object.listen (o : Object) (objects : List ObjectId) : Object :=
  { o with listeners := o.listeners.map fun ls => ls ++ objects }

def Heap.modify (h : Heap) (id : ObjectId) (f : Object → Object) : Heap :=
  h.update id (f (h.object id))

def Session.listen (s : Session) (list : ObjectId) (objects : List ObjectId) : Session :=
  { s with heap := s.heap.modify list fun o => o.listen objects }

def Registry.Names (names : Registry) (id : String) (object : ObjectId) : Prop :=
  names.get? id = some (.object object)

instance (names : Registry) (id : String) (object : ObjectId) :
    Decidable (names.Names id object) :=
  inferInstanceAs (Decidable (names.get? id = some (.object object)))

variable {names : Registry} {s : Session} {b : Builder} {element : Element} {a : Attribute}
  {id list : ObjectId} {present : List ObjectId} {property : String}

namespace Object

@[simp] theorem listen_nil (o : Object) : o.listen [] = o := by
  obtain ⟨typeName, dictionary, bean, sequence, listeners⟩ := o
  cases listeners <;> simp [listen]

theorem listen_listen (o : Object) (front back : List ObjectId) :
    (o.listen front).listen back = o.listen (front ++ back) := by
  simp [listen, Option.map_map, Function.comp_def]

theorem isSome_listeners_listen (o : Object) (objects : List ObjectId) :
    (o.listen objects).listeners.isSome = o.listeners.isSome := by
  simp [listen]

end Object

namespace Heap

theorem object_modify (h : Heap) (id other : ObjectId) (f : Object → Object) :
    (h.modify id f).object other =
      if id = other ∧ id.index < h.size then f (h.object id) else h.object other :=
  h.object_update id other _

theorem object_modify_of_ne {h : Heap} {id other : ObjectId} (hne : other ≠ id)
    (f : Object → Object) : (h.modify id f).object other = h.object other := by
  rw [object_modify, if_neg fun h => hne h.1.symm]

theorem lt_size_of_listeners {h : Heap} {id : ObjectId}
    (hlist : (h.object id).listeners.isSome = true) : id.index < h.size := by
  by_contra hsize
  rw [object, List.getElem?_eq_none (Nat.le_of_not_lt hsize)] at hlist
  cases hlist

/-- What is no object goes by the same label everywhere. -/
theorem label_of_plain {value : Value} (hvalue : value.object? = none) (h h' : Heap) :
    h.label value = h'.label value := by
  cases value <;> first | rfl | cases hvalue

theorem modify_modify (h : Heap) (id : ObjectId) (f g : Object → Object) :
    (h.modify id f).modify id g = h.modify id fun o => g (f o) := by
  by_cases hid : id.index < h.size
  · simp only [modify, object_update, hid, and_self, if_true, update_update]
  · simp only [modify, update_of_size_le (Nat.le_of_not_lt hid)]

end Heap

namespace Session

theorem listen_nil (s : Session) (list : ObjectId) : s.listen list [] = s := by
  simp [listen, Heap.modify, Heap.update_self]

theorem listen_listen (s : Session) (list : ObjectId) (front back : List ObjectId) :
    (s.listen list front).listen list back = s.listen list (front ++ back) := by
  simp only [listen, Heap.modify_modify, Object.listen_listen]

theorem isList_listen (hlist : (s.heap.object list).listeners.isSome = true)
    (objects : List ObjectId) :
    ((s.listen list objects).heap.object list).listeners.isSome = true := by
  rw [listen, Heap.object_modify, if_pos ⟨rfl, Heap.lt_size_of_listeners hlist⟩,
    Object.isSome_listeners_listen, hlist]

end Session

namespace Builder

variable {name : String} {listener : ObjectId} {found before after : List String}

theorem perform_addListener (hlist : (s.heap.object list).listeners.isSome = true)
    (hname : names.Names name listener) :
    (addListener names property list name).perform s = (.ok (), s.listen list [listener]) := by
  obtain ⟨present, hpresent⟩ := Option.isSome_iff_exists.mp hlist
  have hadd : s.heap.addListener? list listener =
      some (s.heap.modify list fun o => o.listen [listener]) := by
    simp [Heap.addListener?, Heap.modify, Object.listen, hpresent]
  unfold addListener
  simp only [Reading.perform_bind, Reading.perform_heap, show names.get? name = _ from hname, hadd]
  rfl

theorem perform_addListener_unbound (hname : names.get? name = none) :
    (addListener names property list name).perform s = (.error (.unknownId name), s) := by
  unfold addListener
  simp only [Reading.perform_bind, Reading.perform_heap, hname, Reading.perform_fail]

theorem perform_addListener_plain {value : Value} (hname : names.get? name = some value)
    (hvalue : value.object? = none) :
    (addListener names property list name).perform s =
      (.error (.notAListener name (s.heap.label value)), s) := by
  unfold addListener
  simp only [Reading.perform_bind, Reading.perform_heap, hname]
  cases value <;> first | rfl | cases hvalue

/-- Names that all stand for objects are used up, and what comes after them is done with a longer
list. -/
theorem perform_addListeners_append (hlist : (s.heap.object list).listeners.isSome = true)
    {objects : List ObjectId} (hbefore : List.Forall₂ names.Names before objects) :
    (addListeners names property list (before ++ after)).perform s =
      (addListeners names property list after).perform (s.listen list objects) := by
  induction hbefore generalizing s with
  | nil => rw [List.nil_append, Session.listen_nil]
  | cons hname _ ih =>
    rw [List.cons_append, addListeners, Reading.perform_bind_of_ok (perform_addListener hlist hname),
      ih (Session.isList_listen hlist _), Session.listen_listen, List.singleton_append]

end Builder

/-- An attribute of a property that is a list of listeners gives its names to the list that the
object has for it. -/
theorem perform_applyAttribute_listeners (hplain : a.isAttached = false)
    (hkind : Builder.propertyKind? (s.heap.object id) a.name.localName = some .listenerList)
    (hget : ((s.heap.object id).access?.bind fun access => access.get? a.name.localName) =
      some (.object list)) :
    (b.applyAttribute element id a).perform s =
      (Builder.addListeners b.names a.name.localName list (Builder.listenerIds a.value)).perform
        s := by
  obtain ⟨access, haccess, hheld⟩ := Option.bind_eq_some_iff.mp hget
  have hplain' : Unicode.startsUppercase a.name.localName = false := hplain
  have hdeclared : (access.descriptor? a.name.localName).map PropertyDescriptor.kind =
      some .listenerList := by
    simpa only [Builder.propertyKind?, haccess, Option.bind_some] using hkind
  unfold Builder.applyAttribute Builder.applyProperty
  simp only [hplain', Bool.false_eq_true, if_false, Reading.perform_bind, Reading.perform_heap,
    haccess, hdeclared, hheld, Option.bind_some]
  rfl

/-- The names of a listener attribute are what stands between the commas of its text. -/
theorem exists_listenerIds (raw : String) :
    ∃ segments, Text.join "," segments = raw ∧ (∀ p ∈ segments, ',' ∉ p.toList) ∧
      Builder.listenerIds raw = (segments.map Text.trimmed).filter fun p => p ≠ "" := by
  refine ⟨Text.segments ',' raw, ?_, fun p hp => ?_, rfl⟩
  · simp [Text.join, Text.segments, Function.comp_def, Text.intercalate_pieces]
  · obtain ⟨cs, hcs, rfl⟩ := List.mem_map.mp hp
    rw [String.toList_ofList]
    exact Text.not_mem_of_mem_pieces hcs

/-- Either all names stand for objects, or there is a first one that does not. -/
theorem Registry.names_or_first (names : Registry) (ids : List String) :
    (∃ objects, List.Forall₂ names.Names ids objects) ∨
      ∃ before name after objects, ids = before ++ name :: after ∧
        List.Forall₂ names.Names before objects ∧ ∀ o, ¬ names.Names name o := by
  induction ids with
  | nil => exact .inl ⟨[], .nil⟩
  | cons name rest ih =>
    by_cases hname : ∃ o, names.Names name o
    · obtain ⟨o, ho⟩ := hname
      rcases ih with ⟨objects, hall⟩ | ⟨before, other, after, objects, rfl, hbefore, hother⟩
      · exact .inl ⟨o :: objects, .cons ho hall⟩
      · exact .inr ⟨name :: before, other, after, o :: objects, rfl, .cons ho hbefore, hother⟩
    · exact .inr ⟨[], name, rest, [], rfl, .nil, not_exists.mp hname⟩

/-- A listener attribute of an object that has a list of listeners for it adds the objects that are
named between the commas of its text, in order and as often as they are named; space around a name
and empty names do not count. It fails at the first name that stands for no object, with what is
wrong with that name, and the objects before it stay in the list. The list changes in its listeners
alone, and no other object changes, also where the list is among its own listeners. -/
theorem listeners_added (hplain : a.isAttached = false)
    (hkind : Builder.propertyKind? (s.heap.object id) a.name.localName = some .listenerList)
    (hget : ((s.heap.object id).access?.bind fun access => access.get? a.name.localName) =
      some (.object list))
    (hlist : (s.heap.object list).listeners = some present) :
    let ids := Builder.listenerIds a.value
    let run := (b.applyAttribute element id a).perform s
    (∃ segments, Text.join "," segments = a.value ∧ (∀ p ∈ segments, ',' ∉ p.toList) ∧
      ids = (segments.map Text.trimmed).filter fun p => p ≠ "") ∧
    (∀ objects, List.Forall₂ b.names.Names ids objects →
      run = (.ok (), s.listen list objects)) ∧
    (∀ before name after objects, ids = before ++ name :: after →
      List.Forall₂ b.names.Names before objects →
      (b.names.get? name = none → run = (.error (.unknownId name), s.listen list objects)) ∧
      ∀ value, b.names.get? name = some value → value.object? = none →
        run = (.error (.notAListener name (s.heap.label value)), s.listen list objects)) ∧
    ((∃ objects, List.Forall₂ b.names.Names ids objects) ∨
      ∃ before name after objects, ids = before ++ name :: after ∧
        List.Forall₂ b.names.Names before objects ∧ ∀ o, ¬ b.names.Names name o) ∧
    ∀ objects, (s.listen list objects).heap.object list =
        { s.heap.object list with listeners := some (present ++ objects) } ∧
      ∀ p, p ≠ list → (s.listen list objects).heap.object p = s.heap.object p := by
  have hisList : (s.heap.object list).listeners.isSome = true := by rw [hlist]; rfl
  intro ids run
  have hrun : run = (Builder.addListeners b.names a.name.localName list ids).perform s :=
    perform_applyAttribute_listeners hplain hkind hget
  refine ⟨exists_listenerIds a.value, fun objects hall => ?_,
    fun before name after objects hsplit hbefore => ?_,
    b.names.names_or_first ids, fun objects => ⟨?_, fun p hp => Heap.object_modify_of_ne hp _⟩⟩
  · rw [hrun, ← List.append_nil ids, Builder.perform_addListeners_append hisList hall]
    rfl
  · rw [hrun, hsplit, Builder.perform_addListeners_append hisList hbefore]
    unfold Builder.addListeners
    refine ⟨fun hname => ?_, fun value hname hvalue => ?_⟩
    · rw [Reading.perform_bind, Builder.perform_addListener_unbound hname]
    · rw [Reading.perform_bind, Builder.perform_addListener_plain hname hvalue,
        Heap.label_of_plain hvalue]
  · rw [Session.listen, Heap.object_modify, if_pos ⟨rfl, Heap.lt_size_of_listeners hisList⟩,
      Object.listen, hlist]
    rfl

/-- The list listens to itself, under its own name and next to an object of an included document. A
name that nothing is bound to stops the second attribute, after its first name. -/
theorem listeners_added_of_itself :
    let foo : Object := Demo.bean "Foo" [Demo.listeners "hooks" (Demo.part 1)]
    let list : List ObjectId → Object := fun ls => { Object.listenerList with listeners := some ls }
    let s : List ObjectId → Session := fun ls => ⟨⟨[foo, list ls]⟩, [], .idle⟩
    let inner := Registry.empty.put "ok" (.object ⟨0⟩)
    let b : Builder :=
      { Builder.start .plain none with
        names := (Registry.empty.put "hooks" (.object ⟨1⟩)).bindInclude "panel" .null inner }
    let element : Element := ⟨⟨none, "Foo", some "demo"⟩, ⟨1, 1⟩, .created ⟨0⟩ ⟨none, []⟩⟩
    let hooks : String → Attribute := fun value => ⟨⟨none, "hooks", none⟩, value⟩
    (b.applyAttribute element ⟨0⟩ (hooks " hooks, panel.ok,, hooks")).perform (s [⟨0⟩]) =
        (.ok (), s [⟨0⟩, ⟨1⟩, ⟨0⟩, ⟨1⟩]) ∧
      (b.applyAttribute element ⟨0⟩ (hooks "hooks,ghost,panel.ok")).perform (s []) =
        (.error (.unknownId "ghost"), s [⟨1⟩]) := by
  intro foo list s inner b element hooks
  obtain ⟨-, hall, -⟩ := @listeners_added (s [⟨0⟩]) b element (hooks " hooks, panel.ok,, hooks")
    ⟨0⟩ ⟨1⟩ [⟨0⟩] (by decide) rfl rfl rfl
  obtain ⟨-, -, hfirst, -⟩ := @listeners_added (s []) b element (hooks "hooks,ghost,panel.ok")
    ⟨0⟩ ⟨1⟩ [] (by decide) rfl rfl rfl
  have hhooks : b.names.Names "hooks" ⟨1⟩ := by decide
  have hok : b.names.Names "panel.ok" ⟨0⟩ := by decide
  have hids : Builder.listenerIds " hooks, panel.ok,, hooks" = ["hooks", "panel.ok", "hooks"] := by
    decide
  exact ⟨hall _ (hids ▸ .cons hhooks (.cons hok (.cons hhooks .nil))),
    (hfirst ["hooks"] "ghost" ["panel.ok"] _ (by decide) (.cons hhooks .nil)).1 (by decide)⟩

end ObjectMarkup
