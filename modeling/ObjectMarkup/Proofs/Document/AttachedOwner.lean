import ObjectMarkup.Demo.Objects
import ObjectMarkup.Proofs.Document.Scope
import ObjectMarkup.Proofs.Markup.Namespaces

namespace ObjectMarkup

open Markup

theorem ownerAndProperty?_append {owner property : String} (h : '.' ∉ property.toList) :
    ownerAndProperty? (owner ++ "." ++ property) = some (owner, property) := by
  have hlist : (owner ++ "." ++ property).toList = owner.toList ++ '.' :: property.toList := by
    rw [String.toList_append, String.toList_append, List.append_assoc]
    rfl
  simp [ownerAndProperty?, hlist, Text.cutLast_append h]

theorem ownerAndProperty?_eq_some {name owner property : String}
    (h : ownerAndProperty? name = some (owner, property)) :
    name = owner ++ "." ++ property ∧ '.' ∉ property.toList := by
  obtain ⟨⟨front, back⟩, hcut, hparts⟩ := Option.map_eq_some_iff.mp h
  obtain ⟨hname, hback⟩ := Text.cutLast_eq_some hcut
  obtain ⟨rfl, rfl⟩ := Prod.mk.inj hparts
  refine ⟨String.toList_inj.mp ?_, by rwa [String.toList_ofList]⟩
  have hdot : (String.ofList front ++ "." ++ String.ofList back).toList = (front ++ ['.']) ++ back := by
    simp only [String.toList_append, String.toList_ofList]
    rfl
  rw [hname, hdot, List.append_assoc, List.singleton_append]

theorem ownerAndProperty?_eq_none {name : String} :
    ownerAndProperty? name = none ↔ '.' ∉ name.toList := by
  rw [ownerAndProperty?, Option.map_eq_none_iff, Text.cutLast_eq_none]

/-- The namespace of the class that owns an attached property: that of the qualifier of the attribute,
if this stands for one, and else that of the element. -/
inductive OwnerSpace (element attached : QualifiedName) : String → Prop
  | qualified {space : String} (bound : attached.space = some space) :
      OwnerSpace element attached space
  | plain {space : String} (plain : attached.qualifier = none) (free : attached.space = none)
      (around : element.space = some space) : OwnerSpace element attached space
  /-- A qualifier that stands for no namespace is passed over. -/
  | passedOver {space : String} (qualified : attached.qualifier.isSome)
      (unbound : attached.space = none) (around : element.space = some space) :
      OwnerSpace element attached space

theorem ownerSpace_iff {element attached : QualifiedName} {space : String} :
    OwnerSpace element attached space ↔
      (attached.space.orElse fun _ => element.space) = some space := by
  constructor
  · rintro (bound | ⟨-, free, around⟩ | ⟨-, unbound, around⟩)
    · rw [bound]
      rfl
    · rw [free]
      exact around
    · rw [unbound]
      exact around
  · intro h
    cases hspace : attached.space with
    | some own =>
      rw [hspace] at h
      cases h
      exact .qualified hspace
    | none =>
      rw [hspace] at h
      cases hqualifier : attached.qualifier with
      | none => exact .plain hqualifier hspace h
      | some qualifier => exact .passedOver (by simp [hqualifier]) hspace h

namespace Reading

def KeepsLog {α : Type} (x : Reading α) : Prop :=
  ∀ s, (x.perform s).2.attached = s.attached

namespace KeepsLog

variable {α β ε : Type}

theorem pure (a : α) : KeepsLog (Pure.pure a) := fun _ => rfl

theorem fail (e : ReadError) : KeepsLog (fail e : Reading α) := fun _ => rfl

theorem heap : KeepsLog heap := fun _ => rfl

theorem setHeap (h : Heap) : KeepsLog (setHeap h) := fun _ => rfl

theorem lift (wrap : ε → ReadError) (x : Except ε α) : KeepsLog (lift wrap x) := by
  cases x <;> exact fun _ => rfl

theorem bind {x : Reading α} {f : α → Reading β} (hx : KeepsLog x) (hf : ∀ a, KeepsLog (f a)) :
    KeepsLog (x >>= f) := by
  intro s
  have hlog := hx s
  rw [perform_bind]
  rcases hperform : x.perform s with ⟨e | a, t⟩
  · rwa [hperform] at hlog
  · rw [hperform] at hlog
    exact (hf a t).trans hlog

theorem put (id : ObjectId) (name : String) (value : Value) : KeepsLog (put id name value) :=
  heap.bind fun _ => (lift _ _).bind setHeap

theorem addListener (names : Registry) (property : String) (list : ObjectId) (id : String) :
    KeepsLog (Builder.addListener names property list id) := by
  refine heap.bind fun h => ?_
  split
  · exact fail _
  · split
    · exact setHeap _
    · exact fail _
  · exact fail _

theorem addListeners (names : Registry) (property : String) (list : ObjectId) (ids : List String) :
    KeepsLog (Builder.addListeners names property list ids) := by
  induction ids with
  | nil => exact pure ()
  | cons id rest ih => exact (addListener names property list id).bind fun _ => ih

theorem applyProperty (c : Context) (id : ObjectId) (a : Attribute) :
    KeepsLog (Builder.applyProperty c id a) := by
  refine heap.bind fun h => ?_
  dsimp only
  split
  · exact fail _
  · split
    · split
      · exact fail _
      · exact addListeners _ _ _ _
    · exact fail _
    · exact (lift _ _).bind fun _ => put _ _ _

end KeepsLog

end Reading

namespace Builder

variable {b : Builder} {element : Element} {id : ObjectId} {a : Attribute} {s t : Session}

/-- Sets a property that a class attaches to an object, and notes it. -/
def setAttached (b : Builder) (owner property : String) (id : ObjectId) (value : String) :
    Reading Unit :=
  match b.reader.environment.types.attached? owner property with
  | none => .fail (.unknownAttached owner property)
  | some attached => do
    let value ← .lift .reference (b.context.resolve value (some attached.descriptor.type))
    let s ← get
    let log ← .lift .property (attached.set owner (s.heap.label value) id value s.attached)
    set { s with attached := log }

theorem applyAttribute_attached (hupper : a.isAttached = true) (b : Builder) (element : Element)
    (id : ObjectId) : b.applyAttribute element id a = b.applyAttached element id a :=
  if_pos hupper

theorem applyAttribute_undotted (hupper : a.isAttached = true)
    (hdot : '.' ∉ a.name.localName.toList) (b : Builder) (element : Element) (id : ObjectId) :
    b.applyAttribute element id a =
      .fail (.malformed (.attachedWithoutOwner a.name.display) element.location) := by
  rw [applyAttribute_attached hupper, applyAttached, ownerAndProperty?_eq_none.mpr hdot]

theorem applyAttribute_spaceless {owner property : String}
    (hupper : a.isAttached = true)
    (hname : a.name.localName = owner ++ "." ++ property) (hdot : '.' ∉ property.toList)
    (hspace : a.name.space = none) (haround : element.name.space = none) (b : Builder)
    (id : ObjectId) :
    b.applyAttribute element id a =
      .fail (.malformed (.attachedWithoutNamespace a.name.display) element.location) := by
  rw [applyAttribute_attached hupper, applyAttached, hname, ownerAndProperty?_append hdot, hspace,
    haround]
  rfl

theorem applyAttribute_owned {owner property space : String}
    (hupper : a.isAttached = true)
    (hname : a.name.localName = owner ++ "." ++ property) (hdot : '.' ∉ property.toList)
    (hspace : OwnerSpace element.name a.name space) (b : Builder) (id : ObjectId) :
    b.applyAttribute element id a =
      b.setAttached (qualifiedName space owner) property id a.value := by
  rw [applyAttribute_attached hupper, applyAttached, hname, ownerAndProperty?_append hdot]
  dsimp only
  rw [ownerSpace_iff.mp hspace]
  rfl

/-- What an attribute attaches to the object of an element. -/
structure Attaches (b : Builder) (element : Element) (a : Attribute) (v : AttachedValue) : Prop where
  target : element.value.object? = some v.target
  owned : ∃ owner property space p, a.name.localName = owner ++ "." ++ property ∧
    '.' ∉ property.toList ∧ OwnerSpace element.name a.name space ∧
    v.owner = qualifiedName space owner ∧
    b.reader.environment.types.attached? v.owner property = some p ∧
    v.property = p.descriptor.name ∧ ∃ value label,
      b.context.resolve a.value (some p.descriptor.type) = .ok value ∧
      p.intake.accept p.descriptor.name label value = .ok v.value

theorem setAttached_ok {owner property value : String}
    (h : (b.setAttached owner property id value).perform s = (.ok (), t)) :
    ∃ p resolved kept, b.reader.environment.types.attached? owner property = some p ∧
      b.context.resolve value (some p.descriptor.type) = .ok resolved ∧
      p.intake.accept p.descriptor.name (s.heap.label resolved) resolved = .ok kept ∧
      t = { s with attached := s.attached ++ [⟨id, owner, p.descriptor.name, kept⟩] } := by
  unfold setAttached at h
  split at h
  · cases h
  · rename_i p hp
    obtain ⟨resolved, u, hvalue, hrest⟩ := Reading.bind_eq_ok.mp h
    obtain ⟨hresolve, hu⟩ := Reading.lift_eq_ok.mp hvalue
    rw [hu] at hrest
    obtain ⟨s', v, hget, hnoted⟩ := Reading.bind_eq_ok.mp hrest
    cases hget
    obtain ⟨log, w, hlog, hset⟩ := Reading.bind_eq_ok.mp hnoted
    obtain ⟨kept, hkept, rfl⟩ := exists_of_map_ok (Reading.lift_eq_ok.mp hlog).1
    cases hset
    exact ⟨p, resolved, kept, hp, hresolve, hkept, rfl⟩

/-- An attribute that attaches a property does so under the class that owns it. -/
theorem applyAttribute_attaches (hupper : a.isAttached = true)
    (hid : element.value.object? = some id)
    (h : (b.applyAttribute element id a).perform s = (.ok (), t)) :
    ∃ v, b.Attaches element a v ∧ t.attached = s.attached ++ [v] := by
  by_cases hdot : '.' ∈ a.name.localName.toList
  · cases hparts : ownerAndProperty? a.name.localName with
    | none => exact absurd hdot (ownerAndProperty?_eq_none.mp hparts)
    | some parts =>
      obtain ⟨owner, property⟩ := parts
      obtain ⟨hname, hproperty⟩ := ownerAndProperty?_eq_some hparts
      cases hspace : a.name.space.orElse fun _ => element.name.space with
      | none =>
        obtain ⟨hown, haround⟩ : a.name.space = none ∧ element.name.space = none := by
          simpa using hspace
        rw [applyAttribute_spaceless hupper hname hproperty hown haround] at h
        cases h
      | some space =>
        have howned := ownerSpace_iff.mpr hspace
        rw [applyAttribute_owned hupper hname hproperty howned] at h
        obtain ⟨p, resolved, kept, hp, hresolve, hkept, rfl⟩ := setAttached_ok h
        exact ⟨_, ⟨hid, owner, property, space, p, hname, hproperty, howned, rfl, hp, rfl, resolved,
          _, hresolve, hkept⟩, rfl⟩
  · rw [applyAttribute_undotted hupper hdot] at h
    cases h

/-- Attributes that are applied attach what those among them say that name attached properties. -/
theorem applyAll_attaches {attributes : List Attribute} (hid : element.value.object? = some id)
    (h : (b.applyAll element id attributes).perform s = (.ok (), t)) :
    ∃ new, t.attached = s.attached ++ new ∧ List.Forall₂ (b.Attaches element)
      (attributes.filter Attribute.isAttached) new := by
  induction attributes generalizing s with
  | nil =>
    cases h
    exact ⟨[], (List.append_nil _).symm, .nil⟩
  | cons a rest ih =>
    obtain ⟨_, u, hfirst, hrest⟩ := Reading.bind_eq_ok.mp h
    obtain ⟨new, hnew, hattaches⟩ := ih hrest
    by_cases hupper : a.isAttached = true
    · obtain ⟨v, hv, hlog⟩ := applyAttribute_attaches hupper hid hfirst
      rw [List.filter_cons_of_pos hupper]
      exact ⟨v :: new, by rw [hnew, hlog, List.append_assoc, List.singleton_append],
        .cons hv hattaches⟩
    · have hproperty : b.applyAttribute element id a = applyProperty b.context id a := if_neg hupper
      have hlog := Reading.KeepsLog.applyProperty b.context id a s
      rw [hproperty] at hfirst
      rw [hfirst] at hlog
      rw [List.filter_cons_of_neg hupper]
      exact ⟨new, hnew.trans (congrArg (· ++ new) hlog), hattaches⟩

theorem applyAttributes_attaches {attributes : List Attribute}
    (h : (b.applyAttributes element attributes).perform s = (.ok (), t)) :
    ∃ new, t.attached = s.attached ++ new ∧ List.Forall₂ (b.Attaches element)
      (attributes.filter Attribute.isAttached) new := by
  unfold applyAttributes at h
  split at h
  · rename_i hempty
    cases h
    rw [List.isEmpty_iff.mp hempty]
    exact ⟨[], (List.append_nil _).symm, .nil⟩
  · split at h
    · cases h
    · rename_i id hid
      exact applyAll_attaches hid h

end Builder

theorem mem_of_takeId {attributes own : List Attribute} {id : Option String}
    (h : takeId attributes = .ok (id, own)) {a : Attribute} (ha : a ∈ own) : a ∈ attributes := by
  induction attributes generalizing id own with
  | nil =>
    cases h
    exact ha
  | cons first rest ih =>
    rw [takeId] at h
    split at h
    · split at h
      · obtain ⟨⟨id', own'⟩, hrest, hboth⟩ := exists_of_map_ok h
        rw [← (Prod.mk.inj hboth).2] at ha
        exact List.mem_cons_of_mem _ (ih hrest ha)
      · cases h
    · obtain ⟨⟨id', own'⟩, hrest, hboth⟩ := exists_of_map_ok h
      rw [← (Prod.mk.inj hboth).2] at ha
      rcases List.mem_cons.mp ha with rfl | ha
      · exact List.mem_cons_self
      · exact List.mem_cons_of_mem _ (ih hrest ha)

/-- Where the name and the attributes of an element stand: its start tag is a token of the source, and
they are what the names in the tag stand for inside the start tags of the elements around. -/
def Element.Written (source : List Char) (element : Element) (attributes : List Attribute) : Prop :=
  ∃ before start after tag raw, (scan source).tokens = before ++ start :: after ∧
    start.token.start? = some tag ∧ element.location = Location.ofOffset source start.offset ∧
    tagAttributes tag = .ok raw ∧ (∃ tags, OpenTags tags before) ∧
    ∀ tags, OpenTags tags before → Resolves (tag :: tags) true (tagName tag) element.name ∧
      ∀ a ∈ attributes, ∃ w ∈ raw, a.Read (tag :: tags) w

/-- An element that waits to apply attributes, and these, are those of its start tag. -/
theorem Builder.Reached.written {r : Reader} {source : List Char} {location : Option String}
    {s t : Session} {taken : List Delivery} {b : Builder} {ahead : List Signal} {element : Element}
    {closing : Closing}
    (h : Builder.Reached Reader.read r source location s taken b t ahead) (he : element ∈ b.stack)
    (hclosing : element.closing? = some closing) :
    element.Written (Text.dropMark source) closing.attributes := by
  obtain ⟨attributes, own, hmem, htake, hown, -⟩ :=
    Visit.writes (v := ⟨none, r, location, source, s⟩) h he hclosing
  obtain ⟨before, start, after, tag, htokens, hstart, hplace, hopen, hnames⟩ :=
    names_of_opened (mem_signals_of_documentEvents hmem)
  obtain ⟨raw, hraw, hattributes⟩ := hnames.attributes
  refine ⟨before, start, after, tag, raw, htokens, hstart, hplace, hraw, ⟨_, hopen⟩, ?_⟩
  intro tags htags
  rw [htags.nest_eq] at hnames hattributes
  refine ⟨hnames.element, fun a ha => ?_⟩
  obtain ⟨n, hn, rfl⟩ := List.getElem_of_mem (mem_of_takeId htake (hown a ha))
  have hread := hattributes.get (by rw [hattributes.length_eq]; exact hn) hn
  exact ⟨_, (List.mem_filter.mp (List.getElem_mem _)).1, hread⟩

/-- When an element ends, each of its attributes that names an attached property sets it under a class
in the namespace that the qualifier of the attribute stands for at the start tag. Without a qualifier
it is the namespace of the element, and an error if there is none. A qualifier that stands for no
namespace is taken for none. -/
theorem attached_owned {r : Reader} {source : List Char} {location : Option String} {s t : Session}
    {taken : List Delivery} {b : Builder} {place : Location} {ahead : List Signal}
    (h : Builder.Reached Reader.read r source location s taken b t (.event (.closed place) :: ahead))
    {element : Element} {rest : List Element} {closing : Closing} (hstack : b.stack = element :: rest)
    (hclosing : element.closing? = some closing) :
    element.Written (Text.dropMark source) closing.attributes ∧
    b.step Reader.read (.closed place) = (do
      b.applyAttributes element closing.attributes
      ({ b with stack := rest }).settle element) ∧
    (∀ a ∈ closing.attributes, a.isAttached = true → ∀ id,
      ('.' ∉ a.name.localName.toList → b.applyAttribute element id a =
        .fail (.malformed (.attachedWithoutOwner a.name.display) element.location)) ∧
      ∀ owner property, a.name.localName = owner ++ "." ++ property → '.' ∉ property.toList →
        (∀ space, OwnerSpace element.name a.name space → b.applyAttribute element id a =
          b.setAttached (qualifiedName space owner) property id a.value) ∧
        (a.name.space = none → element.name.space = none → b.applyAttribute element id a =
          .fail (.malformed (.attachedWithoutNamespace a.name.display) element.location))) ∧
    ∀ u, (b.applyAttributes element closing.attributes).perform t = (.ok (), u) →
      ∃ new, u.attached = t.attached ++ new ∧ List.Forall₂ (b.Attaches element)
        (closing.attributes.filter Attribute.isAttached) new := by
  refine ⟨h.written (hstack ▸ List.mem_cons_self) hclosing, ?_, ?_, ?_⟩
  · have hclosed := Builder.closed_eq hstack hclosing place
    rw [Builder.applyAttributes_eq] at hclosed ⊢
    exact hclosed
  · intro a _ hupper id
    refine ⟨fun hdot => Builder.applyAttribute_undotted hupper hdot b element id,
      fun owner property hname hdot => ⟨fun space hspace => ?_, fun hspace haround => ?_⟩⟩
    · exact Builder.applyAttribute_owned hupper hname hdot hspace b id
    · exact Builder.applyAttribute_spaceless hupper hname hdot hspace haround b id
  · intro u hu
    exact Builder.applyAttributes_attaches hu

/-- An element with two attached properties: one has a qualifier, and the other has the namespace of
the element. -/
theorem attached_owned_of_two :
    let source := "<Foo xmlns='demo' xmlns:p='demo.ui' p:TablePane.columnSpan='2' Grid.row='1'/>"
    let r : Reader :=
      { Reader.plain with environment := { Reader.plain.environment with types := Demo.types } }
    let span : Attribute := ⟨⟨some "p", "TablePane.columnSpan", some "demo.ui"⟩, "2"⟩
    let row : Attribute := ⟨⟨none, "Grid.row", none⟩, "1"⟩
    ∃ taken b t place ahead element closing,
      Builder.Reached Reader.read r source.toList none .initial taken b t
        (.event (.closed place) :: ahead) ∧
      b.stack = [element] ∧ element.closing? = some closing ∧ closing.attributes = [span, row] ∧
      element.Written source.toList [span, row] ∧ ∀ id,
        b.applyAttribute element id span =
          b.setAttached "demo.ui.TablePane" "columnSpan" id "2" ∧
        b.applyAttribute element id row = b.setAttached "demo.Grid" "row" id "1" := by
  intro source r span row
  have hread : ((r.parse Reader.read source.toList none).perform .initial).1.toOption.isSome =
      true := by
    decide +kernel
  have hevents : documentEvents (Text.dropMark source.toList) =
      [.opened ⟨none, "Foo", some "demo"⟩ [span, row] ⟨1, 1⟩, .closed ⟨1, 1⟩] := by
    decide +kernel
  have hdrop : Text.dropMark source.toList = source.toList := by decide +kernel
  have htakeId : takeId [span, row] = .ok (none, [span, row]) := by decide +kernel
  have hspan : span.isAttached = true ∧ span.name.localName = "TablePane" ++ "." ++ "columnSpan" ∧
      '.' ∉ "columnSpan".toList ∧ qualifiedName "demo.ui" "TablePane" = "demo.ui.TablePane" := by
    decide +kernel
  have hrow : row.isAttached = true ∧ row.name.localName = "Grid" ++ "." ++ "row" ∧
      '.' ∉ "row".toList ∧ qualifiedName "demo" "Grid" = "demo.Grid" := by
    decide +kernel
  clear_value source r
  rcases hrun : (r.parse Reader.read source.toList none).perform .initial with ⟨e | d, u⟩
  · rw [hrun] at hread
    cases hread
  obtain ⟨taken, b, t, ahead, content, id, own, hreached, hstack, htake, hopens⟩ :=
    Builder.exists_ending hrun hevents
  cases htakeId.symm.trans htake
  obtain ⟨o, rfl⟩ : ∃ o, content = .created o ⟨none, [span, row]⟩ := by
    cases hopens with
    | object o plain => exact ⟨o, rfl⟩
    | composite o plain inside => cases inside
    | assignment plain inside bare => cases inside
    | inclusion source reader document control => cases control
    | script inline control => cases control
  obtain ⟨hwritten, -, hattached, -⟩ := attached_owned hreached hstack rfl
  rw [hdrop] at hwritten
  refine ⟨taken, b, t, _, ahead, _, _, hreached, hstack, rfl, rfl, hwritten, fun id => ⟨?_, ?_⟩⟩
  · have hset := ((hattached span (by simp) hspan.1 id).2 _ _ hspan.2.1 hspan.2.2.1).1 "demo.ui"
      (.qualified rfl)
    rwa [hspan.2.2.2] at hset
  · have hset := ((hattached row (by simp) hrow.1 id).2 _ _ hrow.2.1 hrow.2.2.1).1 "demo"
      (.plain rfl rfl rfl)
    rwa [hrow.2.2.2] at hset

/-- A qualifier that is not declared stands for no namespace, and yet the property that it qualifies
is set, under a class in the namespace of the element. -/
theorem undeclared_owner_taken_from_element :
    let source := "<Foo xmlns='demo' p:Grid.row='1'/>"
    let r : Reader :=
      { Reader.plain with environment := { Reader.plain.environment with types := Demo.types } }
    let read := (r.parse Reader.read source.toList none).perform .initial
    documentEvents source.toList =
      [.opened ⟨none, "Foo", some "demo"⟩ [⟨⟨some "p", "Grid.row", none⟩, "1"⟩] ⟨1, 1⟩,
        .closed ⟨1, 1⟩] ∧
    read.1.toOption.map Document.root = some (.object ⟨0⟩) ∧
    read.2.attached = [⟨⟨0⟩, "demo.Grid", "row", .int 1⟩] := by
  decide +kernel

end ObjectMarkup
