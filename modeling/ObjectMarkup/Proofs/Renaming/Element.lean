import ObjectMarkup.Proofs.Document.Steps
import ObjectMarkup.Proofs.Renaming.Reference

namespace ObjectMarkup

open Markup

variable {f : ObjectId → ObjectId}

def Content.mapRefs (f : ObjectId → ObjectId) : Content → Content
  | .created object closing => .created (f object) closing
  | .included root names closing => .included (root.mapRefs f) (names.mapRefs f) closing
  | .composite object closing => .composite (f object) closing
  | .assignment value => .assignment (value.mapRefs f)
  | .script inline => .script inline

namespace Element

def mapRefs (f : ObjectId → ObjectId) (e : Element) : Element :=
  { e with content := e.content.mapRefs f }

@[simp] theorem value_mapRefs (e : Element) : (e.mapRefs f).value = e.value.mapRefs f := by
  obtain ⟨name, location, content⟩ := e
  cases content <;> rfl

@[simp] theorem holder?_mapRefs (e : Element) : (e.mapRefs f).holder? = e.holder?.map f := by
  obtain ⟨name, location, content⟩ := e
  cases content with
  | included root names closing => exact root.object?_mapRefs
  | _ => rfl

end Element

namespace Correspondence

variable {c : Correspondence} {g g' : Guard} {excused : ReadError → Prop} {o : ObjectId}
  {v : Value} {e parent : Element} {rest rest' : List Element} {ctx ctx' : Context}
  {b b' : Builder} {A : Builder → Builder → Prop}

/-- What is known of the objects that an element refers to. Those that may be changed through it
were made after the start. -/
structure Known.Element (c : Correspondence) (e : Element) : Prop where
  value : ∀ o ∈ e.value.refs, c.Known o
  holder : e.holdsProperties = true → ∀ o ∈ e.value.refs, c.Own o
  names : ∀ names, e.names? = some names → ∀ o ∈ names.refs, c.Known o

open Reading (Follows)

theorem follows_applyProperty {a : Attribute} (ho : c.Own o)
    (hresolves : c.Resolves g g' excused ctx ctx' a.value) :
    Follows (c.Sessions g g') excused (fun _ _ => True) (Builder.applyProperty ctx o a)
      (Builder.applyProperty ctx' (c.rename o) a) := by
  unfold Builder.applyProperty
  refine .bind follows_heap fun h h' hh => ?_
  rw [hh.alike o ho]
  dsimp only
  rw [Object.access?_mapRefs]
  have hparts := hh.parts o ho a.name.localName
  unfold Object.part? at hparts
  cases haccess : (h.object o).access? with
  | none => exact .fail _
  | some access =>
    simp only [haccess, Option.bind_eq_bind, Option.bind_some] at hparts
    simp only [Option.map_some, Access.descriptor?_mapRefs, Access.get?_mapRefs,
      Value.bind_object?_mapRefs]
    have hassign : ∀ type, Follows (c.Sessions g g') excused (fun _ _ => True)
        (do
          let value ← .lift .reference (ctx.resolve a.value type)
          .put o a.name.localName value)
        (do
          let value ← .lift .reference (ctx'.resolve a.value type)
          .put (c.rename o) a.name.localName value) := by
      intro type
      refine .bind (.lift (hresolves.value type)) fun v v' hv => ?_
      rw [hv.2]
      exact follows_put ho hv.1
    cases hd : access.descriptor? a.name.localName with
    | none => exact hassign none
    | some d =>
      simp only [hd, Option.bind_some, Option.map_some] at hparts ⊢
      split
      · rename_i hkind
        rw [Option.some.injEq] at hkind
        cases hget : (access.get? a.name.localName).bind Value.object? with
        | none => exact .fail _
        | some list => exact hresolves.listeners _ _ (hparts list (by simp [hkind, hget]))
      · exact .fail _
      · exact hassign (some d.type)

theorem follows_attach (p : AttachedProperty) (owner : String) (hv : ∀ p ∈ v.refs, c.Known p) :
    Follows (c.Sessions g g') excused (fun _ _ => True)
      (do
        let s ← get
        let log ← .lift .property (p.set owner (s.heap.label v) o v s.attached)
        set { s with attached := log })
      (do
        let s ← get
        let log ← .lift .property
          (p.set owner (s.heap.label (v.mapRefs c.rename)) (c.rename o) (v.mapRefs c.rename)
            s.attached)
        set { s with attached := log }) := by
  intro s t hst
  obtain ⟨new, hleft, hright⟩ := hst.attached
  change Reading.Matches _ _ _
    ((do
      let log ← .lift .property (p.set owner (s.heap.label v) o v s.attached)
      set { s with attached := log } : Reading Unit).perform s)
    ((do
      let log ← .lift .property
        (p.set owner (t.heap.label (v.mapRefs c.rename)) (c.rename o) (v.mapRefs c.rename)
          t.attached)
      set { t with attached := log } : Reading Unit).perform t)
  rw [Reading.perform_bind, Reading.perform_bind, Reading.perform_lift, Reading.perform_lift,
    hst.heaps.label_eq hv, AttachedProperty.set_mapRefs]
  unfold AttachedProperty.set
  cases p.intake.accept p.descriptor.name (s.heap.label v) v with
  | error e => exact .error _ hst
  | ok kept =>
    refine .ok trivial ⟨hst.heaps, ?_, hst.guard, hst.guard'⟩
    refine ⟨new ++ [⟨o, owner, p.descriptor.name, kept⟩], ?_, ?_⟩
    · simp [hleft]
    · simp [hright]

theorem follows_applyAttached {a : Attribute} (hreader : b'.reader = b.reader)
    (hresolves : c.Resolves g g' excused b.context b'.context a.value) :
    Follows (c.Sessions g g') excused (fun _ _ => True) (b.applyAttached e o a)
      (b'.applyAttached (e.mapRefs c.rename) (c.rename o) a) := by
  unfold Builder.applyAttached
  rw [hreader]
  cases ownerAndProperty? a.name.localName with
  | none => exact .fail _
  | some parts =>
    obtain ⟨owner, property⟩ := parts
    simp only [Element.mapRefs]
    cases a.name.space.orElse fun _ => e.name.space with
    | none => exact .fail _
    | some space =>
      dsimp only
      cases b.reader.environment.types.attached? (qualifiedName space owner) property with
      | none => exact .fail _
      | some attached =>
        refine .bind (.lift (hresolves.value _)) fun v v' hv => ?_
        rw [hv.2]
        exact follows_attach attached _ hv.1

theorem follows_applyAll {attributes : List Attribute} (hreader : b'.reader = b.reader)
    (ho : c.Own o)
    (hresolves : ∀ a ∈ attributes, c.Resolves g g' excused b.context b'.context a.value) :
    Follows (c.Sessions g g') excused (fun _ _ => True) (b.applyAll e o attributes)
      (b'.applyAll (e.mapRefs c.rename) (c.rename o) attributes) := by
  induction attributes with
  | nil => exact .pure trivial
  | cons a rest ih =>
    refine .bind (A := fun _ _ => True) ?_ fun _ _ _ =>
      ih fun a ha => hresolves a (List.mem_cons_of_mem _ ha)
    have ha := hresolves a List.mem_cons_self
    unfold Builder.applyAttribute
    split
    · exact follows_applyAttached hreader ha
    · exact follows_applyProperty ho ha

theorem follows_applyAttributes {attributes : List Attribute} (hreader : b'.reader = b.reader)
    (he : ∀ o ∈ e.value.refs, c.Own o)
    (hresolves : ∀ a ∈ attributes, c.Resolves g g' excused b.context b'.context a.value) :
    Follows (c.Sessions g g') excused (fun _ _ => True) (b.applyAttributes e attributes)
      (b'.applyAttributes (e.mapRefs c.rename) attributes) := by
  unfold Builder.applyAttributes
  rw [Element.value_mapRefs, Value.object?_mapRefs]
  split
  · exact .pure trivial
  · cases ho : e.value.object? with
    | none => exact .fail _
    | some o => exact follows_applyAll hreader (he o (by simp [Value.refs, ho])) hresolves

theorem follows_joinObject {location : Location} (hparent : ∀ o ∈ parent.value.refs, c.Own o)
    (hv : ∀ o ∈ v.refs, c.Known o) :
    Follows (c.Sessions g g') excused (fun _ _ => True) (Builder.joinObject parent v location)
      (Builder.joinObject (parent.mapRefs c.rename) (v.mapRefs c.rename) location) := by
  unfold Builder.joinObject
  rw [Element.value_mapRefs, Value.object?_mapRefs]
  cases ho : parent.value.object? with
  | none => exact .fail _
  | some o =>
    have hown : c.Own o := hparent o (by simp [Value.refs, ho])
    refine .bind follows_heap fun h h' hh => ?_
    have hadd := hh.addItem hown hv
    revert hadd
    generalize h.addItem? o v = added
    generalize h'.addItem? (c.rename o) (v.mapRefs c.rename) = added'
    intro hadd
    cases hadd with
    | some hadded => exact .bind (.lift hadded) fun _ _ hh => follows_setHeap hh
    | none =>
      have htype := hh.typeName_eq (.inr hown)
      have hlabel := hh.label_eq hv
      simp only [hh.alike o hown]
      cases hls : (h.object o).listeners with
      | none =>
        simp only [Object.mapRefs, hls, Option.map_none, htype]
        exact .fail _
      | some ls =>
        simp only [Object.mapRefs, hls, Option.map_some]
        cases v with
        | object listener =>
          have hlistener := hh.addListener hown (hv listener (by simp [Value.refs, Value.object?]))
          revert hlistener
          simp only [Value.mapRefs]
          generalize h.addListener? o listener = added
          generalize h'.addListener? (c.rename o) (c.rename listener) = added'
          intro hlistener
          cases hlistener with
          | some hadded => exact follows_setHeap hadded
          | none => exact follows_setHeap hh
        | _ => exact .fail _

end Correspondence

end ObjectMarkup
