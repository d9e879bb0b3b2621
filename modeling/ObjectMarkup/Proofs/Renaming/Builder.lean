import ObjectMarkup.Proofs.Document.NameTimeline
import ObjectMarkup.Proofs.Renaming.Element

namespace ObjectMarkup

open Markup

/-- Opens the element of the object, if there is one, that a property holds in place. -/
def Builder.openPart (b : Builder) (name : QualifiedName) (closing : Closing) (location : Location)
    (typeName : String) : Option ObjectId → Reading Builder
  | some part => return b.push ⟨name, location, .composite part closing⟩
  | none => .fail (.malformed (.missingComposite name.localName typeName) location)

namespace Correspondence

variable {c : Correspondence} {g g' : Guard} {excused : ReadError → Prop} {o : ObjectId}
  {v : Value} {e parent : Element} {rest below : List Element} {b b' d d' : Builder}

/-- The open elements of one builder against those of the other. -/
structure Stacks (c : Correspondence) (below : List Element) (b b' : Builder) : Prop where
  reader : b'.reader = b.reader
  stack : b'.stack = b.stack.map (Element.mapRefs c.rename) ++ below
  elements : ∀ e ∈ b.stack, Known.Element c e
  enclosed : ∀ e rest, e :: rest <:+ b.stack → e.isProperty = true →
    (rest.head?.bind Element.holder?).isSome

structure Restacked (c : Correspondence) (below : List Element) (b b' d d' : Builder) : Prop where
  paired : c.Stacks below d d'
  left : d = { b with stack := d.stack }
  right : d' = { b' with stack := d'.stack }

theorem known_created {name : QualifiedName} {location : Location} {closing : Closing}
    (ho : c.Own o) : Known.Element c ⟨name, location, .created o closing⟩ where
  value := fun p hp => .inr (by rwa [List.mem_singleton.mp hp])
  holder := fun _ p hp => by rwa [List.mem_singleton.mp hp]
  names := by rintro _ ⟨⟩

theorem known_composite {name : QualifiedName} {location : Location} {closing : Closing}
    (ho : c.Own o) : Known.Element c ⟨name, location, .composite o closing⟩ where
  value := fun p hp => .inr (by rwa [List.mem_singleton.mp hp])
  holder := fun _ p hp => by rwa [List.mem_singleton.mp hp]
  names := by rintro _ ⟨⟩

theorem known_assignment {name : QualifiedName} {location : Location}
    (hv : ∀ o ∈ v.refs, c.Known o) : Known.Element c ⟨name, location, .assignment v⟩ where
  value := hv
  holder := by rintro ⟨⟩
  names := by rintro _ ⟨⟩

theorem known_script {name : QualifiedName} {location : Location} {inline : Option InlineScript} :
    Known.Element c ⟨name, location, .script inline⟩ where
  value := by rintro _ ⟨⟩
  holder := by rintro ⟨⟩
  names := by rintro _ ⟨⟩

namespace Stacks

theorem refl_restacked (hs : c.Stacks below b b') : c.Restacked below b b' b b' := ⟨hs, rfl, rfl⟩

theorem push (hs : c.Stacks below b b') (he : Known.Element c e)
    (hin : e.isProperty = true → (b.stack.head?.bind Element.holder?).isSome) :
    c.Restacked below b b' (b.push e) (b'.push (e.mapRefs c.rename)) where
  paired :=
    { reader := hs.reader
      stack := congrArg (e.mapRefs c.rename :: ·) hs.stack
      elements := List.forall_mem_cons.mpr ⟨he, hs.elements⟩
      enclosed := by
        intro el rest hel hp
        rcases List.suffix_cons_iff.mp hel with heq | hel
        · cases heq
          exact hin hp
        · exact hs.enclosed el rest hel hp }
  left := rfl
  right := rfl

theorem pop (hs : c.Stacks below b b') (hstack : b.stack = e :: rest) :
    c.Stacks below { b with stack := rest }
      { b' with stack := rest.map (Element.mapRefs c.rename) ++ below } where
  reader := hs.reader
  stack := rfl
  elements := fun el hel => hs.elements el (hstack ▸ List.mem_cons_of_mem _ hel)
  enclosed := fun el rest hel => hs.enclosed el rest (hstack ▸ hel.trans (List.suffix_cons ..))

theorem replace {new : Element} (hs : c.Stacks below b b') (hstack : b.stack = e :: rest)
    (hnew : Known.Element c new) (hp : new.isProperty = true → e.isProperty = true) :
    c.Restacked below b b' { b with stack := new :: rest }
      { b' with stack := new.mapRefs c.rename :: (rest.map (Element.mapRefs c.rename) ++ below) } := by
  have hpop := hs.pop hstack
  refine ⟨⟨hs.reader, rfl, ?_, ?_⟩, rfl, rfl⟩
  · exact List.forall_mem_cons.mpr ⟨hnew, hpop.elements⟩
  · intro el below hel hprop
    rcases List.suffix_cons_iff.mp hel with heq | hel
    · cases heq
      exact hs.enclosed e rest (hstack ▸ List.suffix_rfl) (hp hprop)
    · exact hpop.enclosed el below hel hprop

theorem cons (hs : c.Stacks below b b') (hstack : b.stack = e :: rest) :
    b'.stack = e.mapRefs c.rename :: (rest.map (Element.mapRefs c.rename) ++ below) := by
  rw [hs.stack, hstack]
  rfl

theorem holder (hs : c.Stacks below b b') (hb : b.stack ≠ [] ∨ below = []) :
    b'.stack.head?.bind Element.holder? = (b.stack.head?.bind Element.holder?).map c.rename := by
  rw [hs.stack]
  cases hstack : b.stack with
  | nil =>
    rcases hb with hb | hb
    · exact absurd hstack hb
    · subst hb
      rfl
  | cons e rest => exact e.holder?_mapRefs

theorem holder_own (hs : c.Stacks below b b')
    (ho : b.stack.head?.bind Element.holder? = some o) : c.Own o := by
  cases hstack : b.stack with
  | nil => simp [hstack] at ho
  | cons e rest =>
    have he := hs.elements e (by simp [hstack])
    simp only [hstack, List.head?_cons, Option.bind_some, Element.holder?] at ho
    split at ho
    · rename_i hholds
      exact he.holder hholds o (by simp [Value.refs, ho])
    · cases ho

end Stacks

open Reading (Follows)

theorem propertyKind?_mapRefs (f : ObjectId → ObjectId) (o : Object) (name : String) :
    Builder.propertyKind? (o.mapRefs f) name = Builder.propertyKind? o name := by
  unfold Builder.propertyKind?
  rw [Object.access?_mapRefs]
  cases o.access? <;> simp

theorem get?_mapRefs (f : ObjectId → ObjectId) (o : Object) (name : String) :
    (((o.mapRefs f).access?.bind fun a => a.get? name).bind Value.object?) =
      ((o.access?.bind fun a => a.get? name).bind Value.object?).map f := by
  rw [Object.access?_mapRefs]
  cases o.access? <;> simp

theorem part?_of_kind {o : Object} {name : String} {part : ObjectId}
    (hkind : Builder.propertyKind? o name = some .composite ∨
      Builder.propertyKind? o name = some .listenerList)
    (hget : (o.access?.bind fun a => a.get? name).bind Value.object? = some part) :
    o.part? name = some part := by
  unfold Builder.propertyKind? at hkind
  unfold Object.part?
  cases haccess : o.access? with
  | none => simp [haccess] at hget
  | some access =>
    simp only [haccess, Option.bind_some] at hkind hget
    cases hd : access.descriptor? name with
    | none => simp [hd] at hkind
    | some d =>
      simp only [hd, Option.map_some, Option.some.injEq] at hkind
      simp [hd, hkind, hget]

theorem follows_openObject {name : QualifiedName} {closing : Closing} {location : Location}
    (hs : c.Stacks below b b') :
    Follows (c.Sessions g g') excused (c.Restacked below b b') (b.openObject name closing location)
      (b'.openObject name closing location) := by
  unfold Builder.openObject
  rw [hs.reader]
  cases name.space with
  | none => exact .fail _
  | some space =>
    refine .bind (.lift_self _) fun blueprint blueprint' hb => ?_
    obtain ⟨-, rfl⟩ := hb
    refine .bind (follows_build blueprint) fun o o' ho => ?_
    obtain ⟨hown, rfl⟩ := ho
    exact .pure (hs.push (known_created hown) (by rintro ⟨⟩))

theorem follows_openPart {name : QualifiedName} {closing : Closing} {location : Location}
    {typeName : String} {part : Option ObjectId} (hs : c.Stacks below b b')
    (hin : (b.stack.head?.bind Element.holder?).isSome) (hpart : ∀ o, part = some o → c.Own o) :
    Follows (c.Sessions g g') excused (c.Restacked below b b')
      (b.openPart name closing location typeName part)
      (b'.openPart name closing location typeName (part.map c.rename)) := by
  cases part with
  | none => exact .fail _
  | some o => exact .pure (hs.push (known_composite (hpart o rfl)) fun _ => hin)

theorem follows_openProperty {name : QualifiedName} {closing : Closing} {location : Location}
    (hs : c.Stacks below b b') (hb : b.stack ≠ [] ∨ below = []) :
    Follows (c.Sessions g g') excused (c.Restacked below b b')
      (b.openProperty name closing location) (b'.openProperty name closing location) := by
  unfold Builder.openProperty
  rw [hs.holder hb]
  cases hholder : b.stack.head?.bind Element.holder? with
  | none => exact .fail _
  | some o =>
    have hown := hs.holder_own hholder
    have hin : (b.stack.head?.bind Element.holder?).isSome := by simp [hholder]
    refine .bind follows_heap fun h h' hh => ?_
    simp only [hh.alike o hown, propertyKind?_mapRefs, get?_mapRefs, Object.typeName_mapRefs]
    have hparts := fun part => hh.parts o hown name.localName part
    have hplain : Follows (c.Sessions g g') excused (c.Restacked below b b')
        (if closing.id.isSome || !closing.attributes.isEmpty then
          .fail (.malformed (.attributesOnAssignment name.display) location)
        else return b.push ⟨name, location, .assignment .null⟩)
        (if closing.id.isSome || !closing.attributes.isEmpty then
          .fail (.malformed (.attributesOnAssignment name.display) location)
        else return b'.push ⟨name, location, .assignment .null⟩) := by
      split
      · exact .fail _
      · exact .pure (hs.push (known_assignment (by rintro _ ⟨⟩)) fun _ => hin)
    have hinPlace : (∀ part, ((h.object o).access?.bind fun a => a.get? name.localName).bind
          Value.object? = some part → (h.object o).part? name.localName = some part) →
        Follows (c.Sessions g g') excused (c.Restacked below b b')
          (b.openPart name closing location (h.object o).typeName
            (((h.object o).access?.bind fun a => a.get? name.localName).bind Value.object?))
          (b'.openPart name closing location (h.object o).typeName
            ((((h.object o).access?.bind fun a => a.get? name.localName).bind
              Value.object?).map c.rename)) :=
      fun hpart => follows_openPart hs hin fun part hget => hparts part (hpart part hget)
    have hpart : ∀ part, Builder.propertyKind? (h.object o) name.localName = some .composite ∨
          Builder.propertyKind? (h.object o) name.localName = some .listenerList →
        ((h.object o).access?.bind fun a => a.get? name.localName).bind Value.object? = some part →
        (h.object o).part? name.localName = some part :=
      fun part => part?_of_kind
    revert hpart
    generalize Builder.propertyKind? (h.object o) name.localName = kind
    intro hpart
    rcases kind with _ | (_ | _ | _ | _)
    · exact hplain
    · exact hplain
    · exact hinPlace fun part => hpart part (.inl rfl)
    · exact hinPlace fun part => hpart part (.inr rfl)
    · exact hplain

theorem follows_text {content : String} (hs : c.Stacks below b b')
    (hb : b.stack ≠ [] ∨ below = []) :
    Follows (c.Sessions g g') excused (c.Restacked below b b') (b.text content)
      (b'.text content) := by
  unfold Builder.text
  cases hstack : b.stack with
  | nil =>
    have hbelow : below = [] := hb.resolve_left fun hne => hne hstack
    have hstack' : b'.stack = [] := by simp [hs.stack, hstack, hbelow]
    rw [hstack']
    exact .pure hs.refl_restacked
  | cons e rest =>
    rw [hs.cons hstack]
    have he := hs.elements e (by simp [hstack])
    obtain ⟨name, location, what⟩ := e
    cases what with
    | script inline => exact .pure (hs.replace hstack known_script (by rintro ⟨⟩))
    | assignment v =>
      simp only [Element.mapRefs, Content.mapRefs]
      split
      · exact .pure hs.refl_restacked
      · exact .pure (hs.replace hstack (known_assignment (by rintro _ ⟨⟩)) fun h => h)
    | created o closing =>
      simp only [Element.mapRefs, Content.mapRefs]
      split
      · exact .pure hs.refl_restacked
      · have hown : c.Own o := he.holder rfl o (List.mem_singleton.mpr rfl)
        refine .bind follows_heap fun h h' hh => ?_
        have hadd := hh.addItem (v := .string content) hown (by rintro _ ⟨⟩)
        simp only [Value.mapRefs] at hadd
        revert hadd
        generalize h.addItem? o (.string content) = added
        generalize h'.addItem? (c.rename o) (.string content) = added'
        intro hadd
        cases hadd with
        | some hadded =>
          exact .bind (.lift hadded) fun _ _ hh =>
            .bind (follows_setHeap hh) fun _ _ _ => .pure hs.refl_restacked
        | none => exact .pure hs.refl_restacked
    | included root names closing => exact .pure hs.refl_restacked
    | composite o closing => exact .pure hs.refl_restacked

theorem follows_join {location : Location} (hs : c.Stacks below b b')
    (hb : b.stack ≠ [] ∨ below = []) (hv : ∀ o ∈ v.refs, c.Known o) :
    Follows (c.Sessions g g') excused (c.Restacked below b b') (b.join v location)
      (b'.join (v.mapRefs c.rename) location) := by
  unfold Builder.join
  cases hstack : b.stack with
  | nil =>
    have hbelow : below = [] := hb.resolve_left fun hne => hne hstack
    have hstack' : b'.stack = [] := by simp [hs.stack, hstack, hbelow]
    rw [hstack']
    exact .pure hs.refl_restacked
  | cons parent rest =>
    rw [hs.cons hstack]
    have hparent := hs.elements parent (by simp [hstack])
    have hgiven : (∀ o ∈ parent.value.refs, c.Own o) →
        Follows (c.Sessions g g') excused (c.Restacked below b b')
          (do
            Builder.joinObject parent v location
            return b)
          (do
            Builder.joinObject (parent.mapRefs c.rename) (v.mapRefs c.rename) location
            return b') :=
      fun hown => .bind (follows_joinObject hown hv) fun _ _ _ => .pure hs.refl_restacked
    obtain ⟨name, place, what⟩ := parent
    cases what with
    | script inline => exact .fail _
    | assignment old => exact .pure (hs.replace hstack (known_assignment hv) fun h => h)
    | created o closing => exact hgiven (hparent.holder rfl)
    | included root names closing => exact hgiven (hparent.holder rfl)
    | composite o closing => exact hgiven (hparent.holder rfl)

theorem follows_closeAssignment (hs : c.Stacks below b b') (hb : b.stack ≠ [] ∨ below = [])
    (hin : (b.stack.head?.bind Element.holder?).isSome) (hv : ∀ o ∈ v.refs, c.Known o) :
    Follows (c.Sessions g g') excused (c.Restacked below b b') (b.closeAssignment e v)
      (b'.closeAssignment (e.mapRefs c.rename) (v.mapRefs c.rename)) := by
  obtain ⟨o, ho⟩ := Option.isSome_iff_exists.mp hin
  have hown := hs.holder_own ho
  have hholder' := hs.holder hb
  have hvalue : ∀ (stack : List Element) (o : ObjectId),
      stack.head?.bind Element.holder? = some o →
      (stack.head?.bind fun parent => parent.value.object?) = some o := by
    intro stack o ho
    cases stack with
    | nil => cases ho
    | cons parent rest =>
      simp only [List.head?_cons, Option.bind_some, Element.holder?] at ho ⊢
      split at ho
      · exact ho
      · cases ho
  rw [ho, Option.map_some] at hholder'
  unfold Builder.closeAssignment
  rw [hvalue _ _ ho, hvalue _ _ hholder']
  refine .bind follows_heap fun h h' hh => ?_
  simp only [hh.alike o hown, Object.access?_mapRefs, Object.typeName_mapRefs]
  cases haccess : (h.object o).access? with
  | none => exact .fail _
  | some access =>
    simp only [Option.map_some, Access.descriptor?_mapRefs, Element.mapRefs]
    cases access.descriptor? e.name.localName with
    | none => exact .bind (follows_put hown hv) fun _ _ _ => .pure hs.refl_restacked
    | some d =>
      dsimp only
      split
      · exact .fail _
      · have hkept : ∀ w, w.object? = none → Follows (c.Sessions g g') excused
            (c.Restacked below b b')
            (do
              .put o e.name.localName w
              return b)
            (do
              .put (c.rename o) e.name.localName w
              return b') := by
          intro w hw
          obtain ⟨hrefs, hsame⟩ := values_of_object? (c := c) hw
          have hput : Follows (c.Sessions g g') excused (fun _ _ => True)
              (.put o e.name.localName w) (.put (c.rename o) e.name.localName w) := by
            conv => arg 5; rw [hsame]
            exact follows_put hown hrefs
          exact .bind hput fun _ _ _ => .pure hs.refl_restacked
        cases v with
        | string text => exact hkept _ (object?_coerce text d.type)
        | object p => exact .bind (follows_put hown hv) fun _ _ _ => .pure hs.refl_restacked
        | _ => exact hkept _ rfl

/-- What two builders come to when an element with value `v` has ended, which was taken away from
`b` and its counterpart from `b'`. -/
structure Settled (c : Correspondence) (N : Registry → Registry → Prop) (below : List Element)
    (v : Value) (b b' d d' : Builder) : Prop where
  paired : c.Stacks below d d'
  names : N d.names d'.names
  location : d.location = b.location
  location' : d'.location = b'.location
  root : d.root = if b.stack.isEmpty then some v else b.root
  root' : d'.root = if b.stack.isEmpty then some (v.mapRefs c.rename) else b'.root

variable {N : Registry → Registry → Prop}

theorem Stacks.isEmpty_eq (hs : c.Stacks below b b') (hb : b.stack ≠ [] ∨ below = []) :
    b'.stack.isEmpty = b.stack.isEmpty := by
  rw [hs.stack]
  cases hstack : b.stack with
  | nil => simp [hb.resolve_left fun hne => hne hstack]
  | cons e rest => rfl

theorem Stacks.names (hs : c.Stacks below b b') (names names' : Registry) :
    c.Stacks below { b with names } { b' with names := names' } :=
  ⟨hs.reader, hs.stack, hs.elements, hs.enclosed⟩

theorem Stacks.root (hs : c.Stacks below b b') (root root' : Option Value) :
    c.Stacks below { b with root } { b' with root := root' } :=
  ⟨hs.reader, hs.stack, hs.elements, hs.enclosed⟩

theorem settled_rooted (hs : c.Stacks below b b') (hb : b.stack ≠ [] ∨ below = [])
    (hN : N b.names b'.names) :
    c.Settled N below v b b' (b.rooted v) (b'.rooted (v.mapRefs c.rename)) := by
  rw [Builder.rooted_eq, Builder.rooted_eq, hs.isEmpty_eq hb]
  exact ⟨hs.root _ _, hN, rfl, rfl, rfl, rfl⟩

/-- What only changes the stack before the root is noted does not change what is settled. -/
theorem Settled.of_restacked (hr : c.Restacked below b b' d d') (hb : b.stack ≠ [] ∨ below = [])
    (hempty : d.stack.isEmpty = b.stack.isEmpty) (hN : N b.names b'.names) :
    c.Settled N below v b b' (d.rooted v) (d'.rooted (v.mapRefs c.rename)) := by
  have hd : d.stack ≠ [] ∨ below = [] := by
    refine hb.imp_left fun hne => ?_
    rw [Ne, ← List.isEmpty_iff, hempty, List.isEmpty_iff]
    exact hne
  have hN' : N d.names d'.names := by
    rw [hr.left, hr.right]
    exact hN
  have hsettled := settled_rooted (v := v) hr.paired hd hN'
  refine ⟨hsettled.paired, hsettled.names, ?_, ?_, ?_, ?_⟩
  · rw [hsettled.location, hr.left]
  · rw [hsettled.location', hr.right]
  · rw [hsettled.root, hempty, hr.left]
  · rw [hsettled.root', hempty, hr.right]

/-- A value whose name has been bound is handed on, and noted as the root if nothing is open. -/
theorem follows_bound {id : Option String} {inner inner' : Option Registry} {location : Location}
    (hs : c.Stacks below b b') (hb : b.stack ≠ [] ∨ below = []) (hv : ∀ o ∈ v.refs, c.Known o)
    (hN : N (b.bindName id v inner).names (b'.bindName id (v.mapRefs c.rename) inner').names) :
    Follows (c.Sessions g g') excused (c.Settled N below v b b')
      (do return (← (b.bindName id v inner).join v location).rooted v)
      (do return (← (b'.bindName id (v.mapRefs c.rename) inner').join (v.mapRefs c.rename)
        location).rooted (v.mapRefs c.rename)) := by
  rw [Builder.bindName_eq b, Builder.bindName_eq b']
  have hbound := hs.names (b.bindName id v inner).names
    (b'.bindName id (v.mapRefs c.rename) inner').names
  refine ((follows_join hbound hb hv).also
    (P := fun d => d.stack.isEmpty = b.stack.isEmpty) ?_).bind ?_
  · intro s d t hd
    obtain ⟨stack, hr, rfl⟩ := Builder.join_ok hd
    exact hr.isEmpty_eq
  · intro d d' hd
    obtain ⟨hr, hempty⟩ := hd
    have h := Settled.of_restacked (v := v) (N := N) hr hb hempty hN
    exact .pure ⟨h.paired, h.names, h.location, h.location', h.root, h.root'⟩

/-- An element ends alike on both sides if the texts of its attributes stand for counterparts, its
name is bound alike, and its script runs alike. -/
theorem follows_closed {place : Location} (hs : c.Stacks below b b') (hstack : b.stack = e :: rest)
    (hb : rest ≠ [] ∨ below = [])
    (hresolves : ∀ a ∈ e.pending, c.Resolves g g' excused b.context b'.context a.value)
    (hN : N (e.bind b.names) ((e.mapRefs c.rename).bind b'.names))
    (hscript : ∀ script, e.inline? = some script →
      Follows (c.Sessions g g') excused
        (fun d d' => d = { b with names := d.names, stack := rest } ∧
          d' = { b' with
            names := d'.names, stack := rest.map (Element.mapRefs c.rename) ++ below } ∧
          N d.names d'.names)
        (({ b with stack := rest }).runScript script.language script.body)
        (({ b' with stack := rest.map (Element.mapRefs c.rename) ++ below }).runScript
          script.language script.body)) :
    Follows (c.Sessions g g') excused
      (c.Settled N below e.value { b with stack := rest }
        { b' with stack := rest.map (Element.mapRefs c.rename) ++ below })
      (b.closed place) (b'.closed place) := by
  have hpop := hs.pop hstack
  have he := hs.elements e (by simp [hstack])
  have hin := hs.enclosed e rest (hstack ▸ List.suffix_rfl)
  unfold Builder.closed
  rw [hstack, hs.cons hstack]
  obtain ⟨name, location, what⟩ := e
  cases what with
  | assignment v =>
    have hinside := hin rfl
    have hne : rest ≠ [] := by
      rintro rfl
      cases hinside
    have hassign : Follows (c.Sessions g g') excused _ _ _ :=
      follows_closeAssignment (e := ⟨name, location, .assignment v⟩) hpop hb hinside he.value
    refine (hassign.also (P := fun d => d = { b with stack := rest }) ?_).mono ?_
    · exact fun s d t hd => (Builder.closeAssignment_ok hd).1
    · intro d d' hd
      obtain ⟨hr, rfl⟩ := hd
      have hempty : rest.isEmpty = false := by simpa using hne
      refine ⟨hr.paired, ?_, rfl, ?_, by simp [hempty], ?_⟩
      · rw [hr.right]
        exact hN
      · rw [hr.right]
      · rw [hr.right]
        simp [hempty]
  | script inline =>
    cases inline with
    | none => exact .pure (settled_rooted hpop hb hN)
    | some script =>
      refine (hscript script rfl).bind fun d d' hd => .pure ?_
      obtain ⟨hd, hd', hN⟩ := hd
      generalize d.names = names at hd hN
      generalize d'.names = names' at hd' hN
      subst hd hd'
      have h := settled_rooted (v := .null) (hpop.names names names') hb hN
      exact ⟨h.paired, h.names, h.location, h.location', h.root, h.root'⟩
  | created o closing =>
    obtain ⟨id, attributes⟩ := closing
    refine .bind (follows_applyAttributes (e := ⟨name, location, .created o ⟨id, attributes⟩⟩)
      hpop.reader (he.holder rfl) hresolves) fun _ _ _ => ?_
    refine follows_bound hpop hb he.value ?_
    cases id <;> exact hN
  | included root names closing =>
    obtain ⟨id, attributes⟩ := closing
    refine .bind (follows_applyAttributes
      (e := ⟨name, location, .included root names ⟨id, attributes⟩⟩)
      hpop.reader (he.holder rfl) hresolves) fun _ _ _ => ?_
    refine follows_bound hpop hb he.value ?_
    cases id <;> exact hN
  | composite o closing =>
    obtain ⟨id, attributes⟩ := closing
    refine .bind (follows_applyAttributes (e := ⟨name, location, .composite o ⟨id, attributes⟩⟩)
      hpop.reader (he.holder rfl) hresolves) fun _ _ _ => .pure ?_
    cases id with
    | none => exact settled_rooted hpop hb hN
    | some id =>
      have h := settled_rooted (v := .object o) (hpop.names (b.names.put id (.object o))
        (b'.names.put id (.object (c.rename o)))) hb hN
      exact ⟨h.paired, h.names, h.location, h.location', h.root, h.root'⟩

end Correspondence

end ObjectMarkup
