import Mathlib.Data.List.Forall2
import ObjectMarkup.Proofs.Document.Stepwise
import ObjectMarkup.Proofs.Document.Take
import ObjectMarkup.Proofs.Spelling.Echo

namespace ObjectMarkup

open Markup

variable {ρ : String → String}

/-- A renaming of qualifiers that turns no other one into the control qualifier. -/
def KeepsControl (ρ : String → String) : Prop :=
  ∀ x, ρ x = controlQualifier ↔ x = controlQualifier

theorem keepsControl_id : KeepsControl id := fun _ => Iff.rfl

namespace Markup

theorem QualifiedName.isIn_requalify (hρ : KeepsControl ρ) (n : QualifiedName) :
    (n.requalify ρ).isIn controlQualifier = n.isIn controlQualifier := by
  obtain ⟨qualifier, localName, space⟩ := n
  cases qualifier with
  | none => rfl
  | some x => simp [isIn, requalify, hρ x]

@[simp] theorem QualifiedName.localName_requalify (n : QualifiedName) :
    (n.requalify ρ).localName = n.localName := rfl

@[simp] theorem QualifiedName.space_requalify (n : QualifiedName) :
    (n.requalify ρ).space = n.space := rfl

@[simp] theorem Attribute.isPlain_requalify (a : Attribute) (name : String) :
    (a.requalify ρ).isPlain name = a.isPlain name := by
  obtain ⟨⟨qualifier, localName, space⟩, value⟩ := a
  cases qualifier <;> rfl

end Markup

def Closing.requalify (ρ : String → String) (c : Closing) : Closing :=
  { c with attributes := c.attributes.map (Attribute.requalify ρ) }

def Content.requalify (ρ : String → String) : Content → Content
  | .created o closing => .created o (closing.requalify ρ)
  | .included root names closing => .included root names (closing.requalify ρ)
  | .composite o closing => .composite o (closing.requalify ρ)
  | .assignment v => .assignment v
  | .script inline => .script inline

/-- The element with another qualifier, perhaps at another place. -/
inductive Element.Alike (ρ : String → String) : Element → Element → Prop
  | intro (name : QualifiedName) (place place' : Location) (content : Content) :
      Alike ρ ⟨name, place, content⟩ ⟨name.requalify ρ, place', content.requalify ρ⟩

namespace Element.Alike

variable {e e' : Element}

theorem value (h : e.Alike ρ e') : e'.value = e.value := by
  obtain ⟨name, place, place', content⟩ := h
  cases content <;> rfl

theorem holder? (h : e.Alike ρ e') : e'.holder? = e.holder? := by
  obtain ⟨name, place, place', content⟩ := h
  cases content <;> rfl

theorem displays (h : e.Alike ρ e') : Displays ρ e.name.display e'.name.display := by
  obtain ⟨name, place, place', content⟩ := h
  exact .intro name

end Element.Alike

/-- The document in the making, with other qualifiers and its elements perhaps at other places. -/
inductive Builder.Alike (ρ : String → String) : Builder → Builder → Prop
  | intro (reader : Reader) (location : Option String) (names : Registry) (root : Option Value)
      {stack stack' : List Element} (elements : List.Forall₂ (Element.Alike ρ) stack stack') :
      Alike ρ ⟨reader, location, names, stack, root⟩ ⟨reader, location, names, stack', root⟩

theorem takeId_requalify (hρ : KeepsControl ρ) (attributes : List Attribute) :
    Accord (StructureFault.Alike ρ)
      (fun p p' => p' = (p.1, p.2.map (Attribute.requalify ρ)))
      (takeId attributes) (takeId (attributes.map (Attribute.requalify ρ))) := by
  induction attributes with
  | nil => exact .ok rfl
  | cons a rest ih =>
    simp only [List.map_cons, takeId]
    generalize takeId rest = taken at ih
    generalize takeId (rest.map (Attribute.requalify ρ)) = taken' at ih
    have hcontrol : (a.requalify ρ).name.isIn controlQualifier = a.name.isIn controlQualifier :=
      a.name.isIn_requalify hρ
    rw [hcontrol]
    split
    · change Accord _ _ _ (if a.name.localName = "id" then _ else _)
      split
      · cases ih with
        | ok related =>
          rw [related]
          exact .ok rfl
        | error related => exact .error related
      · exact .error (.unknownControlAttribute (.intro a.name))
    · cases ih with
      | ok related =>
        rw [related]
        exact .ok rfl
      | error related => exact .error related

theorem plainValue?_requalify (attributes : List Attribute) (name : String) :
    plainValue? (attributes.map (Attribute.requalify ρ)) name = plainValue? attributes name := by
  unfold plainValue?
  rw [List.filter_map]
  simp only [Function.comp_def, Attribute.isPlain_requalify, List.getLast?_map, Option.map_map]
  rfl

namespace Builder

open Reading (Echoes)

variable {b b' : Builder} {e e' parent parent' : Element}

namespace Alike

theorem start (r : Reader) (location : Option String) : Alike ρ (start r location)
    (start r location) :=
  .intro r location .empty none .nil

theorem reader (h : b.Alike ρ b') : b'.reader = b.reader := by
  cases h
  rfl

theorem location (h : b.Alike ρ b') : b'.location = b.location := by
  cases h
  rfl

theorem names (h : b.Alike ρ b') : b'.names = b.names := by
  cases h
  rfl

theorem root (h : b.Alike ρ b') : b'.root = b.root := by
  cases h
  rfl

theorem context (h : b.Alike ρ b') : b'.context = b.context := by
  cases h
  rfl

theorem renamed (h : b.Alike ρ b') (names : Registry) :
    Alike ρ { b with names } { b' with names } := by
  obtain ⟨reader, location, _, root, elements⟩ := h
  exact .intro reader location names root elements

theorem push (h : b.Alike ρ b') (he : e.Alike ρ e') : Alike ρ (b.push e) (b'.push e') := by
  obtain ⟨reader, location, names, root, elements⟩ := h
  exact .intro reader location names root (.cons he elements)

theorem rooted (h : b.Alike ρ b') (v : Value) : Alike ρ (b.rooted v) (b'.rooted v) := by
  obtain ⟨reader, location, names, root, elements⟩ := h
  cases elements with
  | nil => exact .intro reader location names (some v) .nil
  | cons he hrest => exact .intro reader location names root (.cons he hrest)

theorem bindName (h : b.Alike ρ b') (id : Option String) (v : Value) (inner : Option Registry) :
    Alike ρ (b.bindName id v inner) (b'.bindName id v inner) := by
  unfold Builder.bindName
  rw [h.names]
  cases id with
  | none => exact h
  | some id =>
    cases inner with
    | none => exact h.renamed _
    | some inner => exact h.renamed _

/-- The object whose properties may be written inside the innermost element is the same. -/
theorem holder (h : b.Alike ρ b') :
    b'.stack.head?.bind Element.holder? = b.stack.head?.bind Element.holder? := by
  obtain ⟨reader, location, names, root, elements⟩ := h
  cases elements with
  | nil => rfl
  | cons he _ => exact he.holder?

/-- The innermost element stands for the same object. -/
theorem innermost (h : b.Alike ρ b') : (b'.stack.head?.bind fun parent => parent.value.object?) =
    b.stack.head?.bind fun parent => parent.value.object? := by
  obtain ⟨reader, location, names, root, elements⟩ := h
  cases elements with
  | nil => rfl
  | cons he _ => exact congrArg Value.object? he.value

end Alike

theorem echoes_applyAttached (h : b.Alike ρ b') (he : e.Alike ρ e') (o : ObjectId) (a : Attribute) :
    Echoes ρ Eq (b.applyAttached e o a) (b'.applyAttached e' o (a.requalify ρ)) := by
  obtain ⟨name, place, place', content⟩ := he
  unfold applyAttached
  rw [h.context, h.reader]
  dsimp only [Attribute.requalify, QualifiedName.requalify]
  cases ownerAndProperty? a.name.localName with
  | none => exact .refuse (.attachedWithoutOwner (.intro a.name))
  | some p =>
    cases a.name.space.orElse fun _ => name.space with
    | none => exact .refuse (.attachedWithoutNamespace (.intro a.name))
    | some space => exact .same _

theorem echoes_applyAll (h : b.Alike ρ b') (he : e.Alike ρ e') (o : ObjectId)
    (attributes : List Attribute) :
    Echoes ρ Eq (b.applyAll e o attributes)
      (b'.applyAll e' o (attributes.map (Attribute.requalify ρ))) := by
  induction attributes with
  | nil => exact .same _
  | cons a rest ih =>
    refine .bind (A := Eq) ?_ fun _ _ _ => ih
    unfold applyAttribute
    change Echoes ρ Eq _ (if Unicode.startsUppercase a.name.localName = true then _ else _)
    split
    · exact echoes_applyAttached h he o a
    · rw [h.context]
      exact .same (applyProperty b.context o a)

theorem echoes_applyAttributes (h : b.Alike ρ b') (he : e.Alike ρ e')
    (attributes : List Attribute) :
    Echoes ρ Eq (b.applyAttributes e attributes)
      (b'.applyAttributes e' (attributes.map (Attribute.requalify ρ))) := by
  unfold applyAttributes
  rw [List.isEmpty_map, he.value]
  split
  · exact .same _
  · cases e.value.object? with
    | none => exact .refuse (.attributesOfNull he.displays)
    | some o => exact echoes_applyAll h he o attributes

theorem echoes_joinObject (he : parent.Alike ρ parent') (v : Value) (place place' : Location) :
    Echoes ρ Eq (joinObject parent v place) (joinObject parent' v place') := by
  unfold joinObject
  rw [he.value]
  cases parent.value.object? with
  | none => exact .refuse (.childOfNull he.displays)
  | some o =>
    refine .bind_same _ fun heap => ?_
    cases heap.addItem? o v with
    | some added => exact .same _
    | none =>
      cases (heap.object o).listeners with
      | none => exact .refuse (.same _)
      | some list =>
        cases v with
        | object listener => exact .same _
        | _ => exact .fail (.notAListener he.displays _)

theorem echoes_join (h : b.Alike ρ b') (v : Value) (place place' : Location) :
    Echoes ρ (Alike ρ) (b.join v place) (b'.join v place') := by
  obtain ⟨reader, location, names, root, elements⟩ := h
  cases elements with
  | nil => exact .pure (.intro reader location names root .nil)
  | @cons parent parent' rest rest' hparent hrest =>
    have hjoined := (echoes_joinObject hparent v place place').bind
      fun _ _ _ => .pure (Alike.intro reader location names root (.cons hparent hrest))
    obtain ⟨name, start, start', content⟩ := hparent
    cases content with
    | assignment old =>
      exact .pure (.intro reader location names root (.cons (.intro name start start' _) hrest))
    | script inline => exact .refuse (.same _)
    | created o closing => exact hjoined
    | included root names closing => exact hjoined
    | composite o closing => exact hjoined

theorem echoes_closeAssignment (h : b.Alike ρ b') (he : e.Alike ρ e') (v : Value) :
    Echoes ρ (Alike ρ) (b.closeAssignment e v) (b'.closeAssignment e' v) := by
  have hput : ∀ (o : ObjectId) (name : String) (v : Value), Echoes ρ (Alike ρ)
      (do
        Reading.put o name v
        return b)
      (do
        Reading.put o name v
        return b') :=
    fun o name v => .bind_same _ fun _ => .pure h
  obtain ⟨name, place, place', content⟩ := he
  unfold closeAssignment
  rw [h.innermost]
  cases b.stack.head?.bind fun parent => parent.value.object? with
  | none => exact .refuse (.noEnclosingObject (.intro name))
  | some o =>
    refine .bind_same _ fun heap => ?_
    simp only [QualifiedName.localName_requalify]
    cases (heap.object o).access? with
    | none => exact .fail (.same _)
    | some access =>
      dsimp only
      cases access.descriptor? name.localName with
      | none => exact hput _ _ _
      | some d =>
        dsimp only
        split
        · exact .fail (.same _)
        · exact hput _ _ _

theorem echoes_runScript (h : b.Alike ρ b') (key body : String) :
    Echoes ρ (Alike ρ) (b.runScript key body) (b'.runScript key body) := by
  obtain ⟨reader, location, names, root, elements⟩ := h
  unfold runScript
  dsimp only
  cases reader.environment.engines.find? key with
  | none => exact .fail (.same _)
  | some engine =>
    exact .bind_same _ fun names => .pure (.intro reader location names root elements)

theorem echoes_closed (h : b.Alike ρ b') (place place' : Location) :
    Echoes ρ (Alike ρ) (b.closed place) (b'.closed place') := by
  obtain ⟨reader, location, names, root, elements⟩ := h
  cases elements with
  | nil => exact .refuse (.same _)
  | @cons e e' rest rest' he hrest =>
    have hpop : Alike ρ ⟨reader, location, names, rest, root⟩
        ⟨reader, location, names, rest', root⟩ :=
      .intro reader location names root hrest
    obtain ⟨name, start, start', content⟩ := he
    have he := Element.Alike.intro (ρ := ρ) name start start' content
    cases content with
    | assignment v => exact echoes_closeAssignment hpop he v
    | script inline =>
      cases inline with
      | none => exact .pure (hpop.rooted .null)
      | some s =>
        exact (echoes_runScript hpop s.language s.body).bind fun c c' hc => .pure (hc.rooted .null)
    | created o closing =>
      refine (echoes_applyAttributes hpop he closing.attributes).bind fun _ _ _ => ?_
      exact (echoes_join (hpop.bindName closing.id (.object o) none) _ _ _).bind
        fun c c' hc => .pure (hc.rooted _)
    | included root names closing =>
      refine (echoes_applyAttributes hpop he closing.attributes).bind fun _ _ _ => ?_
      exact (echoes_join (hpop.bindName closing.id root (some names)) _ _ _).bind
        fun c c' hc => .pure (hc.rooted _)
    | composite o closing =>
      refine (echoes_applyAttributes hpop he closing.attributes).bind fun _ _ _ => ?_
      exact .pure ((hpop.bindName closing.id (.object o) none).rooted _)

theorem echoes_text (h : b.Alike ρ b') (content : String) :
    Echoes ρ (Alike ρ) (b.text content) (b'.text content) := by
  obtain ⟨reader, location, names, root, elements⟩ := h
  cases elements with
  | nil => exact .pure (.intro reader location names root .nil)
  | @cons e e' rest rest' he hrest =>
    have hsame := Alike.intro reader location names root (.cons he hrest)
    obtain ⟨name, place, place', c⟩ := he
    have hreplaced : ∀ c, Alike ρ ⟨reader, location, names, ⟨name, place, c⟩ :: rest, root⟩
        ⟨reader, location, names, ⟨name.requalify ρ, place', c.requalify ρ⟩ :: rest', root⟩ :=
      fun c => .intro reader location names root (.cons (.intro name place place' c) hrest)
    unfold text
    cases c with
    | script inline => exact .pure (hreplaced (.script _))
    | assignment v =>
      dsimp only [Content.requalify]
      split
      · exact .pure hsame
      · exact .pure (hreplaced (.assignment _))
    | created o closing =>
      dsimp only [Content.requalify]
      split
      · exact .pure hsame
      · refine .bind_same _ fun heap => ?_
        cases heap.addItem? o (.string content) with
        | none => exact .pure hsame
        | some added => exact .bind_same _ fun _ => .bind_same _ fun _ => .pure hsame
    | included root names closing => exact .pure hsame
    | composite o closing => exact .pure hsame

variable {name : QualifiedName} {closing : Closing} {place place' : Location}

theorem Alike.opened (h : b.Alike ρ b') (content : Content) :
    Alike ρ (b.push ⟨name, place, content⟩)
      (b'.push ⟨name.requalify ρ, place', content.requalify ρ⟩) :=
  h.push (.intro name place place' content)

theorem echoes_openObject (h : b.Alike ρ b') :
    Echoes ρ (Alike ρ) (b.openObject name closing place)
      (b'.openObject (name.requalify ρ) (closing.requalify ρ) place') := by
  unfold openObject
  rw [h.reader, name.space_requalify, name.localName_requalify]
  cases name.space with
  | none => exact .refuse (.noNamespace (.intro name))
  | some space =>
    exact .bind_same _ fun blueprint => .bind_same _ fun o => .pure (h.opened (.created o closing))

theorem echoes_openProperty (h : b.Alike ρ b') :
    Echoes ρ (Alike ρ) (b.openProperty name closing place)
      (b'.openProperty (name.requalify ρ) (closing.requalify ρ) place') := by
  unfold openProperty
  rw [h.holder]
  cases b.stack.head?.bind Element.holder? with
  | none => exact .refuse (.propertyOutsideObject (.intro name))
  | some o =>
    refine .bind_same _ fun heap => ?_
    simp only [QualifiedName.localName_requalify, Closing.requalify, List.isEmpty_map]
    have hassigned : Echoes ρ (Alike ρ)
        (if (closing.id.isSome || !closing.attributes.isEmpty) = true then
          .fail (.malformed (.attributesOnAssignment name.display) place)
        else pure (b.push ⟨name, place, .assignment .null⟩))
        (if (closing.id.isSome || !closing.attributes.isEmpty) = true then
          .fail (.malformed (.attributesOnAssignment (name.requalify ρ).display) place')
        else pure (b'.push ⟨name.requalify ρ, place', .assignment .null⟩)) := by
      split
      · exact .refuse (.attributesOnAssignment (.intro name))
      · exact .pure (h.opened (.assignment .null))
    cases propertyKind? (heap.object o) name.localName with
    | none => exact hassigned
    | some kind =>
      cases kind with
      | composite | listenerList =>
        cases ((heap.object o).access?.bind fun a => a.get? name.localName).bind Value.object? with
        | none => exact .refuse (.same _)
        | some part => exact .pure (h.opened (.composite part closing))
      | _ => exact hassigned

theorem inclusionOf?_requalify (attributes : List Attribute) :
    inclusionOf? (attributes.map (Attribute.requalify ρ)) = inclusionOf? attributes := by
  simp only [inclusionOf?, plainValue?_requalify]

theorem asElement_requalify (d : Document) (name : QualifiedName) (closing : Closing)
    (place : Location) :
    d.asElement (name.requalify ρ) (closing.requalify ρ) place =
      ⟨name.requalify ρ, place, (d.asElement name closing place).content.requalify ρ⟩ := by
  unfold Document.asElement Closing.requalify
  rw [List.filter_map]
  simp only [Function.comp_def, Attribute.isPlain_requalify]
  rfl

theorem echoes_openInclude (nested : Reader → String → Reading Document) (h : b.Alike ρ b') :
    Echoes ρ (Alike ρ) (b.openInclude nested name closing place)
      (b'.openInclude nested (name.requalify ρ) (closing.requalify ρ) place') := by
  have hinclusion : inclusionOf? (closing.requalify ρ).attributes = inclusionOf? closing.attributes :=
    inclusionOf?_requalify closing.attributes
  rw [openInclude_eq, openInclude_eq, hinclusion, h.reader, h.location]
  cases inclusionOf? closing.attributes with
  | none => exact .refuse (.includeWithoutSource (.intro name))
  | some i =>
    refine .bind_same _ fun document => .pure ?_
    rw [asElement_requalify]
    exact h.opened (document.asElement name closing place).content

theorem echoes_runScriptFile (h : b.Alike ρ b') (source : String) (language : Option String) :
    Echoes ρ (Alike ρ) (b.runScriptFile source language) (b'.runScriptFile source language) := by
  have hload : ∀ key : String, Echoes ρ (Alike ρ)
      (do
        let bytes ← Reading.lift ReadError.resource
          (b.reader.environment.documents.load (Path.resolve source b.location))
        let body ← Reading.lift ReadError.notText (Text.decode bytes)
        b.runScript key (String.ofList body))
      (do
        let bytes ← Reading.lift ReadError.resource
          (b.reader.environment.documents.load (Path.resolve source b.location))
        let body ← Reading.lift ReadError.notText (Text.decode bytes)
        b'.runScript key (String.ofList body)) :=
    fun key => .bind_same _ fun bytes => .bind_same _ fun body => echoes_runScript h key _
  unfold runScriptFile
  rw [h.reader, h.location]
  dsimp only
  cases language.orElse fun _ => Path.extension? (Path.resolve source b.location) with
  | some key => exact .bind_same _ hload
  | none => exact .bind_same _ hload

theorem echoes_openScript (h : b.Alike ρ b') :
    Echoes ρ (Alike ρ) (b.openScript name closing place)
      (b'.openScript (name.requalify ρ) (closing.requalify ρ) place') := by
  have hfind : ((closing.attributes.map (Attribute.requalify ρ)).find? fun a =>
        !a.isPlain "src" && !a.isPlain "language") =
      (closing.attributes.find? fun a =>
        !a.isPlain "src" && !a.isPlain "language").map (Attribute.requalify ρ) := by
    rw [List.find?_map]
    simp only [Function.comp_def, Attribute.isPlain_requalify]
  unfold openScript
  simp only [Closing.requalify, hfind, plainValue?_requalify]
  split
  · exact .refuse (.scriptWithId (.intro name))
  · cases closing.attributes.find? fun a => !a.isPlain "src" && !a.isPlain "language" with
    | some a => exact .refuse (.unknownScriptAttribute (.intro a.name) (.intro name))
    | none =>
      simp only [Option.map_none]
      cases plainValue? closing.attributes "src" with
      | some source =>
        exact (echoes_runScriptFile h source _).bind fun c c' hc => .pure (hc.opened (.script none))
      | none =>
        cases plainValue? closing.attributes "language" with
        | some language => exact .pure (h.opened (.script (some ⟨language, ""⟩)))
        | none => exact .refuse (.scriptWithoutLanguage (.intro name))

theorem echoes_opened (hρ : KeepsControl ρ) (nested : Reader → String → Reading Document)
    (h : b.Alike ρ b') (attributes : List Attribute) :
    Echoes ρ (Alike ρ) (b.opened nested name attributes place)
      (b'.opened nested (name.requalify ρ) (attributes.map (Attribute.requalify ρ)) place') := by
  unfold opened
  refine .bind (.lift (takeId_requalify hρ attributes) fun f g hfg => .malformed hfg _ _) ?_
  rintro ⟨id, own⟩ _ rfl
  simp only [name.isIn_requalify hρ]
  have hclosing : (⟨id, own.map (Attribute.requalify ρ)⟩ : Closing) =
      Closing.requalify ρ ⟨id, own⟩ := rfl
  have hlocal : (name.requalify ρ).localName = name.localName := rfl
  rw [hclosing, hlocal]
  split
  · split
    · exact echoes_openInclude nested h
    · split
      · exact echoes_openScript h
      · exact .refuse (.unknownControlTag (.intro name))
  · split
    · exact echoes_openObject h
    · exact echoes_openProperty h

/-- An event and the same event in other words do the same to two builders that are alike. -/
theorem echoes_step (hρ : KeepsControl ρ) (nested : Reader → String → Reading Document)
    (h : b.Alike ρ b') {e e' : Event} (he : e'.unplaced = (e.requalify ρ).unplaced) :
    Echoes ρ (Alike ρ) (b.step nested e) (b'.step nested e') := by
  cases e with
  | opened name attributes place =>
    cases e' with
    | opened name' attributes' place' =>
      simp only [Event.unplaced, Event.requalify, Event.opened.injEq, and_true] at he
      obtain ⟨rfl, rfl⟩ := he
      exact echoes_opened hρ nested h attributes
    | closed place => cases he
    | text content place => cases he
  | closed place =>
    cases e' with
    | closed place' => exact echoes_closed h place place'
    | opened name attributes place => cases he
    | text content place => cases he
  | text content place =>
    cases e' with
    | text content' place' =>
      simp only [Event.unplaced, Event.requalify, Event.text.injEq, and_true] at he
      rw [he]
      exact echoes_text h content
    | opened name attributes place => cases he
    | closed place => cases he

end Builder

end ObjectMarkup
