import ObjectMarkup.Proofs.Document.NameTimeline
import ObjectMarkup.Proofs.Document.Take
import ObjectMarkup.Proofs.Literal.Sigil
import ObjectMarkup.Proofs.Markup.Tree

namespace ObjectMarkup

open Markup

/-- A property of an object that markup may assign: the object is a bean, which declares it under a
name that no type has. -/
structure Heap.Assignable (heap : Heap) (id : ObjectId) (bean : Bean) (name : String)
    (type : ValueType) : Prop where
  access : (heap.object id).access? = some (.bean bean)
  declared : ∃ intake held, bean.property? name = some ⟨⟨name, .writable, type⟩, intake, held⟩
  lowercase : Unicode.startsUppercase name = false

/-- What becomes of a session when a property of a bean is set: the object keeps the bean as it is
then, or the session stays as it is where the bean refuses the value. -/
def Session.set (s : Session) (id : ObjectId) (bean : Bean) (name : String) (value : Value) :
    Except ReadError Unit × Session :=
  let o := s.heap.object id
  match bean.set o.typeName name (s.heap.labelDuring id value) value with
  | .ok bean => (.ok (), { s with heap := s.heap.update id { o with bean := some bean } })
  | .error e => (.error (.property e), s)

def Element.withPending (e : Element) (attributes : List Attribute) : Element :=
  { e with
    content :=
      match e.content with
      | .created object closing => .created object { closing with attributes }
      | .included root names closing => .included root names { closing with attributes }
      | .composite object closing => .composite object { closing with attributes }
      | content => content }

variable {nested : Reader → String → Reading Document} {b : Builder} {s : Session}
  {id : ObjectId} {bean : Bean} {type : ValueType} {element : Element}
  {tag key : QualifiedName} {content : String} {value : Value}

theorem Element.object?_of_holder (h : element.holder? = some id) :
    element.value.object? = some id := by
  unfold holder? at h
  split at h
  · exact h
  · cases h

theorem Reading.perform_put (haccess : (s.heap.object id).access? = some (.bean bean))
    (property : String) (value : Value) :
    (put id property value).perform s = s.set id bean property value := by
  unfold put Session.set
  simp only [perform_bind, perform_heap, perform_lift, Heap.put, Object.put, haccess]
  cases bean.set (s.heap.object id).typeName property (s.heap.labelDuring id value) value with
  | ok kept => rfl
  | error e => rfl

namespace Heap.Assignable

variable {property : String}

theorem put_eq (h : s.heap.Assignable id bean property type) (value : Value) :
    (Reading.put id property value).perform s = s.set id bean property value :=
  Reading.perform_put h.access property value

theorem descriptor?_eq (h : s.heap.Assignable id bean property type) :
    (Access.bean bean).descriptor? property = some ⟨property, .writable, type⟩ := by
  obtain ⟨intake, held, hfound⟩ := h.declared
  simp [Access.descriptor?, hfound]

theorem propertyKind?_eq (h : s.heap.Assignable id bean property type) :
    Builder.propertyKind? (s.heap.object id) property = some .writable := by
  simp [Builder.propertyKind?, h.access, h.descriptor?_eq]

/-- An attribute gives the property what its text stands for in the document. -/
theorem perform_applyAttribute (h : s.heap.Assignable id bean key.localName type)
    (hresolve : b.context.resolve content (some type) = .ok value) (element : Element) :
    (b.applyAttribute element id ⟨key, content⟩).perform s =
      s.set id bean key.localName value := by
  unfold Builder.applyAttribute Builder.applyProperty
  simp only [h.lowercase, Bool.false_eq_true, if_false, Reading.perform_bind,
    Reading.perform_heap, h.access, h.descriptor?_eq, Option.map_some, hresolve,
    Reading.perform_lift_ok, h.put_eq]

theorem perform_opened (h : s.heap.Assignable id bean tag.localName type)
    (hholder : element.holder? = some id) (htag : tag.isIn controlQualifier = false)
    (start : Location) :
    ((b.push element).step nested (.opened tag [] start)).perform s =
      (.ok ((b.push element).push ⟨tag, start, .assignment .null⟩), s) := by
  have hhead : (b.push element).stack.head?.bind Element.holder? = some id := hholder
  unfold Builder.step Builder.opened Builder.openProperty
  simp only [takeId, Reading.perform_bind, Reading.perform_lift_ok, htag, h.lowercase,
    Bool.false_eq_true, if_false, hhead, Reading.perform_heap, h.propertyKind?_eq]
  rfl

theorem perform_text (b : Builder) (s : Session) (hcontent : Text.isBlank content.toList = false)
    (start place : Location) :
    ((b.push ⟨tag, start, .assignment .null⟩).step nested (.text content place)).perform s =
      (.ok (b.push ⟨tag, start, .assignment (.string content)⟩), s) := by
  unfold Builder.step Builder.text
  simp only [Builder.push, hcontent, Bool.false_eq_true, if_false]
  rfl

theorem perform_closed (h : s.heap.Assignable id bean tag.localName type)
    (helement : element.value.object? = some id) (start ending : Location) :
    (((b.push element).push ⟨tag, start, .assignment (.string content)⟩).step nested
        (.closed ending)).perform s =
      (do
        .put id tag.localName (coerce content type)
        return b.push element : Reading Builder).perform s := by
  have hparent : (b.push element).stack.head?.bind (fun parent => parent.value.object?) =
      some id := helement
  change (Builder.closeAssignment (b.push element) _ _).perform s = _
  unfold Builder.closeAssignment
  simp only [hparent, Reading.perform_bind, Reading.perform_heap, h.access, h.descriptor?_eq, ne_eq,
    not_true_eq_false, if_false]

/-- A property element around a text gives the property what the text is read as. -/
theorem perform_take (h : s.heap.Assignable id bean tag.localName type) (hroot : b.root = none)
    (hholder : element.holder? = some id) (htag : tag.isIn controlQualifier = false)
    (hcontent : Text.isBlank content.toList = false) {events : List Event}
    (told : (Body.element "" tag [] (.text content) (.text "")).Told events) :
    ((b.push element).take nested events).perform s =
      (do
        .put id tag.localName (coerce content type)
        return b.push element : Reading Builder).perform s := by
  have hnonempty : content ≠ "" := by
    rintro rfl
    cases hcontent
  obtain ⟨start, place, ending, rfl⟩ := told.of_text hnonempty
  have hpushed : ∀ e, ((b.push element).push e).root = none := fun _ => hroot
  rw [Builder.take_cons (show (b.push element).root = none from hroot),
    Reading.perform_bind_of_ok (h.perform_opened hholder htag start), Builder.take_cons (hpushed _),
    Reading.perform_bind_of_ok (perform_text (b.push element) s hcontent start place),
    Builder.take_singleton (hpushed _), h.perform_closed (Element.object?_of_holder hholder)]

end Heap.Assignable

theorem Builder.perform_applyAttributes_singleton (b : Builder)
    (helement : element.value.object? = some id) (a : Attribute) (s : Session) :
    (b.applyAttributes element [a]).perform s = (b.applyAttribute element id a).perform s := by
  unfold applyAttributes applyAll
  simp only [List.isEmpty_cons, Bool.false_eq_true, if_false, helement, Reading.perform_bind]
  rcases (b.applyAttribute element id a).perform s with ⟨e | u, t⟩
  · rfl
  · rfl

namespace Element

theorem holder?_withPending (e : Element) (attributes : List Attribute) :
    (e.withPending attributes).holder? = e.holder? := by
  obtain ⟨name, location, content⟩ := e
  cases content <;> rfl

theorem value_withPending (e : Element) (attributes : List Attribute) :
    (e.withPending attributes).value = e.value := by
  obtain ⟨name, location, content⟩ := e
  cases content <;> rfl

theorem settle_withPending (b : Builder) (e : Element) (attributes : List Attribute) :
    b.settle (e.withPending attributes) = b.settle e := by
  obtain ⟨name, location, content⟩ := e
  cases content <;> rfl

theorem exists_closing_withPending (hholder : element.holder? = some id)
    (attributes : List Attribute) :
    ∃ name, (element.withPending attributes).closing? = some ⟨name, attributes⟩ := by
  obtain ⟨name, location, content⟩ := element
  cases content with
  | created o closing => exact ⟨closing.id, rfl⟩
  | included root names closing => exact ⟨closing.id, rfl⟩
  | composite o closing => exact ⟨closing.id, rfl⟩
  | assignment v => cases hholder
  | script inline => cases hholder

/-- An element that holds properties applies what is pending when it ends, and then settles. -/
theorem closed_withPending (hholder : element.holder? = some id) (attributes : List Attribute)
    (ending : Location) :
    (b.push (element.withPending attributes)).step nested (.closed ending) = (do
      b.applyAttributes (element.withPending attributes) attributes
      b.settle element) := by
  obtain ⟨name, hclosing⟩ := exists_closing_withPending hholder attributes
  have hclosed :=
    Builder.closed_eq (b := b.push (element.withPending attributes)) rfl hclosing ending
  rw [settle_withPending] at hclosed
  exact hclosed

end Element

/-- A text that does not refer to something else is given to a property of a bean alike by an
attribute and by an element of its own: wherever the object stands and whatever the document's
location, bundle and names are, the property is set to what the text is read as, with the same
object or the same error afterwards. So an element ends alike whether the attribute is the one that
it applies or the property element is the one inside it. -/
theorem property_forms_agree (hroot : b.root = none) (hholder : element.holder? = some id)
    (hproperty : s.heap.Assignable id bean tag.localName type)
    (htag : tag.isIn controlQualifier = false) (hkey : key.localName = tag.localName)
    (hcontent : Text.isBlank content.toList = false)
    (hplain : type.isPrimitive = true ∨ ¬ IsReference content) {events : List Event}
    (told : (Body.element "" tag [] (.text content) (.text "")).Told events) :
    let result := s.set id bean tag.localName (coerce content type)
    (∀ (b' : Builder) (e : Element),
      (b'.applyAttribute e id ⟨key, content⟩).perform s = result) ∧
    ((b.push element).take nested events).perform s =
      (result.1.map fun _ => b.push element, result.2) ∧
    (∀ ending,
      ((b.push (element.withPending [⟨key, content⟩])).take nested [.closed ending]).perform s =
        ((b.push (element.withPending [])).take nested (events ++ [.closed ending])).perform s) ∧
    (∀ sigil rest, isSigil sigil = true → content.toList = sigil :: sigil :: rest →
      coerce content type = .string (String.ofList (sigil :: rest))) := by
  have hproperty' : s.heap.Assignable id bean key.localName type := hkey ▸ hproperty
  have hput := hproperty.put_eq (coerce content type)
  have hset : s.set id bean key.localName = s.set id bean tag.localName := by rw [hkey]
  have hpushed : ∀ e, (b.push e).root = none := fun _ => hroot
  intro result
  have hattribute : ∀ (b' : Builder) (e : Element),
      (b'.applyAttribute e id ⟨key, content⟩).perform s = result := by
    intro b' e
    rw [hproperty'.perform_applyAttribute (b'.context.resolve_eq_coerce hplain), hset]
  have helement : ∀ e : Element, e.holder? = some id →
      ((b.push e).take nested events).perform s = (result.1.map fun _ => b.push e, result.2) := by
    intro e he
    rw [hproperty.perform_take hroot he htag hcontent told, Reading.perform_bind_pure, hput]
  refine ⟨hattribute, helement element hholder, fun ending => ?_,
    fun sigil rest hsigil hraw => coerce_of_doubled hsigil hraw type⟩
  have hholder' : (element.withPending []).holder? = some id := by
    rw [element.holder?_withPending, hholder]
  have hvalue : (element.withPending [⟨key, content⟩]).value.object? = some id := by
    rw [element.value_withPending, Element.object?_of_holder hholder]
  rw [Builder.take_singleton (hpushed _), Element.closed_withPending hholder, Reading.perform_bind,
    b.perform_applyAttributes_singleton hvalue, hattribute, Builder.take_append,
    Reading.perform_bind, helement _ hholder']
  -- An error of the bean ends both, and otherwise nothing is pending in the second element.
  rcases result with ⟨e | u, t⟩
  · rfl
  · change _ = (Builder.take nested _ [.closed ending]).perform t
    rw [Builder.take_singleton (hpushed _), Element.closed_withPending hholder]
    rfl

/-- A text that begins with a sigil is written with two of them, in either form. -/
theorem property_forms_agree_of_doubled :
    let label : Value → Object := fun held =>
      { typeName := "Label"
        bean := some ⟨[⟨⟨"text", .writable, .string⟩, .text, some held⟩], false⟩ }
    let s : Value → Session := fun held => ⟨⟨[label held]⟩, [], .idle⟩
    let element : Element :=
      ⟨⟨none, "Label", some "demo"⟩, ⟨1, 1⟩, .created ⟨0⟩ ⟨none, []⟩⟩
    let b := Builder.start .plain none
    let tag : QualifiedName := ⟨none, "text", some "demo"⟩
    let events : List Event :=
      [.opened tag [] ⟨1, 20⟩, .text "@@home" ⟨1, 26⟩, .closed ⟨1, 32⟩]
    (∃ bean, (s .null).heap.Assignable ⟨0⟩ bean "text" .string) ∧ ¬ IsReference "@@home" ∧
      (b.applyAttribute element ⟨0⟩ ⟨⟨none, "text", none⟩, "@@home"⟩).perform (s .null) =
        (.ok (), s (.string "@home")) ∧
      ((b.push element).take (Reader.readNested 0) events).perform (s .null) =
        (.ok (b.push element), s (.string "@home")) := by
  intro label s element b tag events
  have hproperty : (s .null).heap.Assignable ⟨0⟩
      ⟨[⟨⟨"text", .writable, .string⟩, .text, some .null⟩], false⟩ tag.localName .string :=
    ⟨rfl, ⟨_, _, rfl⟩, by decide⟩
  have hdoubled : "@@home".toList = '@' :: '@' :: "home".toList := by decide
  have hplain : ¬ IsReference "@@home" := not_isReference_of_doubled hdoubled
  have told : (Body.element "" tag [] (.text "@@home") (.text "")).Told events :=
    .element .none (.text (.some (by decide) _)) (.text .none) _ _
  obtain ⟨hattribute, helement, -⟩ := @property_forms_agree (Reader.readNested 0) b _ _ _ _ element
    _ ⟨none, "text", none⟩ _ rfl rfl hproperty (by decide) rfl (by decide) (.inr hplain) _ told
  exact ⟨⟨_, hproperty⟩, hplain, hattribute b element, helement⟩

end ObjectMarkup
