import ObjectMarkup.Document.Builder
import ObjectMarkup.Proofs.Reading.Outcome

namespace ObjectMarkup

open Markup

namespace Markup

def QualifiedName.requalify (ρ : String → String) (n : QualifiedName) : QualifiedName :=
  { n with qualifier := n.qualifier.map ρ }

def Attribute.requalify (ρ : String → String) (a : Attribute) : Attribute :=
  { a with name := a.name.requalify ρ }

def Event.requalify (ρ : String → String) : Event → Event
  | .opened name attributes place =>
    .opened (name.requalify ρ) (attributes.map (Attribute.requalify ρ)) place
  | e => e

def Event.unplaced : Event → Event
  | .opened name attributes _ => .opened name attributes default
  | .closed _ => .closed default
  | .text content _ => .text content default

theorem QualifiedName.requalify_id (n : QualifiedName) : n.requalify id = n := by
  obtain ⟨qualifier, localName, space⟩ := n
  simp [requalify]

theorem Attribute.requalify_id (a : Attribute) : a.requalify id = a := by
  rw [requalify, QualifiedName.requalify_id]

theorem Event.requalify_id (e : Event) : e.requalify id = e := by
  cases e with
  | opened name attributes place =>
    simp only [requalify, QualifiedName.requalify_id, opened.injEq, and_true, true_and]
    exact List.map_id'' Attribute.requalify_id attributes
  | closed place => rfl
  | text content place => rfl

end Markup

/-- A name as it is displayed with one qualifier and with the other. -/
inductive Displays (ρ : String → String) : String → String → Prop
  | intro (n : QualifiedName) : Displays ρ n.display (n.requalify ρ).display

theorem Displays.eq_of_id {a b : String} (h : Displays id a b) : b = a := by
  cases h with
  | intro n => rw [n.requalify_id]

/-- A fault, and the same fault told with the names that the other document has. -/
inductive StructureFault.Alike (ρ : String → String) : StructureFault → StructureFault → Prop
  | same (f : StructureFault) : Alike ρ f f
  | unfinished {a b : String} (h : Displays ρ a b) : Alike ρ (.unfinished a) (.unfinished b)
  | unknownControlTag {a b : String} (h : Displays ρ a b) :
      Alike ρ (.unknownControlTag a) (.unknownControlTag b)
  | unknownControlAttribute {a b : String} (h : Displays ρ a b) :
      Alike ρ (.unknownControlAttribute a) (.unknownControlAttribute b)
  | noNamespace {a b : String} (h : Displays ρ a b) : Alike ρ (.noNamespace a) (.noNamespace b)
  | propertyOutsideObject {a b : String} (h : Displays ρ a b) :
      Alike ρ (.propertyOutsideObject a) (.propertyOutsideObject b)
  | attributesOnAssignment {a b : String} (h : Displays ρ a b) :
      Alike ρ (.attributesOnAssignment a) (.attributesOnAssignment b)
  | noEnclosingObject {a b : String} (h : Displays ρ a b) :
      Alike ρ (.noEnclosingObject a) (.noEnclosingObject b)
  | includeWithoutSource {a b : String} (h : Displays ρ a b) :
      Alike ρ (.includeWithoutSource a) (.includeWithoutSource b)
  | scriptWithId {a b : String} (h : Displays ρ a b) : Alike ρ (.scriptWithId a) (.scriptWithId b)
  | unknownScriptAttribute {k l a b : String} (hk : Displays ρ k l) (h : Displays ρ a b) :
      Alike ρ (.unknownScriptAttribute k a) (.unknownScriptAttribute l b)
  | scriptWithoutLanguage {a b : String} (h : Displays ρ a b) :
      Alike ρ (.scriptWithoutLanguage a) (.scriptWithoutLanguage b)
  | childOfNull {a b : String} (h : Displays ρ a b) : Alike ρ (.childOfNull a) (.childOfNull b)
  | attributesOfNull {a b : String} (h : Displays ρ a b) :
      Alike ρ (.attributesOfNull a) (.attributesOfNull b)
  | attachedWithoutOwner {k l : String} (h : Displays ρ k l) :
      Alike ρ (.attachedWithoutOwner k) (.attachedWithoutOwner l)
  | attachedWithoutNamespace {k l : String} (h : Displays ρ k l) :
      Alike ρ (.attachedWithoutNamespace k) (.attachedWithoutNamespace l)

theorem StructureFault.Alike.eq_of_id {f g : StructureFault} (h : f.Alike id g) : g = f := by
  cases h with
  | same => rfl
  | unknownScriptAttribute hk h => rw [hk.eq_of_id, h.eq_of_id]
  | unfinished h | unknownControlTag h | unknownControlAttribute h | noNamespace h
  | propertyOutsideObject h | attributesOnAssignment h | noEnclosingObject h
  | includeWithoutSource h | scriptWithId h | scriptWithoutLanguage h | childOfNull h
  | attributesOfNull h | attachedWithoutOwner h | attachedWithoutNamespace h => rw [h.eq_of_id]

/-- An error, and the error of the same kind that the other document has: at another place, and with
the names that stand there. -/
inductive ReadError.Alike (ρ : String → String) : ReadError → ReadError → Prop
  | same (e : ReadError) : Alike ρ e e
  | malformed {f g : StructureFault} (h : f.Alike ρ g) (place place' : Location) :
      Alike ρ (.malformed f place) (.malformed g place')
  | notAListener {a b : String} (h : Displays ρ a b) (found : String) :
      Alike ρ (.notAListener a found) (.notAListener b found)

/-- Where the names are the same, only the place of an error can differ. -/
theorem ReadError.Alike.eq_of_id {e e' : ReadError} (h : e.Alike id e') :
    e' = e ∨ ∃ f place place', e = .malformed f place ∧ e' = .malformed f place' := by
  cases h with
  | same => exact .inl rfl
  | malformed h place place' => exact .inr ⟨_, place, place', rfl, by rw [h.eq_of_id]⟩
  | notAListener h found => exact .inl (by rw [h.eq_of_id])

/-- Both succeed with results that are related, or both fail with errors that are. -/
inductive Accord {ε ε' α β : Type} (E : ε → ε' → Prop) (A : α → β → Prop) :
    Except ε α → Except ε' β → Prop
  | ok {a : α} {b : β} (related : A a b) : Accord E A (.ok a) (.ok b)
  | error {e : ε} {e' : ε'} (related : E e e') : Accord E A (.error e) (.error e')

theorem Accord.of_error {ε ε' α β : Type} {E : ε → ε' → Prop} {A : α → β → Prop} {x : Except ε α}
    {y : Except ε' β} (h : Accord E A x y) {e : ε} (hx : x = .error e) :
    ∃ e', y = .error e' ∧ E e e' := by
  cases h with
  | ok related => cases hx
  | error related =>
    cases hx
    exact ⟨_, rfl, related⟩

namespace Reading

variable {α β γ δ ε : Type} {ρ : String → String} {A : α → β → Prop} {B : γ → δ → Prop}

/-- Two steps do the same to every session, and succeed with related results or fail with errors of
the same kind. -/
def Echoes (ρ : String → String) (A : α → β → Prop) (x : Reading α) (y : Reading β) : Prop :=
  ∀ s, Accord (ReadError.Alike ρ) A (x.perform s).1 (y.perform s).1 ∧
    (y.perform s).2 = (x.perform s).2

namespace Echoes

theorem pure {a : α} {b : β} (h : A a b) : Echoes ρ A (Pure.pure a) (Pure.pure b) :=
  fun _ => ⟨.ok h, rfl⟩

theorem fail {e e' : ReadError} (h : e.Alike ρ e') :
    Echoes ρ A (Reading.fail e) (Reading.fail e') :=
  fun _ => ⟨.error h, rfl⟩

theorem refuse {f g : StructureFault} {place place' : Location} (h : f.Alike ρ g) :
    Echoes ρ A (Reading.fail (.malformed f place)) (Reading.fail (.malformed g place')) :=
  fail (.malformed h place place')

theorem same (x : Reading α) : Echoes ρ Eq x x := by
  intro s
  refine ⟨?_, rfl⟩
  cases (x.perform s).1 with
  | error e => exact .error (.same e)
  | ok a => exact .ok rfl

theorem mono {A' : α → β → Prop} {x : Reading α} {y : Reading β} (h : Echoes ρ A x y)
    (hA : ∀ a b, A a b → A' a b) : Echoes ρ A' x y := by
  intro s
  obtain ⟨haccord, hsession⟩ := h s
  refine ⟨?_, hsession⟩
  generalize (x.perform s).1 = p at haccord
  generalize (y.perform s).1 = p' at haccord
  cases haccord with
  | ok related => exact .ok (hA _ _ related)
  | error related => exact .error related

theorem bind {x : Reading α} {y : Reading β} {f : α → Reading γ} {g : β → Reading δ}
    (hxy : Echoes ρ A x y) (hfg : ∀ a b, A a b → Echoes ρ B (f a) (g b)) :
    Echoes ρ B (x >>= f) (y >>= g) := by
  intro s
  obtain ⟨haccord, hsession⟩ := hxy s
  rw [perform_bind, perform_bind]
  generalize x.perform s = p at haccord hsession
  generalize y.perform s = p' at haccord hsession
  obtain ⟨a, t⟩ := p
  obtain ⟨b, t'⟩ := p'
  dsimp only at haccord hsession
  subst hsession
  cases haccord with
  | ok related => exact hfg _ _ related t'
  | error related => exact ⟨.error related, rfl⟩

theorem bind_same (x : Reading α) {f : α → Reading γ} {g : α → Reading δ}
    (h : ∀ a, Echoes ρ B (f a) (g a)) : Echoes ρ B (x >>= f) (x >>= g) :=
  (same x).bind fun a _ hab => hab ▸ h a

theorem lift {E : ε → ε → Prop} {wrap wrap' : ε → ReadError} {x : Except ε α} {y : Except ε β}
    (h : Accord E A x y) (hwrap : ∀ e e', E e e' → (wrap e).Alike ρ (wrap' e')) :
    Echoes ρ A (Reading.lift wrap x) (Reading.lift wrap' y) := by
  cases h with
  | ok related => exact pure related
  | error related => exact fail (hwrap _ _ related)

theorem within {x : Reading α} {y : Reading β} (h : Echoes ρ A x y) (location : Option String) :
    Echoes ρ A (Reading.within location x) (Reading.within location y) := by
  intro s
  rw [perform_within, perform_within]
  cases s.guard.enter location with
  | error e => exact ⟨.error (.same _), rfl⟩
  | ok guard =>
    obtain ⟨haccord, hsession⟩ := h { s with guard }
    refine ⟨haccord, ?_⟩
    dsimp only
    rw [hsession]

end Echoes

end Reading

end ObjectMarkup
