import ObjectMarkup.Proofs.Document.Steps
import ObjectMarkup.Proofs.Reading.Follows

namespace ObjectMarkup

open Markup

/-- A fault of an end tag that has nothing to end, or of a property element around which there is
no object. -/
def StructureFault.isUnreachable : StructureFault → Bool
  | .unbalancedEnd => true
  | .noEnclosingObject _ => true
  | _ => false

/-- Whether a document can fail with the error by itself, whatever it includes. -/
def ReadError.isOwn : ReadError → Bool
  | .nesting _ => false
  | .included _ _ => false
  | .malformed fault _ => !fault.isUnreachable
  | _ => true

/-- What an element includes: a document, and the bundle for it if it is to have one of its own. -/
structure Inclusion where
  source : String
  resources : Option String
  deriving DecidableEq, Repr

def Inclusion.path (i : Inclusion) (base : Option String) : String := Path.resolve i.source base

def inclusionOf? (attributes : List Attribute) : Option Inclusion :=
  (plainValue? attributes "src").map fun source => ⟨source, plainValue? attributes "resources"⟩

def Markup.Event.inclusion? : Event → Option Inclusion
  | .opened name attributes _ =>
    if name.isIn controlQualifier ∧ name.localName = "include" then
      (takeId attributes).toOption.bind fun (_, own) => inclusionOf? own
    else none
  | _ => none

def Reader.forInclusion (r : Reader) (i : Inclusion) : Except ReadError Reader :=
  match i.resources with
  | none => .ok r
  | some baseName => (r.loadBundle baseName none).map fun bundle => r.withResources (some bundle)

def Reader.readIncluded (nested : Reader → String → Reading Document) (r : Reader)
    (base : Option String) (i : Inclusion) : Reading Document := do
  let reader ← .lift id (r.forInclusion i)
  (nested reader (i.path base)).mapError (ReadError.through (i.path base))

/-- The element of an inclusion, once the document has been read. -/
def Document.asElement (d : Document) (name : QualifiedName) (closing : Closing)
    (location : Location) : Element :=
  ⟨name, location, .included d.root d.names
    ⟨closing.id, closing.attributes.filter fun a => !a.isPlain "src" && !a.isPlain "resources"⟩⟩

theorem Reader.forInclusion_environment {r reader : Reader} {i : Inclusion}
    (h : r.forInclusion i = .ok reader) : reader.environment = r.environment := by
  unfold forInclusion at h
  split at h
  · cases h
    rfl
  · rename_i baseName _
    cases hload : r.loadBundle baseName none with
    | error e =>
      rw [hload] at h
      cases h
    | ok bundle =>
      rw [hload] at h
      cases h
      rfl

theorem Reader.loadBundle_congr {r reader : Reader} (h : reader.environment = r.environment)
    (baseName : String) (locale : Option Locale) :
    reader.loadBundle baseName locale = r.loadBundle baseName locale := by
  unfold loadBundle
  rw [h]

theorem takeId_error {attributes : List Attribute} {f : StructureFault}
    (h : takeId attributes = .error f) : ∃ key, f = .unknownControlAttribute key := by
  induction attributes with
  | nil => cases h
  | cons a rest ih =>
    unfold takeId at h
    split at h
    · split at h
      · cases hrest : takeId rest with
        | error f' =>
          rw [hrest] at h
          cases h
          exact ih hrest
        | ok pair =>
          rw [hrest] at h
          cases h
      · cases h
        exact ⟨_, rfl⟩
    · cases hrest : takeId rest with
      | error f' =>
        rw [hrest] at h
        cases h
        exact ih hrest
      | ok pair =>
        rw [hrest] at h
        cases h

theorem loadBundle_error {r : Reader} {name : String} {locale : Option Locale} {e : ReadError}
    (h : r.loadBundle name locale = .error e) : e.isOwn = true := by
  unfold Reader.loadBundle at h
  split at h
  · cases h
    rfl
  · rename_i loader _
    cases hl : loader name (locale.orElse fun _ => r.environment.locale) with
    | error cause =>
      rw [hl] at h
      cases h
      rfl
    | ok bundle =>
      rw [hl] at h
      cases h

theorem Reader.forInclusion_error {r : Reader} {i : Inclusion} {e : ReadError}
    (h : r.forInclusion i = .error e) : e.isOwn = true := by
  unfold forInclusion at h
  split at h
  · cases h
  · rename_i baseName _
    cases hload : r.loadBundle baseName none with
    | error cause =>
      rw [hload] at h
      cases h
      exact loadBundle_error hload
    | ok bundle =>
      rw [hload] at h
      cases h

theorem Builder.openInclude_eq (nested : Reader → String → Reading Document) (b : Builder)
    (name : QualifiedName) (closing : Closing) (location : Location) :
    b.openInclude nested name closing location =
      match inclusionOf? closing.attributes with
      | none => .fail (.malformed (.includeWithoutSource name.display) location)
      | some i => do
        let d ← b.reader.readIncluded nested b.location i
        return b.push (d.asElement name closing location) := by
  unfold openInclude inclusionOf?
  cases plainValue? closing.attributes "src" with
  | none => rfl
  | some source =>
    simp only [Option.map_some, Reader.readIncluded, Reader.forInclusion, bind_assoc]
    cases plainValue? closing.attributes "resources" with
    | none => rfl
    | some baseName =>
      dsimp only
      cases b.reader.loadBundle baseName none with
      | error e => rfl
      | ok bundle => rfl

/-- The start of an inclusion reads the document and opens an element for it. -/
theorem Builder.step_inclusion {e : Event} {i : Inclusion} (h : e.inclusion? = some i) :
    ∃ name attributes place closing, e = .opened name attributes place ∧
      takeId attributes = .ok (closing.id, closing.attributes) ∧
      inclusionOf? closing.attributes = some i ∧
      ∀ nested (b : Builder), b.step nested e = (do
        let d ← b.reader.readIncluded nested b.location i
        return b.push (d.asElement name closing place)) := by
  cases e with
  | closed place => cases h
  | text content place => cases h
  | opened name attributes place =>
    simp only [Event.inclusion?] at h
    split at h
    · rename_i hinclude
      cases htake : takeId attributes with
      | error f => simp [htake, Except.toOption] at h
      | ok pair =>
        have hi : inclusionOf? pair.2 = some i := by simpa [htake, Except.toOption] using h
        refine ⟨name, attributes, place, ⟨pair.1, pair.2⟩, rfl, htake, hi, ?_⟩
        intro nested b
        simp only [step, opened, htake, Reading.lift, pure_bind, if_pos hinclude.1,
          if_pos hinclude.2, openInclude_eq, hi]
    · cases h

/-- Readers that build a document alike when it includes nothing. -/
structure Reader.Alike (r r' : Reader) : Prop where
  types : r'.environment.types = r.environment.types
  documents : r'.environment.documents = r.environment.documents
  engines : r'.environment.engines = r.environment.engines
  resources : r'.resources = r.resources

theorem Reader.Alike.refl (r : Reader) : r.Alike r := ⟨rfl, rfl, rfl, rfl⟩

/-- A document in the making, with one reader and with another. -/
structure Builder.Paired (r r' : Reader) (b b' : Builder) : Prop where
  reader : b.reader = r
  paired : b' = { b with reader := r' }

theorem Builder.Paired.eq {r : Reader} {b b' : Builder} (h : Paired r r b b') : b' = b := by
  obtain ⟨rfl, rfl⟩ := h
  rfl

/-- Whether an end tag finds an element to end, and an object around it if it is a property. -/
structure Builder.Orderly (b : Builder) : Prop where
  inside : b.stack ≠ []
  enclosed : ∀ e rest, b.stack = e :: rest → e.isProperty = true →
    (rest.head?.bind Element.holder?).isSome

namespace Reading

/-- A relation between steps of reading that goes with their composition. -/
structure Stepwise (Ψ : ∀ {α β : Type}, (α → β → Prop) → Reading α → Reading β → Prop) : Prop where
  pure {α β : Type} {A : α → β → Prop} {a : α} {b : β} : A a b → Ψ A (pure a) (pure b)
  fail {α β : Type} {A : α → β → Prop} {e : ReadError} : e.isOwn = true → Ψ A (.fail e) (.fail e)
  bind {α β γ δ : Type} {A : α → β → Prop} {B : γ → δ → Prop} {x : Reading α} {y : Reading β}
    {f : α → Reading γ} {g : β → Reading δ} :
    Ψ A x y → (∀ a b, A a b → Ψ B (f a) (g b)) → Ψ B (x >>= f) (y >>= g)
  heap : Ψ (· = ·) .heap .heap
  setHeap (h : Heap) : Ψ (· = ·) (.setHeap h) (.setHeap h)
  attach (f : Session → Except PropertyError (List AttachedValue)) :
    Ψ (· = ·)
      (do let s ← get; let log ← Reading.lift .property (f s); set { s with attached := log })
      (do let s ← get; let log ← Reading.lift .property (f s); set { s with attached := log })

namespace Stepwise

open Builder (Paired)

variable {Ψ : ∀ {α β : Type}, (α → β → Prop) → Reading α → Reading β → Prop} {r r' : Reader}
  {b b' : Builder} {name : QualifiedName} {closing : Closing} {place : Location}
  {nested nested' : Reader → String → Reading Document}

/-- A step that is the same with both readers, before others. -/
theorem andThen {α γ δ : Type} {B : γ → δ → Prop} {x : Reading α} {f : α → Reading γ}
    {g : α → Reading δ} (h : Stepwise Ψ) (hx : Ψ (· = ·) x x) (hfg : ∀ a, Ψ B (f a) (g a)) :
    Ψ B (x >>= f) (x >>= g) :=
  h.bind hx fun a _ he => he ▸ hfg a

theorem lift {ε α : Type} {wrap : ε → ReadError} (h : Stepwise Ψ) (x : Except ε α)
    (own : ∀ e, x = .error e → (wrap e).isOwn = true) :
    Ψ (· = ·) (Reading.lift wrap x) (Reading.lift wrap x) := by
  cases x with
  | ok a => exact h.pure rfl
  | error e => exact h.fail (own e rfl)

theorem build (h : Stepwise Ψ) (blueprint : Blueprint) :
    Ψ (· = ·) (Reading.build blueprint) (Reading.build blueprint) :=
  h.andThen h.heap fun _ => h.andThen (h.setHeap _) fun _ => h.pure rfl

theorem put (h : Stepwise Ψ) (id : ObjectId) (name : String) (value : Value) :
    Ψ (· = ·) (Reading.put id name value) (Reading.put id name value) :=
  h.andThen h.heap fun _ => h.andThen (h.lift _ fun _ _ => rfl) h.setHeap

variable (h : Stepwise Ψ) (ha : r.Alike r') (hb : Paired r r' b b')

include h ha hb

theorem openObject : Ψ (Paired r r') (b.openObject name closing place)
    (b'.openObject name closing place) := by
  obtain ⟨rfl, rfl⟩ := hb
  unfold Builder.openObject
  rw [ha.types]
  split
  · exact h.fail rfl
  · refine h.andThen (h.lift _ fun _ _ => rfl) fun blueprint => ?_
    exact h.andThen (h.build blueprint) fun _ => h.pure ⟨rfl, rfl⟩

omit ha in
theorem openProperty : Ψ (Paired r r') (b.openProperty name closing place)
    (b'.openProperty name closing place) := by
  obtain ⟨rfl, rfl⟩ := hb
  unfold Builder.openProperty
  dsimp -zeta -zetaHave only
  split
  · exact h.fail rfl
  · refine h.andThen h.heap fun heap => ?_
    extract_lets o inPlace
    split
    · split
      · exact h.pure ⟨rfl, rfl⟩
      · exact h.fail rfl
    · split
      · exact h.fail rfl
      · exact h.pure ⟨rfl, rfl⟩

theorem runScript {key script : String} : Ψ (Paired r r') (b.runScript key script)
    (b'.runScript key script) := by
  obtain ⟨rfl, rfl⟩ := hb
  unfold Builder.runScript
  rw [ha.engines]
  split
  · exact h.fail rfl
  · exact h.andThen (h.lift _ fun _ _ => rfl) fun _ => h.pure ⟨rfl, rfl⟩

theorem runScriptFile {source : String} {language : Option String} :
    Ψ (Paired r r') (b.runScriptFile source language) (b'.runScriptFile source language) := by
  have hrun : ∀ key, Ψ (Paired r r')
      (do
        let bytes ← Reading.lift .resource
          (b.reader.environment.documents.load (Path.resolve source b.location))
        let body ← Reading.lift .notText (Text.decode bytes)
        b.runScript key (String.ofList body))
      (do
        let bytes ← Reading.lift .resource
          (b.reader.environment.documents.load (Path.resolve source b.location))
        let body ← Reading.lift .notText (Text.decode bytes)
        b'.runScript key (String.ofList body)) := by
    intro key
    refine h.andThen (h.lift _ fun _ _ => rfl) fun bytes => ?_
    exact h.andThen (h.lift _ fun _ _ => rfl) fun body => h.runScript ha hb
  obtain ⟨rfl, rfl⟩ := hb
  unfold Builder.runScriptFile
  dsimp only
  rw [ha.documents]
  split
  · exact h.andThen (h.pure rfl) hrun
  · exact h.andThen (h.fail rfl) hrun

theorem openScript : Ψ (Paired r r') (b.openScript name closing place)
    (b'.openScript name closing place) := by
  unfold Builder.openScript
  split
  · exact h.fail rfl
  · split
    · exact h.fail rfl
    · dsimp only
      split
      · refine h.bind (h.runScriptFile ha hb) fun c c' hc => ?_
        obtain ⟨hr, rfl⟩ := hc
        exact h.pure ⟨hr, rfl⟩
      · obtain ⟨rfl, rfl⟩ := hb
        split
        · exact h.pure ⟨rfl, rfl⟩
        · exact h.fail rfl

theorem opened {attributes : List Attribute}
    (hread : ∀ i, (Event.opened name attributes place).inclusion? = some i →
      Ψ (· = ·) (r.readIncluded nested b.location i) (r'.readIncluded nested' b.location i)) :
    Ψ (Paired r r') (b.opened nested name attributes place)
      (b'.opened nested' name attributes place) := by
  cases htake : takeId attributes with
  | error f =>
    obtain ⟨key, rfl⟩ := takeId_error htake
    simp only [Builder.opened, htake]
    exact h.fail rfl
  | ok pair =>
    simp only [Builder.opened, htake, Reading.lift, pure_bind]
    split
    · rename_i hcontrol
      split
      · rename_i hinclude
        rw [Builder.openInclude_eq, Builder.openInclude_eq]
        split
        · exact h.fail rfl
        · rename_i i hi
          have hi : (Event.opened name attributes place).inclusion? = some i := by
            simp [Event.inclusion?, hcontrol, hinclude, htake, Except.toOption, hi]
          obtain ⟨rfl, rfl⟩ := hb
          exact h.bind (hread i hi) fun d _ hd => hd ▸ h.pure ⟨rfl, rfl⟩
      · split
        · exact h.openScript ha hb
        · exact h.fail rfl
    · split
      · exact h.openObject ha hb
      · exact h.openProperty hb

omit ha hb in
theorem addListeners {names : Registry} {property : String} {list : ObjectId} {ids : List String} :
    Ψ (· = ·) (Builder.addListeners names property list ids)
      (Builder.addListeners names property list ids) := by
  induction ids with
  | nil => exact h.pure rfl
  | cons id rest ih =>
    refine h.andThen ?_ fun _ => ih
    unfold Builder.addListener
    refine h.andThen h.heap fun heap => ?_
    split
    · exact h.fail rfl
    · split
      · exact h.setHeap _
      · exact h.fail rfl
    · exact h.fail rfl

omit ha hb in
theorem applyProperty {c : Context} {id : ObjectId} {a : Attribute} :
    Ψ (· = ·) (Builder.applyProperty c id a) (Builder.applyProperty c id a) := by
  unfold Builder.applyProperty
  refine h.andThen h.heap fun heap => ?_
  dsimp only
  split
  · exact h.fail rfl
  · split
    · split
      · exact h.fail rfl
      · exact h.addListeners
    · exact h.fail rfl
    · exact h.andThen (h.lift _ fun _ _ => rfl) fun _ => h.put _ _ _

theorem applyAttributes {e : Element} {attributes : List Attribute} :
    Ψ (· = ·) (b.applyAttributes e attributes) (b'.applyAttributes e attributes) := by
  obtain ⟨rfl, rfl⟩ := hb
  have hcontext : ({ b with reader := r' } : Builder).context = b.context := by
    simp [Builder.context, ha.resources]
  have hall : ∀ id, Ψ (· = ·) (b.applyAll e id attributes)
      (({ b with reader := r' } : Builder).applyAll e id attributes) := by
    intro id
    induction attributes with
    | nil => exact h.pure rfl
    | cons a rest ih =>
      refine h.bind (A := (· = ·)) ?_ fun _ _ _ => ih
      unfold Builder.applyAttribute
      rw [hcontext]
      split
      · unfold Builder.applyAttached
        rw [hcontext, ha.types]
        split
        · exact h.fail rfl
        · split
          · exact h.fail rfl
          · dsimp only
            split
            · exact h.fail rfl
            · exact h.andThen (h.lift _ fun _ _ => rfl) fun value => h.attach _
      · exact h.applyProperty
  unfold Builder.applyAttributes
  split
  · exact h.pure rfl
  · split
    · exact h.fail rfl
    · exact hall _

omit ha in
theorem join {value : Value} : Ψ (Paired r r') (b.join value place) (b'.join value place) := by
  obtain ⟨rfl, rfl⟩ := hb
  have hjoin : ∀ parent, Ψ (· = ·) (Builder.joinObject parent value place)
      (Builder.joinObject parent value place) := by
    intro parent
    unfold Builder.joinObject
    split
    · exact h.fail rfl
    · refine h.andThen h.heap fun heap => ?_
      split
      · exact h.andThen (h.lift _ fun _ _ => rfl) h.setHeap
      · split
        · exact h.setHeap _
        · exact h.fail rfl
        · exact h.fail rfl
  unfold Builder.join
  dsimp only
  split
  · exact h.pure ⟨rfl, rfl⟩
  · split
    · exact h.pure ⟨rfl, rfl⟩
    · exact h.fail rfl
    · exact h.andThen (hjoin _) fun _ => h.pure ⟨rfl, rfl⟩

omit ha in
theorem closeAssignment {e : Element} {value : Value}
    (hmissing : (b.stack.head?.bind fun parent => parent.value.object?) = none →
      ∀ f l, Ψ (Paired r r') (.fail (.malformed f l)) (.fail (.malformed f l))) :
    Ψ (Paired r r') (b.closeAssignment e value) (b'.closeAssignment e value) := by
  obtain ⟨rfl, rfl⟩ := hb
  unfold Builder.closeAssignment
  dsimp only
  split
  · rename_i hnone
    exact hmissing hnone _ _
  · refine h.andThen h.heap fun heap => ?_
    split
    · exact h.fail rfl
    · split
      · exact h.andThen (h.put _ _ _) fun _ => h.pure ⟨rfl, rfl⟩
      · split
        · exact h.fail rfl
        · exact h.andThen (h.put _ _ _) fun _ => h.pure ⟨rfl, rfl⟩

theorem closed (hfault : ¬b.Orderly →
      ∀ f l, Ψ (Paired r r') (.fail (.malformed f l)) (.fail (.malformed f l))) :
    Ψ (Paired r r') (b.closed place) (b'.closed place) := by
  have hrooted : ∀ {c c' : Builder} (v : Value), Paired r r' c c' →
      Paired r r' (c.rooted v) (c'.rooted v) := by
    rintro c c' v ⟨rfl, rfl⟩
    unfold Builder.rooted
    dsimp only
    split <;> exact ⟨rfl, rfl⟩
  have hnamed : ∀ {c c' : Builder} id v names, Paired r r' c c' →
      Paired r r' (c.bindName id v names) (c'.bindName id v names) := by
    rintro c c' id v names ⟨rfl, rfl⟩
    cases id <;> cases names <;> exact ⟨rfl, rfl⟩
  obtain ⟨rfl, rfl⟩ := hb
  unfold Builder.closed
  dsimp only
  -- Of the failures only two may be told apart: for no open element, and for a property without an
  -- object around it. In an orderly builder there is neither.
  split
  · rename_i hempty
    exact hfault (fun ho => ho.inside hempty) _ _
  · rename_i e rest hstack
    have hrest : Paired b.reader r' { b with stack := rest }
        { b with stack := rest, reader := r' } := ⟨rfl, rfl⟩
    split
    · rename_i value hcontent
      refine h.closeAssignment hrest fun hnone => hfault fun ho => ?_
      have hsome := ho.enclosed e rest hstack (by simp [Element.isProperty, hcontent])
      obtain _ | ⟨parent, below⟩ := rest
      · cases hsome
      · have hvalue : parent.value.object? = none := hnone
        simp [Element.holder?, hvalue] at hsome
    · exact h.pure (hrooted _ hrest)
    · exact h.bind (h.runScript ha hrest) fun _ _ hc => h.pure (hrooted _ hc)
    · refine h.bind (h.applyAttributes ha hrest) fun _ _ _ => ?_
      exact h.bind (h.join (hnamed _ _ _ hrest)) fun _ _ hc => h.pure (hrooted _ hc)
    · refine h.bind (h.applyAttributes ha hrest) fun _ _ _ => ?_
      exact h.bind (h.join (hnamed _ _ _ hrest)) fun _ _ hc => h.pure (hrooted _ hc)
    · exact h.bind (h.applyAttributes ha hrest) fun _ _ _ =>
        h.pure (hrooted _ (hnamed _ _ _ hrest))

omit ha in
theorem text {content : String} : Ψ (Paired r r') (b.text content) (b'.text content) := by
  obtain ⟨rfl, rfl⟩ := hb
  have hsame : Paired b.reader r' b { b with reader := r' } := ⟨rfl, rfl⟩
  unfold Builder.text
  dsimp only
  split
  · exact h.pure hsame
  · split
    · exact h.pure ⟨rfl, rfl⟩
    · split
      · exact h.pure hsame
      · exact h.pure ⟨rfl, rfl⟩
    · split
      · exact h.pure hsame
      · refine h.andThen h.heap fun heap => ?_
        split
        · refine h.andThen (h.lift _ fun _ _ => rfl) fun _ => ?_
          exact h.andThen (h.setHeap _) fun _ => h.pure hsame
        · exact h.pure hsame
    · exact h.pure hsame

/-- An event, where the relation allows for faults that do not arise. -/
theorem step {e : Event}
    (hread : ∀ i, e.inclusion? = some i →
      Ψ (· = ·) (r.readIncluded nested b.location i) (r'.readIncluded nested' b.location i))
    (hfault : ∀ place, e = .closed place → ¬b.Orderly →
      ∀ f l, Ψ (Paired r r') (.fail (.malformed f l)) (.fail (.malformed f l))) :
    Ψ (Paired r r') (b.step nested e) (b'.step nested' e) := by
  cases e with
  | opened name attributes location => exact h.opened ha hb hread
  | closed location => exact h.closed ha hb (hfault location rfl)
  | text content location => exact h.text hb

end Stepwise

/-- The same session, with something known of the open documents. -/
def Same (K : Guard → Prop) (s t : Session) : Prop := s = t ∧ K s.guard

variable {K : Guard → Prop} {α : Type}

theorem Follows.of_kept {x : Reading α}
    (h : ∀ s, K s.guard → K (x.perform s).2.guard) :
    Follows (Same K) (fun _ => False) (· = ·) x x := by
  rintro s _ ⟨rfl, hs⟩
  have hk := h s hs
  revert hk
  generalize x.perform s = result
  intro hk
  obtain ⟨e | a, t⟩ := result
  · exact .error e ⟨rfl, hk⟩
  · exact .ok rfl ⟨rfl, hk⟩

/-- Doing the same and leaving the open documents alone is such a relation. -/
theorem stepwise_follows (K : Guard → Prop) :
    Stepwise fun A x y => Follows (Same K) (fun _ => False) A x y where
  pure := .pure
  fail := fun _ => .fail _
  bind := .bind
  heap := .of_kept fun _ hs => hs
  setHeap := fun _ => .of_kept fun _ hs => hs
  attach := fun f => .of_kept fun s hs => by
    change K (Reading.perform (do
      let log ← Reading.lift .property (f s)
      set { s with attached := log }) s).2.guard
    cases hf : f s with
    | error e => exact hs
    | ok log => exact hs

/-- Such a relation is also failing with the errors alone that a document can have by itself, and
maybe others. -/
theorem stepwise_fails {P : ReadError → Prop} (hown : ∀ e, e.isOwn = true → P e) :
    Stepwise fun A x y =>
      Follows (Same fun _ => True) (fun _ => False) A x y ∧ FailsWith P x where
  pure := fun h => ⟨.pure h, .pure _⟩
  fail := fun he => ⟨.fail _, .fail (hown _ he)⟩
  bind := fun hx hf => by
    refine ⟨.bind hx.1 fun a b hab => (hf a b hab).1, ?_⟩
    intro s e t h
    rcases bind_eq_error.mp h with h | ⟨a, u, ha, h⟩
    · exact hx.2 s e t h
    · obtain ⟨b, -, -, hab, -⟩ := hx.1.ok_of_ok ⟨rfl, trivial⟩ ha
      exact (hf a b hab).2 u e t h
  heap := ⟨.of_kept fun _ hs => hs, .heap⟩
  setHeap := fun _ => ⟨.of_kept fun _ hs => hs, .setHeap _⟩
  attach := fun f => by
    refine ⟨.of_kept fun _ _ => trivial, ?_⟩
    refine .bind (fun s e t h => nomatch h) fun s => ?_
    exact .bind (.lift fun e _ => hown _ rfl) fun log => fun s e t h => nomatch h

/-- An event fails with errors of the document itself, or with those of what it includes. -/
theorem FailsWith.step {P : ReadError → Prop} {b : Builder} {e : Event}
    {nested : Reader → String → Reading Document} (hown : ∀ error, error.isOwn = true → P error)
    (hread : ∀ i, e.inclusion? = some i → FailsWith P (b.reader.readIncluded nested b.location i))
    (hfault : ∀ place, e = .closed place → ¬b.Orderly → ∀ f l, P (.malformed f l)) :
    FailsWith P (b.step nested e) :=
  ((stepwise_fails hown).step (Reader.Alike.refl b.reader) ⟨rfl, rfl⟩
    (fun i hi => ⟨.of_kept fun _ _ => trivial, hread i hi⟩)
    fun place he ho f l => ⟨.fail _, .fail (hfault place he ho f l)⟩).2

end Reading

end ObjectMarkup
