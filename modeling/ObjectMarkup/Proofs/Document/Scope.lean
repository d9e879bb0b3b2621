import ObjectMarkup.Proofs.Document.NameTimeline
import ObjectMarkup.Proofs.Document.Visit

namespace ObjectMarkup

open Markup

/-- A builder that knows what attributes are resolved against, and nothing else of a document. -/
def Context.builder (c : Context) (environment : Environment) : Builder :=
  ⟨⟨environment, c.resources⟩, c.location, c.names, [], none⟩

theorem Builder.applyAttributes_eq (b : Builder) (e : Element) (attributes : List Attribute) :
    b.applyAttributes e attributes =
      (b.context.builder b.reader.environment).applyAttributes e attributes := by
  have hall : ∀ id, b.applyAll e id attributes =
      (b.context.builder b.reader.environment).applyAll e id attributes := by
    intro id
    induction attributes with
    | nil => rfl
    | cons a rest ih =>
      rw [applyAll, applyAll, ih]
      rfl
  unfold applyAttributes
  simp only [hall]

namespace Visit

variable {r : Reader} {location : Option String} {text : List Char} {s t : Session}
  {outers : List Visit} {v w : Visit} {taken : List Delivery} {b : Builder} {ahead : List Signal}
  {element : Element} {closing : Closing}

/-- A document without a bundle of its own is read with the one around it. -/
theorem Enters.reader_eq (h : v.Enters w) (hname : w.bundleName = none) : w.reader = v.reader := by
  cases h with
  | @intro t i reader guard text asks entered found =>
    have hnone : i.resources = none := hname
    have hreader := asks.reader
    rw [Reader.forInclusion, hnone] at hreader
    exact (Except.ok.inj hreader).symm

theorem Enters.loaded (h : v.Enters w) {baseName : String} (hname : w.bundleName = some baseName) :
    ∃ bundle, v.reader.loadBundle baseName none = .ok bundle ∧
      w.reader.resources = some bundle := by
  cases h with
  | @intro t i reader guard text asks entered found =>
    have hsome : i.resources = some baseName := hname
    have hreader := asks.reader
    rw [Reader.forInclusion, hsome] at hreader
    cases hload : v.reader.loadBundle baseName none with
    | error e =>
      simp only [hload] at hreader
      cases hreader
    | ok bundle =>
      simp only [hload] at hreader
      cases hreader
      exact ⟨bundle, rfl, rfl⟩

/-- What the start of an inclusion puts on the stack stands for the root of the document that was
entered there. -/
theorem entered {d : Delivery} {i : Inclusion} {c : Builder} {u : Session}
    (h : Builder.Reached Reader.read v.reader v.text v.location v.session taken b t ahead)
    (hd : d ∈ taken) (hi : d.event.inclusion? = some i)
    (hstep : (d.builder.step Reader.read d.event).perform d.session = (.ok c, u))
    (hstack : c.stack = element :: d.builder.stack) :
    ∃ w document u', v.Enters w ∧ w.location = some (i.path v.location) ∧
      w.bundleName = i.resources ∧ w.run = (.ok document, u') ∧ element.value = document.root := by
  obtain ⟨front, back, hsplit⟩ := List.append_of_mem hd
  obtain ⟨after, hbefore⟩ := h.before_taken hsplit
  obtain ⟨reader, document, _, _, _, hasks, hread, rfl⟩ := Visit.inclusion_ok hi hbefore hstep
  obtain ⟨w, u', henters, hlocation, hname, hrun⟩ := hasks.enters_of_read hread
  refine ⟨w, document, u', henters, hlocation, hname, hrun, ?_⟩
  rw [← (List.cons.inj hstack).1]
  rfl

/-- Where the attributes of an element come from: its start tag is in the text of the document `v`.
Where that is an inclusion, the element stands for the root of the document entered there. -/
def Writes (v : Visit) (element : Element) (closing : Closing) : Prop :=
  ∃ attributes own, Event.opened element.name attributes element.location ∈
      documentEvents (Text.dropMark v.text) ∧
    takeId attributes = .ok (closing.id, own) ∧ (∀ a ∈ closing.attributes, a ∈ own) ∧
    (element.kind = .inclusion → ∃ i w d u,
      (Event.opened element.name attributes element.location).inclusion? = some i ∧
      v.Enters w ∧ w.location = some (i.path v.location) ∧ w.bundleName = i.resources ∧
      w.run = (.ok d, u) ∧ element.value = d.root)

/-- An element that waits to apply attributes has them from its start tag. -/
theorem writes (h : Builder.Reached Reader.read v.reader v.text v.location v.session taken b t ahead)
    (he : element ∈ b.stack) (hclosing : element.closing? = some closing) :
    v.Writes element closing := by
  obtain ⟨d, hd, attributes, c, u, hevent, hstep, hstack⟩ :=
    h.pushed element (.inl he) (by simp [hclosing])
  have hmem := h.taken_documentEvents hd
  have hentered := fun i hi => entered (i := i) h hd hi hstep hstack
  rw [hevent] at hstep hmem hentered
  obtain ⟨id, own, content, names, htake, hopens, -, rfl⟩ := Builder.opened_ok hstep
  have hpushed : (⟨element.name, element.location, content⟩ : Element) = element :=
    (List.cons.inj hstack).1
  refine ⟨attributes, own, hmem, ?_⟩
  rw [← hpushed] at hclosing
  cases hopens with
  | object o plain =>
    cases hclosing
    exact ⟨htake, fun a ha => ha, fun hkind => by rw [← hpushed] at hkind; cases hkind⟩
  | composite o plain inside =>
    cases hclosing
    exact ⟨htake, fun a ha => ha, fun hkind => by rw [← hpushed] at hkind; cases hkind⟩
  | assignment plain inside bare => cases hclosing
  | inclusion source reader document control tag found same read =>
    cases hclosing
    refine ⟨htake, fun a ha => (List.mem_filter.mp ha).1, fun _ => ?_⟩
    have hi : (Event.opened element.name attributes element.location).inclusion? =
        some ⟨source, plainValue? own "resources"⟩ := by
      simp [Event.inclusion?, control, tag, htake, Except.toOption, inclusionOf?, found]
    obtain ⟨w, d', u', hw⟩ := hentered _ hi
    exact ⟨_, w, d', u', hi, hw⟩
  | script inline control tag bare => cases hclosing

end Visit

end ObjectMarkup
