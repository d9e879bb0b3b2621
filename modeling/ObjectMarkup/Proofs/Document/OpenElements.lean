import ObjectMarkup.Proofs.Document.Faults
import ObjectMarkup.Proofs.Document.Run

namespace ObjectMarkup

open Markup

def Value.IsRoot (v : Value) : Prop := v = .null ∨ ∃ o, v = .object o

namespace Builder

/-- What a builder keeps to between events. -/
structure Sound (b : Builder) : Prop where
  bottom : ∀ e, b.stack.getLast? = some e →
    e.kind = .object ∨ e.kind = .inclusion ∨ e.kind = .script
  enclosed : ∀ front e rest, b.stack = front ++ e :: rest →
    e.kind = .composite ∨ e.kind = .assignment →
    ∃ parent below o, rest = parent :: below ∧ parent.value = .object o ∧
      (parent.kind = .object ∨ parent.kind = .inclusion ∨ parent.kind = .composite)
  objects : ∀ e ∈ b.stack, e.kind = .object ∨ e.kind = .composite → ∃ o, e.value = .object o
  inclusions : ∀ e ∈ b.stack, e.kind = .inclusion → e.value.IsRoot
  scripts : ∀ e ∈ b.stack, e.kind = .script → e.value = .null
  bare : ∀ e ∈ b.stack, e.kind = .assignment ∨ e.kind = .script → e.id? = none ∧ e.pending = []
  names : ∀ e ∈ b.stack, e.names?.isSome → e.kind = .inclusion
  inlines : ∀ e ∈ b.stack, e.inline?.isSome → e.kind = .script
  unrooted : b.stack ≠ [] → b.root = none

/-- What of it has to be carried from event to event. -/
structure Nested (b : Builder) : Prop where
  enclosed : ∀ e rest, e :: rest <:+ b.stack → e.isProperty = true →
    (rest.head?.bind Element.holder?).isSome
  inclusions : ∀ e ∈ b.stack, e.kind = .inclusion → e.value.IsRoot
  root : ∀ v, b.root = some v → v.IsRoot

variable {nested : Reader → String → Reading Document} {r : Reader} {source : List Char}
  {location : Option String} {s t t' : Session} {taken : List Delivery} {b b' : Builder}
  {ahead : List Signal} {e : Event}

/-- An element of a retouched stack has the place of one that was there before. -/
theorem Retouched.suffix {stack stack' rest : List Element} {e : Element}
    (h : Retouched stack stack') (hs : e :: rest <:+ stack') :
    ∃ old, old :: rest <:+ stack ∧ old.isProperty = e.isProperty ∧
      (e.kind = .inclusion → old = e) := by
  cases h with
  | same => exact ⟨e, hs, rfl, fun _ => rfl⟩
  | @assignment old below v new was =>
    rcases List.suffix_cons_iff.mp hs with he | hs
    · cases he
      exact ⟨old, List.suffix_rfl, by simp [Element.isProperty, was], by rintro ⟨⟩⟩
    · exact ⟨e, hs.trans (List.suffix_cons ..), rfl, fun _ => rfl⟩
  | @script old below v new was =>
    rcases List.suffix_cons_iff.mp hs with he | hs
    · cases he
      exact ⟨old, List.suffix_rfl, by simp [Element.isProperty, was], by rintro ⟨⟩⟩
    · exact ⟨e, hs.trans (List.suffix_cons ..), rfl, fun _ => rfl⟩

theorem suffix_of_mem {e : Element} {stack : List Element} (h : e ∈ stack) :
    ∃ rest, e :: rest <:+ stack := by
  obtain ⟨front, rest, rfl⟩ := List.append_of_mem h
  exact ⟨rest, List.suffix_append ..⟩

theorem Nested.retouch {stack : List Element} (h : b.Nested) (hr : Retouched b.stack stack) :
    Nested { b with stack } where
  enclosed := by
    intro e rest hs he
    obtain ⟨old, hold, hprop, -⟩ := hr.suffix hs
    exact h.enclosed old rest hold (hprop.trans he)
  inclusions := by
    intro e hm hk
    obtain ⟨rest, hs⟩ := suffix_of_mem hm
    obtain ⟨old, hold, -, heq⟩ := hr.suffix hs
    have he := heq hk
    subst he
    exact h.inclusions old (hold.subset (by simp)) hk
  root := h.root

theorem Nested.tail {e : Element} {rest : List Element} (h : b.Nested)
    (hstack : b.stack = e :: rest) : Nested { b with stack := rest } where
  enclosed := fun _ _ hs =>
    h.enclosed _ _ (hstack ▸ hs.trans (List.suffix_cons ..))
  inclusions := fun _ hm => h.inclusions _ (hstack ▸ List.mem_cons_of_mem _ hm)
  root := h.root

theorem Nested.outermost {e : Element} (h : b.Nested) (hstack : b.stack = [e]) :
    e.value.IsRoot := by
  have hprop := h.enclosed e [] (hstack ▸ List.suffix_rfl)
  have hincl := h.inclusions e (by simp [hstack])
  unfold Element.isProperty at hprop
  unfold Element.kind at hincl
  unfold Element.value at hincl ⊢
  cases hc : e.content <;> simp_all [Value.IsRoot]

theorem Nested.opened {name : QualifiedName} {closing : Closing} {place : Location}
    {content : Content} (h : b.Nested)
    (hroots : ∀ r l s d t, (nested r l).perform s = (.ok d, t) → d.root.IsRoot)
    (ho : b.Opens nested s t name closing content) :
    Nested { b with stack := ⟨name, place, content⟩ :: b.stack } where
  enclosed := by
    intro e rest hs he
    rcases List.suffix_cons_iff.mp hs with hn | hs
    · cases hn
      cases ho with
      | object => simp [Element.isProperty] at he
      | composite o plain inside => exact inside
      | assignment plain inside bare => exact inside
      | inclusion => simp [Element.isProperty] at he
      | script => simp [Element.isProperty] at he
    · exact h.enclosed e rest hs he
  inclusions := by
    intro e hm hk
    rcases List.mem_cons.mp hm with rfl | hm
    · cases ho with
      | inclusion source reader document control tag found same read =>
        exact hroots _ _ _ _ _ read
      | _ => cases hk
    · exact h.inclusions e hm hk
  root := h.root

theorem Nested.names (h : b.Nested) (names : Registry) : Nested { b with names } :=
  ⟨h.enclosed, h.inclusions, h.root⟩

theorem Nested.step (h : b.Nested)
    (hroots : ∀ r l s d t, (nested r l).perform s = (.ok d, t) → d.root.IsRoot)
    (hs : (b.step nested e).perform t = (.ok b', t')) : b'.Nested := by
  cases e with
  | opened name attributes location =>
    obtain ⟨id, own, content, names, -, ho, -, rfl⟩ := opened_ok hs
    exact (h.opened hroots ho).names names
  | text content location =>
    obtain ⟨stack, hr, rfl⟩ := text_ok hs
    exact h.retouch hr
  | closed location =>
    obtain ⟨e, rest, stack, names, hstack, hr, -, rfl⟩ := closed_ok hs
    have hrest := ((h.tail hstack).retouch hr).names names
    refine ⟨hrest.enclosed, hrest.inclusions, ?_⟩
    intro v hv
    cases rest with
    | nil =>
      cases hv
      exact h.outermost hstack
    | cons parent below => exact h.root v (by simpa using hv)

theorem Reached.elements_nested (h : Reached nested r source location s taken b t ahead)
    (hroots : ∀ r l s d t, (nested r l).perform s = (.ok d, t) → d.root.IsRoot) : b.Nested := by
  induction h with
  | start =>
    refine ⟨?_, by rintro _ ⟨⟩, by rintro _ ⟨⟩⟩
    intro e rest hs
    cases List.suffix_nil.mp hs
  | event before step ih => exact ih.step hroots step
  | checkpoint before unfinished ih => exact ih

end Builder

theorem Reader.readNested_root {room : Nat} {r : Reader} {l : String} {s t : Session}
    {d : Document} (h : (readNested room r l).perform s = (.ok d, t)) : d.root.IsRoot := by
  induction room generalizing r l s d t with
  | zero => cases h
  | succ room ih =>
    obtain ⟨guard, u, -, hbody, -⟩ := Reading.within_eq_ok.mp h
    obtain ⟨bytes, v, -, hbytes⟩ := Reading.bind_eq_ok.mp hbody
    obtain ⟨source, w, -, hparse⟩ := Reading.bind_eq_ok.mp hbytes
    obtain ⟨taken, b, ahead, hreached, -, hroot, -⟩ := Builder.parse_ok hparse
    exact (hreached.elements_nested fun _ _ _ _ _ => ih).root d.root hroot

namespace Builder

variable {r : Reader} {source : List Char} {location : Option String} {s t : Session}
  {taken : List Delivery} {b : Builder} {ahead : List Signal} {room : Nat}

theorem Nested.holder {front rest : List Element} {e : Element} (h : b.Nested)
    (hstack : b.stack = front ++ e :: rest) (he : e.isProperty = true) :
    ∃ parent below o, rest = parent :: below ∧ parent.value = .object o ∧
      (parent.kind = .object ∨ parent.kind = .inclusion ∨ parent.kind = .composite) := by
  have hin := h.enclosed e rest (hstack ▸ List.suffix_append ..) he
  cases rest with
  | nil => cases hin
  | cons parent below =>
    obtain ⟨o, ho⟩ := Option.isSome_iff_exists.mp hin
    refine ⟨parent, below, o, rfl, ?_⟩
    simp only [List.head?_cons, Option.bind_some, Element.holder?] at ho
    split at ho
    · rename_i hholds
      refine ⟨Value.eq_of_object? ho, ?_⟩
      unfold Element.holdsProperties at hholds
      unfold Element.kind
      cases hc : parent.content <;> simp_all
    · cases ho

theorem Reached.sound (h : Reached (Reader.readNested room) r source location s taken b t ahead) :
    b.Sound := by
  have hn := h.elements_nested fun _ _ _ _ _ => Reader.readNested_root
  have hproperty : ∀ e : Element, e.kind = .composite ∨ e.kind = .assignment →
      e.isProperty = true := by
    intro e
    unfold Element.kind Element.isProperty
    cases e.content <;> simp
  constructor
  case bottom =>
    intro e he
    obtain ⟨front, hfront⟩ := List.getLast?_eq_some_iff.mp he
    by_cases hp : e.isProperty = true
    · obtain ⟨parent, below, o, hnil, -⟩ := hn.holder hfront hp
      cases hnil
    · unfold Element.isProperty at hp
      unfold Element.kind
      cases hc : e.content <;> simp_all
  case enclosed => exact fun front e rest hstack hk => hn.holder hstack (hproperty e hk)
  case objects =>
    intro e _
    unfold Element.kind Element.value
    cases e.content <;> simp
  case inclusions => exact hn.inclusions
  case scripts =>
    intro e _
    unfold Element.kind Element.value
    cases e.content <;> simp
  case bare =>
    intro e _
    unfold Element.kind Element.id? Element.pending Element.closing?
    cases e.content <;> simp
  case names =>
    intro e _
    unfold Element.names? Element.kind
    cases e.content <;> simp
  case inlines =>
    intro e _
    unfold Element.inline? Element.kind
    cases e.content <;> simp
  case unrooted => exact h.root_eq_none_of_open

theorem Reached.orderly {place : Location}
    (h : Reached (Reader.readNested room) r source location s taken b t
      (.event (.closed place) :: ahead)) : b.Orderly := by
  have hn := h.elements_nested fun _ _ _ _ _ => Reader.readNested_root
  exact ⟨h.stack_ne_nil, fun e rest hstack => hn.enclosed e rest (hstack ▸ List.suffix_rfl)⟩

/-- A moment with a root is the last: whatever is done with events, none is ahead of it. -/
theorem Reached.deliver_of_root (h : Reached (Reader.readNested room) r source location s taken b t ahead)
    (hroot : b.root.isSome = true) (handle : Builder → Event → Reading Builder)
    (refuse : Builder → MarkupFault → Reading Builder) :
    Markup.deliver handle finished refuse ahead b = pure b := by
  rcases h.balance with ⟨hnone, -, -⟩ | ⟨-, -, hahead, -⟩
  · rw [hnone] at hroot
    cases hroot
  · obtain ⟨rest, rfl⟩ := List.head?_eq_some_iff.mp hahead
    simp only [Markup.deliver, finished, hroot, if_true]

end Builder

namespace Reader

open Reading (FailsWith)

variable {r : Reader} {room : Nat}

/-- Reading a document fails with errors that can arise, if reading those it includes does. -/
theorem parse_fails {source : List Char} {location : Option String}
    (hn : ∀ r l, FailsWith ReadError.Possible (readNested room r l)) :
    FailsWith ReadError.Possible (r.parse (readNested room) source location) := by
  intro s error t h
  rcases Builder.parse_error h with ⟨taken, b, u, e, rest, hreached, hstep⟩ | ⟨f, rfl⟩ |
    ⟨place, rfl | ⟨element, rfl⟩⟩
  · refine Builder.step_fails hn (fun place he => ?_) u error t hstep
    subst he
    exact hreached.orderly
  · rfl
  · rfl
  · rfl

theorem parseBytes_fails {bytes : Bytes} {location : Option String}
    (hn : ∀ r l, FailsWith ReadError.Possible (readNested room r l)) :
    FailsWith ReadError.Possible (r.parseBytes (readNested room) bytes location) :=
  .bind (.lift fun _ _ => rfl) fun _ => parse_fails hn

theorem readNested_fails (room : Nat) (r : Reader) (l : String) :
    FailsWith ReadError.Possible (readNested room r l) := by
  induction room generalizing r l with
  | zero => exact .fail rfl
  | succ room ih =>
    refine .within (fun _ => rfl) ?_
    exact .bind (.lift fun _ _ => rfl) fun _ => parseBytes_fails ih

end Reader

/-- At every moment of reading a document the open elements are in good order, and once the document
has a root no event is taken any more. So no read fails, in the document or in one that it includes,
for an end tag that ends nothing or for a property element that has no object around it. -/
theorem open_elements_sound (r : Reader) (room : Nat) :
    (∀ source location s taken b t ahead,
      Builder.Reached (Reader.readNested room) r source location s taken b t ahead →
      b.Sound ∧ (b.root.isSome = true → ∀ handle refuse,
        Markup.deliver handle Builder.finished refuse ahead b = (pure b : Reading Builder))) ∧
    (∀ s error t, ((∃ l, (r.readNested room l).perform s = (.error error, t)) ∨
        (∃ bytes location, (r.readBytes bytes location).perform s = (.error error, t)) ∨
        ∃ text, (r.readText text).perform s = (.error error, t)) →
      ∀ place, error.rootCause ≠ .malformed .unbalancedEnd place ∧
        ∀ element, error.rootCause ≠ .malformed (.noEnclosingObject element) place) := by
  constructor
  · intro source location s taken b t ahead h
    exact ⟨h.sound, h.deliver_of_root⟩
  · intro s error t h
    have hn := Reader.readNested_fails (Guard.maxDepth + 1)
    have hpossible : error.Possible := by
      rcases h with ⟨l, h⟩ | ⟨bytes, location, h⟩ | ⟨text, h⟩
      · exact Reader.readNested_fails room r l s error t h
      · exact Reading.FailsWith.within (fun _ => rfl) (Reader.parseBytes_fails hn) s error t h
      · exact Reading.FailsWith.within (fun _ => rfl) (Reader.parse_fails hn) s error t h
    exact error.not_unreachable hpossible

end ObjectMarkup
