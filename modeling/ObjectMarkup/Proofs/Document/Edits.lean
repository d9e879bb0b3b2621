import Mathlib.Logic.Relation
import Mathlib.Order.Defs.Unbundled
import ObjectMarkup.Proofs.Document.NameTimeline
import ObjectMarkup.Proofs.Document.Stepwise

namespace ObjectMarkup

open Markup

inductive Heap.Edit (h : Heap) : Heap → Prop
  | put {h' : Heap} {o : ObjectId} {name : String} {v : Value}
      (stored : h.put o name v = .ok h') : Edit h h'
  | item {h' : Heap} {o : ObjectId} {v : Value} {added : Except PropertyError Heap}
      (sequence : h.addItem? o v = some added) (taken : added = .ok h') : Edit h h'
  | listener {h' : Heap} {o p : ObjectId} (list : h.addListener? o p = some h') : Edit h h'

def Heap.Edits : Heap → Heap → Prop := Relation.ReflTransGen Heap.Edit

instance : IsPreorder Heap Heap.Edits where
  refl _ := .refl
  trans _ _ _ := .trans

theorem Heap.Edit.edits {h h' : Heap} (h₁ : h.Edit h') : h.Edits h' := .single h₁

theorem Reading.session_bind_pure {α β : Type} (x : Reading α) (f : α → β) (s : Session) :
    ((x >>= fun a => pure (f a)).perform s).2 = (x.perform s).2 := by
  rw [perform_bind]
  rcases x.perform s with ⟨e | a, t⟩ <;> rfl

/-- What a step makes of the objects, whether it succeeds or fails. -/
def Reading.Changes {α : Type} (R : Heap → Heap → Prop) (s : Session) (x : Reading α) : Prop :=
  R s.heap (x.perform s).2.heap

namespace Reading.Changes

variable {α β ε : Type} {R : Heap → Heap → Prop} {s : Session}

theorem of_perform {x : Reading α} {p : Except ReadError α × Session} (hp : x.perform s = p)
    (h : R s.heap p.2.heap) : Changes R s x := by
  subst hp
  exact h

theorem of_ok {x : Reading α} {a : α} {t : Session} (h : Changes R s x)
    (hx : x.perform s = (.ok a, t)) : R s.heap t.heap := by
  unfold Changes at h
  rw [hx] at h
  exact h

theorem setHeap {h : Heap} (hr : R s.heap h) : Changes R s (setHeap h) := hr

theorem heap_bind {f : Heap → Reading β} (h : Changes R s (f s.heap)) :
    Changes R s (Reading.heap >>= f) :=
  of_perform (perform_bind_of_ok (perform_heap s) f) h

variable [IsPreorder Heap R]

theorem pure (a : α) : Changes R s (Pure.pure a : Reading α) := refl s.heap

theorem fail (e : ReadError) : Changes R s (fail e : Reading α) := refl s.heap

theorem bind {x : Reading α} {f : α → Reading β} (hx : Changes R s x)
    (hf : ∀ a t, x.perform s = (.ok a, t) → Changes R t (f a)) : Changes R s (x >>= f) := by
  have hbind := perform_bind x f s
  unfold Changes at hx
  rcases hperform : x.perform s with ⟨e | a, t⟩
  · rw [hperform] at hbind hx
    exact of_perform hbind hx
  · rw [hperform] at hbind hx
    exact of_perform hbind (IsTrans.trans _ _ _ hx (hf a t hperform))

theorem lift (wrap : ε → ReadError) (x : Except ε α) : Changes R s (Reading.lift wrap x) := by
  cases x with
  | ok a => exact pure a
  | error e => exact fail (wrap e)

theorem lift_bind {wrap : ε → ReadError} {x : Except ε α} {f : α → Reading β}
    (h : ∀ a, x = .ok a → Changes R s (f a)) : Changes R s (Reading.lift wrap x >>= f) := by
  cases x with
  | ok a => exact h a rfl
  | error e => exact fail (wrap e)

theorem within {location : Option String} {body : Reading α}
    (h : ∀ guard, Changes R { s with guard } body) : Changes R s (within location body) := by
  have hperform := perform_within location body s
  cases henter : s.guard.enter location with
  | error e =>
    rw [henter] at hperform
    exact of_perform hperform (refl s.heap)
  | ok guard =>
    rw [henter] at hperform
    exact of_perform hperform (h guard)

/-- A step that only notes something in the log leaves the objects as they are. -/
theorem attach (log : Session → Except PropertyError (List AttachedValue)) :
    Changes R s (do
      let s ← get
      let new ← Reading.lift .property (log s)
      set { s with attached := new } : Reading Unit) := by
  have hnote : Changes R s (do
      let new ← Reading.lift .property (log s)
      set { s with attached := new } : Reading Unit) :=
    lift_bind fun _ _ => refl s.heap
  exact of_perform rfl hnote

end Reading.Changes

open Reading (Changes)

theorem Reading.edits_put {s : Session} (o : ObjectId) (name : String) (v : Value) :
    Changes Heap.Edits s (put o name v) :=
  .heap_bind (.lift_bind fun _ stored => .setHeap (Heap.Edit.put stored).edits)

namespace Builder

variable {b : Builder} {s : Session} {e : Element} {v : Value} {place : Location}

theorem edits_addListeners {names : Registry} {property : String} {list : ObjectId}
    (ids : List String) : Changes Heap.Edits s (addListeners names property list ids) := by
  induction ids generalizing s with
  | nil => exact .pure ()
  | cons id rest ih =>
    refine .bind ?_ fun _ _ _ => ih
    refine .heap_bind ?_
    split
    · exact .fail _
    · split
      · rename_i hadd
        exact .setHeap (Heap.Edit.listener hadd).edits
      · exact .fail _
    · exact .fail _

theorem edits_applyAttribute (o : ObjectId) (a : Attribute) :
    Changes Heap.Edits s (b.applyAttribute e o a) := by
  unfold applyAttribute
  split
  · unfold applyAttached
    split
    · exact .fail _
    · split
      · exact .fail _
      · dsimp only
        split
        · exact .fail _
        · exact .lift_bind fun _ _ => .attach _
  · unfold applyProperty
    refine .heap_bind ?_
    dsimp only
    split
    · exact .fail _
    · split
      · split
        · exact .fail _
        · exact edits_addListeners _
      · exact .fail _
      · exact .lift_bind fun _ _ => Reading.edits_put ..

theorem edits_applyAll (o : ObjectId) (attributes : List Attribute) :
    Changes Heap.Edits s (b.applyAll e o attributes) := by
  induction attributes generalizing s with
  | nil => exact .pure ()
  | cons a rest ih => exact (edits_applyAttribute o a).bind fun _ _ _ => ih

theorem edits_applyAttributes (attributes : List Attribute) :
    Changes Heap.Edits s (b.applyAttributes e attributes) := by
  unfold applyAttributes
  split
  · exact .pure ()
  · split
    · exact .fail _
    · exact edits_applyAll _ _

theorem edits_joinObject : Changes Heap.Edits s (joinObject e v place) := by
  unfold joinObject
  split
  · exact .fail _
  · rename_i o _
    refine .heap_bind ?_
    split
    · rename_i hadd
      exact .lift_bind fun _ taken => .setHeap (Heap.Edit.item hadd taken).edits
    · split
      · rename_i listener _ _
        refine .setHeap ?_
        cases hadd : s.heap.addListener? o listener with
        | none => exact refl s.heap
        | some h => exact (Heap.Edit.listener hadd).edits
      · exact .fail _
      · exact .fail _

theorem edits_join : Changes Heap.Edits s (b.join v place) := by
  unfold join
  split
  · exact .pure _
  · split
    · exact .pure _
    · exact .fail _
    · exact edits_joinObject.bind fun _ _ _ => .pure _

theorem edits_closeAssignment : Changes Heap.Edits s (b.closeAssignment e v) := by
  have hput : ∀ (o : ObjectId) (name : String) (v : Value), Changes Heap.Edits s (do
      Reading.put o name v
      return b) :=
    fun o name v => (Reading.edits_put o name v).bind fun _ _ _ => .pure _
  unfold closeAssignment
  split
  · exact .fail _
  · refine .heap_bind ?_
    dsimp only
    split
    · exact .fail _
    · split
      · exact hput _ _ _
      · split
        · exact .fail _
        · exact hput _ _ _

theorem edits_runScript (key body : String) : Changes Heap.Edits s (b.runScript key body) := by
  unfold runScript
  split
  · exact .fail _
  · exact .lift_bind fun _ _ => .pure _

theorem edits_settle : Changes Heap.Edits s (b.settle e) := by
  unfold settle
  split
  · exact edits_join.bind fun _ _ _ => .pure _
  · exact edits_join.bind fun _ _ _ => .pure _
  · exact .pure _
  · exact .pure _

theorem edits_closed : Changes Heap.Edits s (b.closed place) := by
  cases hstack : b.stack with
  | nil =>
    unfold closed
    rw [hstack]
    exact .fail _
  | cons e rest =>
    cases hclosing : e.closing? with
    | some closing =>
      rw [closed_eq hstack hclosing]
      exact (edits_applyAttributes _).bind fun _ _ _ => edits_settle
    | none =>
      unfold closed
      simp only [hstack]
      obtain ⟨name, location, content⟩ := e
      cases content with
      | assignment v => exact edits_closeAssignment
      | script inline =>
        cases inline with
        | none => exact .pure _
        | some script => exact (edits_runScript _ _).bind fun _ _ _ => .pure _
      | created o closing => cases hclosing
      | included root names closing => cases hclosing
      | composite o closing => cases hclosing

theorem edits_text (content : String) : Changes Heap.Edits s (b.text content) := by
  unfold text
  split
  · exact .pure _
  · split
    · exact .pure _
    · split
      · exact .pure _
      · exact .pure _
    · split
      · exact .pure _
      · refine .heap_bind ?_
        split
        · rename_i hadd
          refine .lift_bind fun _ taken => ?_
          exact (Changes.setHeap (Heap.Edit.item hadd taken).edits).bind fun _ _ _ => .pure _
        · exact .pure _
    · exact .pure _

theorem edits_openProperty {name : QualifiedName} {closing : Closing} :
    Changes Heap.Edits s (b.openProperty name closing place) := by
  unfold openProperty
  split
  · exact .fail _
  · refine .heap_bind ?_
    extract_lets o inPlace
    split
    · split
      · exact .pure _
      · exact .fail _
    · split
      · exact .fail _
      · exact .pure _

theorem edits_openScript {name : QualifiedName} {closing : Closing} :
    Changes Heap.Edits s (b.openScript name closing place) := by
  have hfile : ∀ source language, Changes Heap.Edits s (b.runScriptFile source language) := by
    intro source language
    unfold runScriptFile
    dsimp only
    split
    · rw [pure_bind]
      exact .lift_bind fun _ _ => .lift_bind fun _ _ => edits_runScript _ _
    · exact .fail _
  unfold openScript
  split
  · exact .fail _
  · split
    · exact .fail _
    · dsimp only
      split
      · exact (hfile _ _).bind fun _ _ _ => .pure _
      · split
        · exact .pure _
        · exact .fail _

/-- What an event may leave of the objects, whether it succeeds or fails. -/
inductive Leaves (nested : Reader → String → Reading Document) (b : Builder) (s : Session) :
    Event → Heap → Prop
  | edited {e : Event} {h : Heap} (edits : s.heap.Edits h) : Leaves nested b s e h
  | made {name : QualifiedName} {attributes : List Attribute} {place : Location} {space : String}
      {blueprint : Blueprint} (qualified : name.space = some space)
      (known : b.reader.environment.types.blueprint space name.localName = .ok blueprint) :
      Leaves nested b s (.opened name attributes place) (s.heap.build blueprint).2
  | included {e : Event} {i : Inclusion} {reader : Reader} (inclusion : e.inclusion? = some i)
      (own : b.reader.forInclusion i = .ok reader) :
      Leaves nested b s e ((nested reader (i.path b.location)).perform s).2.heap

variable {nested : Reader → String → Reading Document}

theorem leaves_opened {name : QualifiedName} {attributes : List Attribute} {place : Location} :
    b.Leaves nested s (.opened name attributes place)
      ((b.opened nested name attributes place).perform s).2.heap := by
  unfold opened
  cases htake : takeId attributes with
  | error f => exact .edited (refl s.heap)
  | ok taken =>
    obtain ⟨id, own⟩ := taken
    simp only [Reading.lift, pure_bind]
    split
    · rename_i control
      split
      · rename_i tag
        rw [openInclude_eq]
        split
        · exact .edited (refl s.heap)
        · rename_i i hi
          have hinclusion : (Event.opened name attributes place).inclusion? = some i := by
            simpa [Event.inclusion?, control, tag, htake, Except.toOption] using hi
          rw [Reading.session_bind_pure, Reader.readIncluded]
          cases hreader : b.reader.forInclusion i with
          | error cause => exact .edited (refl s.heap)
          | ok reader => exact .included hinclusion hreader
      · split
        · exact .edited edits_openScript
        · exact .edited (refl s.heap)
    · split
      · unfold openObject
        split
        · exact .edited (refl s.heap)
        · rename_i space hspace
          cases hblueprint : b.reader.environment.types.blueprint space name.localName with
          | error cause => exact .edited (refl s.heap)
          | ok blueprint => exact .made hspace hblueprint
      · exact .edited edits_openProperty

/-- An event changes objects that are there, makes the object of the element that it starts, or
reads the document that it includes. -/
theorem step_leaves (e : Event) :
    b.Leaves nested s e ((b.step nested e).perform s).2.heap := by
  cases e with
  | opened name attributes place => exact leaves_opened
  | closed place => exact .edited edits_closed
  | text content place => exact .edited (edits_text content)

end Builder

section

variable {R : Heap → Heap → Prop} [IsPreorder Heap R]
  (hedit : ∀ h h', Heap.Edit h h' → R h h') (hbuild : ∀ h blueprint, R h (Heap.build h blueprint).2)

include hedit

theorem Heap.Edits.changes {h h' : Heap} (edits : h.Edits h') : R h h' := by
  induction edits with
  | refl => exact refl h
  | tail _ edit ih => exact IsTrans.trans _ _ _ ih (hedit _ _ edit)

include hbuild

theorem Builder.changes_step {nested : Reader → String → Reading Document} {b : Builder} {s : Session}
    (hnested : ∀ r l s, Changes R s (nested r l)) (e : Event) : Changes R s (b.step nested e) := by
  have hleaves : b.Leaves nested s e ((b.step nested e).perform s).2.heap := step_leaves e
  unfold Changes
  generalize ((b.step nested e).perform s).2.heap = h at hleaves ⊢
  cases hleaves with
  | edited edits => exact edits.changes hedit
  | made qualified known => exact hbuild _ _
  | included inclusion own => exact hnested _ _ s

/-- A relation that goes with changes to objects that are there and with making new ones goes with
every read. -/
theorem Reader.changes_readNested (room : Nat) (r : Reader) (l : String) (s : Session) :
    Changes R s (readNested room r l) := by
  induction room generalizing r l s with
  | zero => exact .fail _
  | succ room ih =>
    have hdeliver : ∀ (signals : List Signal) (b : Builder) (s : Session),
        Changes R s (deliver (fun b e => Builder.step (readNested room) b e) Builder.finished
          (fun _ f => .fail (.markup f)) signals b) := by
      intro signals
      induction signals with
      | nil => exact fun b s => .pure b
      | cons signal rest ihs =>
        intro b s
        cases signal with
        | event e => exact (Builder.changes_step hedit hbuild ih e).bind fun c t _ => ihs c t
        | checkpoint =>
          simp only [deliver]
          split
          · exact .pure b
          · exact ihs b s
        | fault f => exact .fail _
    refine .within fun guard => .lift_bind fun bytes _ => .lift_bind fun source _ => ?_
    exact (hdeliver _ _ _).bind fun b t _ => .lift _ _
/-- What comes after an event of a run is made of what the event leaves. -/
theorem Builder.Reached.changes_since {room : Nat} {r : Reader} {source : List Char}
    {location : Option String} {s t u : Session} {taken front back : List Delivery} {b c : Builder}
    {ahead : List Signal} {d : Delivery}
    (h : Reached (Reader.readNested room) r source location s taken b t ahead)
    (hd : taken = front ++ d :: back)
    (hstep : (d.builder.step (Reader.readNested room) d.event).perform d.session = (.ok c, u)) :
    R u.heap t.heap := by
  induction h generalizing back with
  | start => simp at hd
  | @event taken b b' v v' e ahead before step ih =>
    rcases List.eq_nil_or_concat back with rfl | ⟨back, last, rfl⟩
    · obtain ⟨rfl, hlast⟩ := List.append_inj' hd rfl
      cases hlast
      rw [hstep] at step
      cases step
      exact refl _
    · have hd : taken ++ [⟨b, v, e⟩] = (front ++ d :: back) ++ [last] := by simpa using hd
      have hearlier := ih (List.append_inj' hd rfl).1
      have hchanges := changes_step hedit hbuild (b := b) (s := v)
        (Reader.changes_readNested hedit hbuild room) e
      exact IsTrans.trans _ _ _ hearlier (hchanges.of_ok step)
  | checkpoint before unfinished ih => exact ih hd

end

end ObjectMarkup
