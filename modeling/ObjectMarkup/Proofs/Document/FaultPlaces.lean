import ObjectMarkup.Proofs.Document.Run
import ObjectMarkup.Proofs.Document.Stepwise
import ObjectMarkup.Proofs.Markup.Namespaces

namespace ObjectMarkup

open Markup

open Reading (FailsWith)

/-- If the error is a fault of the structure, it is one at the given place. -/
def ReadError.FaultsAt (place : Location) (e : ReadError) : Prop :=
  ∀ f l, e = .malformed f l → l = place

theorem ReadError.FaultsAt.malformed (f : StructureFault) (place : Location) :
    (ReadError.malformed f place).FaultsAt place := by
  rintro _ _ ⟨⟩
  rfl

theorem Markup.Token.isTag_of_start {t : Token} {tag : List Char} (h : t.start? = some tag) :
    t.isTag = true := by
  cases t <;> first | rfl | cases h

namespace Builder

variable {nested : Reader → String → Reading Document} {b : Builder} {name : QualifiedName}
  {closing : Closing} {place : Location} {element : Element} {value : Value}

theorem openObject_faults :
    FailsWith (ReadError.FaultsAt place) (b.openObject name closing place) := by
  unfold openObject
  split
  · exact .fail (.malformed _ place)
  · exact .bind (.lift fun _ _ => nofun) fun _ => .bind (.build _) fun _ => .pure _

theorem openProperty_faults :
    FailsWith (ReadError.FaultsAt place) (b.openProperty name closing place) := by
  unfold openProperty
  split
  · exact .fail (.malformed _ place)
  · refine .bind .heap fun heap => ?_
    extract_lets o inPlace
    split
    · split
      · exact .pure _
      · exact .fail (.malformed _ place)
    · split
      · exact .fail (.malformed _ place)
      · exact .pure _

theorem forInclusion_faults {r : Reader} {i : Inclusion} {e : ReadError}
    (h : r.forInclusion i = .error e) : e.FaultsAt place := by
  unfold Reader.forInclusion at h
  split at h
  · cases h
  · rename_i baseName _
    unfold Reader.loadBundle at h
    split at h
    · cases h
      exact nofun
    · rename_i loader _
      generalize loader baseName (Option.orElse none fun _ => r.environment.locale) = loaded at h
      cases loaded with
      | error cause =>
        cases h
        exact nofun
      | ok bundle => cases h

theorem openInclude_faults :
    FailsWith (ReadError.FaultsAt place) (b.openInclude nested name closing place) := by
  rw [openInclude_eq]
  split
  · exact .fail (.malformed _ place)
  · refine .bind (.bind (.lift fun e he => forInclusion_faults he) fun reader => ?_) fun _ => .pure _
    -- An error of the included document comes out as an error of the inclusion.
    refine .mapError fun s e t _ => ?_
    cases e <;> exact nofun

theorem runScript_faults {key script : String} :
    FailsWith (ReadError.FaultsAt place) (b.runScript key script) := by
  unfold runScript
  split
  · exact .fail nofun
  · exact .bind (.lift fun _ _ => nofun) fun _ => .pure _

theorem openScript_faults :
    FailsWith (ReadError.FaultsAt place) (b.openScript name closing place) := by
  have hfile : ∀ source language,
      FailsWith (ReadError.FaultsAt place) (b.runScriptFile source language) := by
    intro source language
    have hrun : ∀ key : String, FailsWith (ReadError.FaultsAt place) (do
        let bytes ← Reading.lift .resource
          (b.reader.environment.documents.load (Path.resolve source b.location))
        let body ← Reading.lift .notText (Text.decode bytes)
        b.runScript key (String.ofList body)) := fun key =>
      .bind (.lift fun _ _ => nofun) fun _ => .bind (.lift fun _ _ => nofun) fun _ =>
        runScript_faults
    unfold runScriptFile
    dsimp only
    split
    · exact .bind (.pure _) hrun
    · exact .bind (.fail nofun) hrun
  unfold openScript
  split
  · exact .fail (.malformed _ place)
  · split
    · exact .fail (.malformed _ place)
    · dsimp only
      split
      · exact .bind (hfile _ _) fun _ => .pure _
      · split
        · exact .pure _
        · exact .fail (.malformed _ place)

theorem opened_faults {attributes : List Attribute} :
    FailsWith (ReadError.FaultsAt place) (b.opened nested name attributes place) := by
  unfold opened
  refine .bind (.lift fun f _ => .malformed f place) fun (id, own) => ?_
  dsimp only
  split
  · split
    · exact openInclude_faults
    · split
      · exact openScript_faults
      · exact .fail (.malformed _ place)
  · split
    · exact openObject_faults
    · exact openProperty_faults

theorem addListeners_faults {names : Registry} {property : String} {list : ObjectId}
    {ids : List String} :
    FailsWith (ReadError.FaultsAt place) (addListeners names property list ids) := by
  induction ids with
  | nil => exact .pure _
  | cons id rest ih =>
    refine .bind ?_ fun _ => ih
    unfold addListener
    refine .bind .heap fun heap => ?_
    split
    · exact .fail nofun
    · split
      · exact .setHeap _
      · exact .fail nofun
    · exact .fail nofun

theorem applyAttribute_faults {id : ObjectId} {a : Attribute} :
    FailsWith (ReadError.FaultsAt element.location) (b.applyAttribute element id a) := by
  unfold applyAttribute
  split
  · unfold applyAttached
    split
    · exact .fail (.malformed _ _)
    · split
      · exact .fail (.malformed _ _)
      · dsimp only
        split
        · exact .fail nofun
        · refine .bind (.lift fun _ _ => nofun) fun value => .bind (fun s e t h => nomatch h) fun s => ?_
          exact .bind (.lift fun _ _ => nofun) fun log => fun s e t h => nomatch h
  · unfold applyProperty
    refine .bind .heap fun heap => ?_
    dsimp only
    split
    · exact .fail nofun
    · split
      · split
        · exact .fail nofun
        · exact addListeners_faults
      · exact .fail nofun
      · exact .bind (.lift fun _ _ => nofun) fun _ => .put fun _ => nofun

theorem applyAttributes_faults {attributes : List Attribute} :
    FailsWith (ReadError.FaultsAt element.location) (b.applyAttributes element attributes) := by
  have hall : ∀ id, FailsWith (ReadError.FaultsAt element.location)
      (b.applyAll element id attributes) := by
    intro id
    induction attributes with
    | nil => exact .pure _
    | cons a rest ih => exact .bind applyAttribute_faults fun _ => ih
  unfold applyAttributes
  split
  · exact .pure _
  · split
    · exact .fail (.malformed _ _)
    · exact hall _

theorem join_faults : FailsWith (ReadError.FaultsAt place) (b.join value place) := by
  have hjoin : ∀ parent, FailsWith (ReadError.FaultsAt place) (joinObject parent value place) := by
    intro parent
    unfold joinObject
    split
    · exact .fail (.malformed _ place)
    · refine .bind .heap fun heap => ?_
      split
      · exact .bind (.lift fun _ _ => nofun) fun _ => .setHeap _
      · split
        · exact .setHeap _
        · exact .fail nofun
        · exact .fail (.malformed _ place)
  unfold join
  split
  · exact .pure _
  · split
    · exact .pure _
    · exact .fail (.malformed _ place)
    · exact .bind (hjoin _) fun _ => .pure _

theorem closeAssignment_faults :
    FailsWith (ReadError.FaultsAt element.location) (b.closeAssignment element value) := by
  unfold closeAssignment
  split
  · exact .fail (.malformed _ _)
  · refine .bind .heap fun heap => ?_
    dsimp only
    split
    · exact .fail nofun
    · split
      · exact .bind (.put fun _ => nofun) fun _ => .pure _
      · split
        · exact .fail nofun
        · exact .bind (.put fun _ => nofun) fun _ => .pure _

/-- An end tag is never at fault where there is an element to end. The start tag of the element is. -/
theorem closed_faults {rest : List Element} (hstack : b.stack = element :: rest) :
    FailsWith (ReadError.FaultsAt element.location) (b.closed place) := by
  unfold closed
  rw [hstack]
  dsimp only
  split
  · exact closeAssignment_faults
  · exact .pure _
  · exact .bind runScript_faults fun _ => .pure _
  · exact .bind applyAttributes_faults fun _ => .bind join_faults fun _ => .pure _
  · exact .bind applyAttributes_faults fun _ => .bind join_faults fun _ => .pure _
  · exact .bind applyAttributes_faults fun _ => .pure _

theorem text_faultless {content : String} :
    FailsWith (fun e => ∀ f l, e ≠ .malformed f l) (b.text content) := by
  unfold text
  split
  · exact .pure _
  · split
    · exact .pure _
    · split <;> exact .pure _
    · split
      · exact .pure _
      · refine .bind .heap fun heap => ?_
        split
        · exact .bind (.lift fun _ _ => nofun) fun _ => .bind (.setHeap _) fun _ => .pure _
        · exact .pure _
    · exact .pure _

/-- The places that a text can be said to be at fault at: where a start tag in it is told to be, and
its end. -/
inductive FaultPlace (text : List Char) : Location → Prop
  | startTag {t : Placed} {tag before content after : List Char} (mem : t ∈ (scan text).tokens)
      (start : t.token.start? = some tag) (written : t.Written text before ('<' :: content) after) :
      FaultPlace text (.ofOffset text t.offset)
  | ending : FaultPlace text (.ofEnd text)

variable {r : Reader} {source : List Char} {location : Option String} {s t t' : Session}
  {taken : List Delivery} {ahead : List Signal} {e : Event} {error : ReadError}

/-- In a text without a byte order mark, a start tag is told to be where its `<` is. -/
theorem FaultPlace.eq_or_startTag {text : List Char} (h : FaultPlace text place)
    (hmark : Text.dropMark text = text) :
    place = .ofEnd text ∨ ∃ t ∈ (scan text).tokens, ∃ before content after,
      t.token.start?.isSome = true ∧ t.Written text before ('<' :: content) after ∧
      place = .ofEnd before := by
  cases h with
  | startTag mem start written =>
    refine .inr ⟨_, mem, _, _, _, ?_, written, written.ofOffset_eq hmark⟩
    rw [start]
    rfl
  | ending => exact .inl rfl

theorem Retouched.locations_eq {stack stack' : List Element} (h : Retouched stack stack') :
    stack'.map Element.location = stack.map Element.location := by
  cases h <;> rfl

namespace Reached

theorem faultPlace_of_opened {attributes : List Attribute}
    (h : Reached nested r source location s taken b t (.event (.opened name attributes place) :: ahead)) :
    FaultPlace (Text.dropMark source) place := by
  obtain ⟨before, u, after, tag, htokens, hstart, rfl, -, -⟩ :=
    names_of_opened (mem_signals_of_documentEvents h.mem_documentEvents)
  have hmem : u ∈ (scan (Text.dropMark source)).tokens := by
    rw [htokens]
    exact List.mem_append_right _ List.mem_cons_self
  obtain ⟨front, piece, rest, hwritten⟩ := scan_written hmem
  obtain ⟨content, rfl⟩ := hwritten.tag (Token.isTag_of_start hstart)
  exact .startTag hmem hstart hwritten

theorem faultPlace_of_open (h : Reached nested r source location s taken b t ahead) :
    ∀ l ∈ b.stack.map Element.location, FaultPlace (Text.dropMark source) l := by
  induction h with
  | start => simp [Builder.start]
  | @event taken b b' t t' e ahead before step ih =>
    cases e with
    | opened name attributes place =>
      obtain ⟨id, own, content, names, -, -, -, rfl⟩ := opened_ok step
      intro l hl
      rcases List.mem_cons.mp hl with rfl | hl
      · exact before.faultPlace_of_opened
      · exact ih l hl
    | closed place =>
      obtain ⟨element, rest, stack, names, hstack, hretouched, -, rfl⟩ := closed_ok step
      intro l hl
      rw [hretouched.locations_eq] at hl
      exact ih l (by rw [hstack]; exact List.mem_cons_of_mem _ hl)
    | text content place =>
      obtain ⟨stack, hretouched, rfl⟩ := text_ok step
      rwa [hretouched.locations_eq]
  | checkpoint before unfinished ih => exact ih

theorem faultPlace_of_step {f : StructureFault}
    (h : Reached nested r source location s taken b t (.event e :: ahead))
    (hstep : (b.step nested e).perform t = (.error (.malformed f place), t')) :
    FaultPlace (Text.dropMark source) place := by
  cases e with
  | opened name attributes start =>
    obtain rfl := opened_faults _ _ _ hstep f place rfl
    exact h.faultPlace_of_opened
  | closed ending =>
    obtain ⟨element, rest, hstack⟩ := List.exists_cons_of_ne_nil h.stack_ne_nil
    obtain rfl := closed_faults hstack _ _ _ hstep f place rfl
    exact h.faultPlace_of_open _ (by rw [hstack]; exact List.mem_cons_self)
  | text content start =>
    exact absurd rfl (text_faultless _ _ _ hstep f place)

end Reached

/-- A document that is not finished where it ends is at fault there. -/
theorem faultPlace_of_finish {f : StructureFault}
    (h : b.finish (.ofOffset source (Text.byteLength source)) = .error (.malformed f place)) :
    FaultPlace source place := by
  have hend := Location.ofOffset_append source []
  rw [List.append_nil] at hend
  rw [hend] at h
  rcases finish_error h with he | ⟨element, he⟩
  · cases he
    exact .ending
  · cases he
    exact .ending

end Builder

end ObjectMarkup
