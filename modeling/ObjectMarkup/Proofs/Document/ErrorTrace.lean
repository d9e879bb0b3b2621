import ObjectMarkup.Proofs.Document.FaultPlaces
import ObjectMarkup.Proofs.Document.IncludePath
import ObjectMarkup.Proofs.Document.OpenElements

namespace ObjectMarkup

open Markup

/-- The error as it comes out of documents inside one another, the outermost first. -/
def ReadError.passedUp (e : ReadError) (sources : List String) : ReadError :=
  sources.foldr .included e

namespace ReadError

variable {e : ReadError}

theorem rootCause_of_isOwn (h : e.isOwn = true) : e.rootCause = e := by
  cases e <;> first | rfl | cases h

theorem rootCause_passedUp (e : ReadError) (sources : List String) :
    (e.passedUp sources).rootCause = e.rootCause := by
  induction sources with
  | nil => rfl
  | cons path rest ih => exact ih

/-- An error of a document comes out of one more inclusion with one more location. -/
theorem through_passedUp (h : e.isOwn = true) (path : String) (sources : List String) :
    (e.passedUp sources).through path = e.passedUp (path :: sources) := by
  cases sources with
  | cons inner rest => rfl
  | nil => cases e <;> first | rfl | cases h

end ReadError

namespace Visit

/-- The document fails by itself, in the given session: at an event, for its markup, or where nothing
is left of its text. -/
inductive Raises (v : Visit) (u : Session) : ReadError → Prop
  | event {taken : List Delivery} {b : Builder} {e : Event} {ahead : List Signal}
      {error : ReadError} {t : Session}
      (reached : Builder.Reached Reader.read v.reader v.text v.location v.session taken b u
        (.event e :: ahead))
      (fails : (b.step Reader.read e).perform u = (.error error, t)) (own : error.isOwn = true) :
      Raises v u error
  | markup {taken : List Delivery} {b : Builder} {f : MarkupFault} {ahead : List Signal}
      (reached : Builder.Reached Reader.read v.reader v.text v.location v.session taken b u
        (.fault f :: ahead)) :
      Raises v u (.markup f)
  | ending {taken : List Delivery} {b : Builder} {error : ReadError}
      (reached : Builder.Reached Reader.read v.reader v.text v.location v.session taken b u [])
      (fails : b.finish (.ofOffset (Text.dropMark v.text)
        (Text.byteLength (Text.dropMark v.text))) = .error error) :
      Raises v u error

/-- An error arises while a document is read, or those that it includes: the open documents at that
time, and the location of the one that it arises in. That one is processed, or its text is missing. -/
inductive Raised (first : Visit) (e : ReadError) : Guard → Option String → Prop
  | processing {outers : List Visit} {v : Visit} {u : Session} (trail : Trail first outers v)
      (raises : v.Raises u e) : Raised first e u.guard v.location
  | loading {outers : List Visit} {v : Visit} {u : Session} {i : Inclusion} {reader : Reader}
      {guard : Guard} (trail : Trail first outers v) (asks : v.Asks u i reader)
      (entered : u.guard.enter (some (i.path v.location)) = .ok guard)
      (missing : reader.sourceAt (i.path v.location) = .error e) :
      Raised first e guard (some (i.path v.location))

variable {first v : Visit} {outers : List Visit} {u t : Session} {error : ReadError}

theorem Raises.isOwn (h : v.Raises u error) : error.isOwn = true := by
  cases h with
  | event reached fails own => exact own
  | markup reached => rfl
  | ending reached fails => rcases Builder.finish_error fails with rfl | ⟨element, rfl⟩ <;> rfl

theorem Raises.guard_eq (h : v.Raises u error) : u.guard = v.session.guard := by
  cases h with
  | event reached fails own => exact reached.guard_eq
  | markup reached => exact reached.guard_eq
  | ending reached fails => exact reached.guard_eq

/-- A fault of the structure is at a start tag of the document or at its end. -/
theorem Raises.faultPlace {f : StructureFault} {place : Location}
    (h : v.Raises u (.malformed f place)) : Builder.FaultPlace (Text.dropMark v.text) place := by
  cases h with
  | event reached fails own => exact reached.faultPlace_of_step fails
  | ending reached fails => exact Builder.faultPlace_of_finish fails

/-- An event that includes nothing fails with errors of the document itself. -/
theorem isOwn_of_step {taken : List Delivery} {b : Builder} {e : Event} {ahead : List Signal}
    (h : Builder.Reached Reader.read v.reader v.text v.location v.session taken b u
      (.event e :: ahead)) (hplain : e.inclusion? = none)
    (hstep : (b.step Reader.read e).perform u = (.error error, t)) : error.isOwn = true := by
  refine Reading.FailsWith.step (P := fun error => error.isOwn = true) (fun _ hown => hown)
    (by simp [hplain]) (fun place he hno => ?_) u error t hstep
  subst he
  exact absurd h.orderly hno

theorem run_error (h : v.run = (.error error, t)) :
    (∃ u, v.Raises u error) ∨ ∃ u i reader cause t', v.Asks u i reader ∧
      (reader.read (i.path v.location)).perform u = (.error cause, t') ∧
      error = cause.through (i.path v.location) := by
  obtain ⟨taken, b, u, ahead, hreached, ⟨e, rest, rfl, hstep⟩ | ⟨f, rest, rfl, rfl⟩ | ⟨rfl, hfinish⟩⟩ :=
    Builder.parse_error_moment h
  · cases hinclusion : e.inclusion? with
    | none => exact .inl ⟨u, .event hreached hstep (isOwn_of_step hreached hinclusion hstep)⟩
    | some i =>
      rcases inclusion_error hinclusion hreached hstep with hown | ⟨reader, cause, hasks, hread, he⟩
      · exact .inl ⟨u, .event hreached hstep hown⟩
      · exact .inr ⟨u, i, reader, cause, t, hasks, hread, he⟩
  · exact .inl ⟨u, .markup hreached⟩
  · exact .inl ⟨u, .ending hreached hfinish⟩

/-- The error of a document is one of the guard, or it arose in it or below it and tells the
documents that were open below it. -/
theorem Trail.traced (h : Trail first outers v) (hrun : v.run = (.error error, t)) :
    (∃ n, error = .nesting n) ∨ ∃ sources e, error = e.passedUp sources ∧ e.isOwn = true ∧
      first.Raised e ⟨v.session.guard.active ++ sources, v.session.guard.depth + sources.length⟩
        (sources.getLast?.or v.location) := by
  -- Each document fails by itself or for one that it enters, and the guard lets in only so many
  -- inside one another.
  generalize hroom : Guard.maxDepth - v.session.guard.depth = room
  induction room using Nat.strongRecOn generalizing outers v error t with
  | ind room ih =>
    rcases run_error hrun with ⟨u, hraises⟩ | ⟨u, i, reader, cause, t', hasks, hread, rfl⟩
    · refine .inr ⟨[], error, rfl, hraises.isOwn, ?_⟩
      simpa [hraises.guard_eq] using Raised.processing h hraises
    · rcases hasks.read_error hread with
        ⟨n, -, rfl⟩ | ⟨guard, henter, hmissing⟩ | ⟨w, u', henters, hlocation, hrun⟩
      · exact .inl ⟨n, rfl⟩
      · have hown := ReadError.isOwn_of_isMissing (Reader.sourceAt_error hmissing)
        have hraised := Raised.loading h hasks henter hmissing
        obtain ⟨-, -, rfl⟩ := Guard.enter_ok henter
        rw [hasks.guard_eq] at hraised
        exact .inr ⟨[i.path v.location], cause, ReadError.through_passedUp hown _ [], hown, hraised⟩
      · obtain ⟨hdepth, -, hguard⟩ := Guard.enter_ok henters.guard_eq
        have hless : Guard.maxDepth - w.session.guard.depth < room := by
          rw [hguard]
          dsimp only
          omega
        rcases ih _ hless (h.enters henters) hrun rfl with ⟨n, rfl⟩ | ⟨sources, e, rfl, hown, hraised⟩
        · exact .inl ⟨n, rfl⟩
        · refine .inr ⟨i.path v.location :: sources, e, ReadError.through_passedUp hown _ _, hown, ?_⟩
          rw [hguard, hlocation] at hraised
          simpa [List.getLast?_cons, Nat.add_assoc, Nat.add_comm 1] using hraised

end Visit

/-- An error arises while a document is read from a source: the open documents at that time, and the
location of the one that it arises in. -/
inductive Reader.Raised (r : Reader) (location : Option String)
    (source : Except ReadError (List Char)) (s : Session) (e : ReadError) :
    Guard → Option String → Prop
  | opening {guard : Guard} (entered : s.guard.enter location = .ok guard)
      (missing : source = .error e) : Raised r location source s e guard location
  | inside {text : List Char} {guard : Guard} {origin : Option String} (found : source = .ok text)
      (raised : (Visit.first r location text s).Raised e guard origin) :
      Raised r location source s e guard origin

variable {r : Reader} {location origin : Option String} {source : Except ReadError (List Char)}
  {x : Reading Document} {s t : Session} {error : ReadError} {guard : Guard}

/-- A fault of the structure arises at a start tag of the document it arises in, or at its end. -/
theorem Reader.Raised.faultPlace {f : StructureFault} {place : Location}
    (h : r.Raised location source s (.malformed f place) guard origin)
    (hx : r.Entry location source x) :
    ∃ text, r.textOf location source origin = some text ∧
      Builder.FaultPlace (Text.dropMark text) place := by
  cases h with
  | opening entered missing => cases hx.source_error missing
  | inside found raised =>
    subst found
    cases raised with
    | processing trail raises => exact ⟨_, trail.text_eq, raises.faultPlace⟩
    | loading trail asks entered missing => cases Reader.sourceAt_error missing

/-- An error that is not one of the guard tells the included documents that were open. -/
theorem Reader.Entry.traced (h : r.Entry location source x) (hs : s.guard = .idle)
    (hx : x.perform s = (.error error, t)) :
    (∃ n, error = .nesting n) ∨ ∃ sources e, error = e.passedUp sources ∧ e.isOwn = true ∧
      r.Raised location source s e ⟨location.toList ++ sources, sources.length + 1⟩
        (sources.getLast?.or location) := by
  rcases h.run_error hs hx with rfl | ⟨text, u, rfl, hrun⟩
  · have hown := ReadError.isOwn_of_isMissing (h.source_error rfl)
    refine .inr ⟨[], error, rfl, hown, ?_⟩
    simpa using Raised.opening (enter_idle hs) rfl
  · rcases Visit.Trail.first.traced hrun with hnesting | ⟨sources, e, he, hown, hraised⟩
    · exact .inl hnesting
    · refine .inr ⟨sources, e, he, hown, .inside rfl ?_⟩
      simpa [Visit.first, Nat.add_comm] using hraised

/-- What an error tells, for every way to start reading when no document is open. It is another
error that came out of inclusions one after another. One of the guard came out of none. Any other
one came out of those of the included documents that were open when it arose, in their order, and
arose in the last of them, or in the document that reading started with when there were none. A fault
of the structure is at a start tag of that document or at its end; where no second byte order mark
follows the first, that is at the `<` of the tag. -/
theorem errors_traced (h : r.Entry location source x) (hs : s.guard = .idle)
    (hx : x.perform s = (.error error, t)) :
    ∃ sources e, error = e.passedUp sources ∧ (∀ path cause, e ≠ .included path cause) ∧
      error.rootCause = e ∧ (∀ n, e = .nesting n → sources = []) ∧
      ((∀ n, e ≠ .nesting n) →
        r.Raised location source s e ⟨location.toList ++ sources, sources.length + 1⟩
          (sources.getLast?.or location)) ∧
      ∀ f place, e = .malformed f place →
        ∃ text, r.textOf location source (sources.getLast?.or location) = some text ∧
          Builder.FaultPlace (Text.dropMark text) place ∧
          (Text.dropMark (Text.dropMark text) = Text.dropMark text →
            place = .ofEnd (Text.dropMark text) ∨
              ∃ t ∈ (scan (Text.dropMark text)).tokens, ∃ before content after,
                t.token.start?.isSome = true ∧
                t.Written (Text.dropMark text) before ('<' :: content) after ∧
                place = .ofEnd before) := by
  rcases h.traced hs hx with ⟨n, rfl⟩ | ⟨sources, e, rfl, hown, hraised⟩
  · exact ⟨[], .nesting n, rfl, nofun, rfl, fun _ _ => rfl, fun hno => absurd rfl (hno n), nofun⟩
  · refine ⟨sources, e, rfl, ?_, ?_, ?_, fun _ => hraised, ?_⟩
    · rintro path cause rfl
      cases hown
    · rw [ReadError.rootCause_passedUp, ReadError.rootCause_of_isOwn hown]
    · rintro n rfl
      cases hown
    · rintro f place rfl
      obtain ⟨text, htext, hplace⟩ := hraised.faultPlace h
      exact ⟨text, htext, hplace, hplace.eq_or_startTag⟩

/-- A control tag that there is none of, in an included document. -/
theorem errors_traced_of_included :
    let r := Reader.ofLibrary
      ((Library.empty.addText "a" "<wtkx:include src='b'/>").addText "b" "\n<wtkx:foo/>")
    let e := ReadError.malformed (.unknownControlTag "wtkx:foo") ⟨2, 1⟩
    ∃ t, (r.read "a").perform .initial = (.error (.included "b" e), t) ∧
      r.Raised (some "a") (r.sourceAt "a") .initial e ⟨["a", "b"], 2⟩ (some "b") ∧
      ∃ text, r.textOf (some "a") (r.sourceAt "a") (some "b") = some text ∧
        Builder.FaultPlace (Text.dropMark text) ⟨2, 1⟩ := by
  intro r e
  have hfails : (r.read "a").fails .initial (.included "b" e) = true := by
    decide +kernel
  clear_value r
  obtain ⟨t, hread⟩ := Reading.exists_of_fails hfails
  obtain ⟨sources, e', hpassed, hplain, -, -, hraised, hfault⟩ :=
    errors_traced (.located "a") rfl hread
  obtain _ | ⟨path, _ | ⟨inner, rest⟩⟩ := sources
  · exact absurd hpassed.symm (hplain "b" e)
  · obtain ⟨rfl, rfl⟩ := ReadError.included.inj hpassed
    obtain ⟨text, htext, hplace, -⟩ := hfault _ _ rfl
    exact ⟨t, hread, hraised nofun, text, htext, hplace⟩
  · have hinner : ReadError.malformed (.unknownControlTag "wtkx:foo") ⟨2, 1⟩ =
        .included inner (e'.passedUp rest) := (ReadError.included.inj hpassed).2
    cases hinner

/-- A second byte order mark is not counted in the offset of the tag behind it, but in those of the
text. So a tag on the second line is at fault on the first, where no `<` is and the text does not
end. -/
theorem mark_shifts_faults :
    let source := "\uFEFF\uFEFF\n<wtkx:foo/>"
    let text := Text.dropMark source.toList
    (∃ t, (Reader.plain.readText source).perform .initial =
      (.error (.malformed (.unknownControlTag "wtkx:foo") ⟨1, 1⟩), t)) ∧
    (∀ before rest, text = before ++ '<' :: rest → Location.ofEnd before = ⟨2, 1⟩) ∧
    Location.ofEnd text = ⟨2, 12⟩ := by
  intro source text
  refine ⟨Reading.exists_of_fails (by decide +kernel), ?_, by decide +kernel⟩
  intro before rest htext
  have hall : ∀ i < text.length, text[i]? = some '<' →
      Location.ofEnd (text.take i) = ⟨2, 1⟩ := by
    decide +kernel
  generalize text = characters at hall htext
  subst htext
  simpa using hall before.length (by simp)

end ObjectMarkup
