import ObjectMarkup.Proofs.Document.Depth
import ObjectMarkup.Proofs.Document.Faults

namespace ObjectMarkup

open Markup

/-- A document that has been opened: the bundle that it was to have of its own, what it is read
with, where it is, its text, and the session to start from. -/
structure Visit where
  bundleName : Option String
  reader : Reader
  location : Option String
  text : List Char
  session : Session

namespace Visit

def first (r : Reader) (location : Option String) (text : List Char) (s : Session) : Visit :=
  ⟨none, r, location, text, { s with guard := ⟨location.toList, 1⟩ }⟩

def run (v : Visit) : Except ReadError Document × Session :=
  (v.reader.parse Reader.read v.text v.location).perform v.session

/-- The document has come to an inclusion, and the included one would be read with `reader`. -/
structure Asks (v : Visit) (t : Session) (i : Inclusion) (reader : Reader) : Prop where
  moment : ∃ taken b e ahead, e.inclusion? = some i ∧
    Builder.Reached Reader.read v.reader v.text v.location v.session taken b t (.event e :: ahead)
  reader : v.reader.forInclusion i = .ok reader

inductive Enters (v : Visit) : Visit → Prop
  | intro {t : Session} {i : Inclusion} {reader : Reader} {guard : Guard} {text : List Char}
      (asks : v.Asks t i reader) (entered : t.guard.enter (some (i.path v.location)) = .ok guard)
      (found : v.reader.textAt? (i.path v.location) = some text) :
      Enters v ⟨i.resources, reader, some (i.path v.location), text, { t with guard }⟩

inductive Refuses (v : Visit) : String → NestingError → Prop
  | intro {t : Session} {i : Inclusion} {reader : Reader} {e : NestingError}
      (asks : v.Asks t i reader) (refused : t.guard.enter (some (i.path v.location)) = .error e) :
      Refuses v (i.path v.location) e

/-- The documents that are open around the last one, the outermost first. -/
inductive Trail (first : Visit) : List Visit → Visit → Prop
  | first : Trail first [] first
  | enters {outers : List Visit} {v w : Visit} (around : Trail first outers v)
      (enters : v.Enters w) : Trail first (outers ++ [v]) w

end Visit

def ReadError.isMissing : ReadError → Bool
  | .resource _ => true
  | .notText _ => true
  | _ => false

theorem ReadError.isOwn_of_isMissing {e : ReadError} (h : e.isMissing = true) : e.isOwn = true := by
  cases e <;> first | rfl | cases h

namespace Reader

def sourceAt (r : Reader) (location : String) : Except ReadError (List Char) := do
  let bytes ← (r.environment.documents.load location).mapError .resource
  (Text.decode bytes).mapError .notText

/-- Reads a document from its text, if it has one, inside the open ones. -/
def readSource (r : Reader) (location : Option String) (source : Except ReadError (List Char)) :
    Reading Document :=
  .within location do
    let text ← .lift id source
    r.parse read text location

/-- The text at a location, while the document at `top` is read from `source`. -/
def textOf (r : Reader) (top : Option String) (source : Except ReadError (List Char))
    (p : Option String) : Option (List Char) :=
  if p = top then source.toOption else p.bind r.textAt?

variable {r reader : Reader} {l : String} {location : Option String}
  {source : Except ReadError (List Char)} {s t : Session}

theorem sourceAt_toOption (r : Reader) (l : String) : (r.sourceAt l).toOption = r.textAt? l := by
  unfold sourceAt textAt?
  cases r.environment.documents.load l with
  | error e => rfl
  | ok bytes =>
    change ((Text.decode bytes).mapError ReadError.notText).toOption = (Text.decode bytes).toOption
    cases Text.decode bytes <;> rfl

theorem sourceAt_error {e : ReadError} (h : r.sourceAt l = .error e) : e.isMissing = true := by
  unfold sourceAt at h
  cases hload : r.environment.documents.load l with
  | error cause =>
    rw [hload] at h
    cases h
    rfl
  | ok bytes =>
    rw [hload] at h
    change (Text.decode bytes).mapError ReadError.notText = .error e at h
    cases hdecode : Text.decode bytes with
    | error n =>
      rw [hdecode] at h
      cases h
      rfl
    | ok text =>
      rw [hdecode] at h
      cases h

theorem read_eq_readSource (r : Reader) (l : String) (s : Session) :
    (r.read l).perform s = (r.readSource (some l) (r.sourceAt l)).perform s := by
  rw [read_eq]
  unfold readSource sourceAt parseBytes
  cases r.environment.documents.load l with
  | error e => rfl
  | ok bytes =>
    change (Reading.within (some l) (do
      let text ← Reading.lift .notText (Text.decode bytes)
      r.parse read text (some l))).perform s = (Reading.within (some l) (do
      let text ← Reading.lift id ((Text.decode bytes).mapError ReadError.notText)
      r.parse read text (some l))).perform s
    cases Text.decode bytes <;> rfl

theorem readSource_ok {d : Document} (h : (r.readSource location source).perform s = (.ok d, t)) :
    ∃ guard text u, s.guard.enter location = .ok guard ∧ source = .ok text ∧
      (r.parse read text location).perform { s with guard } = (.ok d, u) := by
  obtain ⟨guard, u, henter, hbody, -⟩ := Reading.within_eq_ok.mp h
  obtain ⟨text, v, htext, hparse⟩ := Reading.bind_eq_ok.mp hbody
  obtain ⟨hsource, rfl⟩ := Reading.lift_eq_ok.mp htext
  exact ⟨guard, text, u, henter, hsource, hparse⟩

theorem readSource_error {error : ReadError}
    (h : (r.readSource location source).perform s = (.error error, t)) :
    (∃ n, s.guard.enter location = .error n ∧ error = .nesting n) ∨
      ∃ guard, s.guard.enter location = .ok guard ∧
        (source = .error error ∨ ∃ text u, source = .ok text ∧
          (r.parse read text location).perform { s with guard } = (.error error, u)) := by
  unfold readSource at h
  rw [Reading.perform_within] at h
  cases henter : s.guard.enter location with
  | error n =>
    rw [henter] at h
    cases h
    exact .inl ⟨n, rfl, rfl⟩
  | ok guard =>
    right
    rw [henter] at h
    cases hsource : source with
    | error cause =>
      rw [hsource] at h
      cases h
      exact ⟨guard, rfl, .inl rfl⟩
    | ok text =>
      rw [hsource] at h
      exact ⟨guard, rfl, .inr ⟨text, _, rfl, Prod.ext (Prod.mk.inj h).1 rfl⟩⟩

end Reader

namespace Visit

variable {v w first : Visit} {outers : List Visit} {n : NestingError} {d : Document} {t : Session}

/-- An inclusion fails with an error of the document that it stands in, or with one that reading the
included document has failed with. -/
theorem inclusion_error {taken : List Delivery} {b : Builder} {u : Session} {e : Event} {i : Inclusion}
    {ahead : List Signal} {error : ReadError} (hi : e.inclusion? = some i)
    (h : Builder.Reached Reader.read v.reader v.text v.location v.session taken b u
      (.event e :: ahead))
    (hstep : (b.step Reader.read e).perform u = (.error error, t)) :
    error.isOwn = true ∨ ∃ reader cause, v.Asks u i reader ∧
      (reader.read (i.path v.location)).perform u = (.error cause, t) ∧
      error = cause.through (i.path v.location) := by
  obtain ⟨name, attributes, place, closing, -, -, -, hread⟩ := Builder.step_inclusion hi
  rw [hread, h.reader_eq, h.location_eq] at hstep
  rcases Reading.bind_eq_error.mp hstep with hstep | ⟨_, _, -, hpush⟩
  · rcases Reading.bind_eq_error.mp hstep with hreader | ⟨reader, u', hreader, hnested⟩
    · obtain ⟨cause, hcause, rfl, -⟩ := Reading.lift_eq_error.mp hreader
      exact .inl (Reader.forInclusion_error hcause)
    · obtain ⟨hforInclusion, rfl⟩ := Reading.lift_eq_ok.mp hreader
      right
      rw [Reading.perform_mapError] at hnested
      rcases hresult : (reader.read (i.path v.location)).perform u' with ⟨cause | d, t'⟩
      · rw [hresult] at hnested
        cases hnested
        exact ⟨reader, cause, ⟨⟨taken, b, e, ahead, hi, h⟩, hforInclusion⟩, hresult, rfl⟩
      · rw [hresult] at hnested
        cases hnested
  · cases hpush

/-- An inclusion that succeeds has read a document, and stands for it. -/
theorem inclusion_ok {taken : List Delivery} {b c : Builder} {u : Session} {e : Event} {i : Inclusion}
    {ahead : List Signal} (hi : e.inclusion? = some i)
    (h : Builder.Reached Reader.read v.reader v.text v.location v.session taken b u
      (.event e :: ahead))
    (hstep : (b.step Reader.read e).perform u = (.ok c, t)) :
    ∃ reader d name closing place, v.Asks u i reader ∧
      (reader.read (i.path v.location)).perform u = (.ok d, t) ∧
      c = b.push (d.asElement name closing place) := by
  obtain ⟨name, attributes, place, closing, -, -, -, hread⟩ := Builder.step_inclusion hi
  rw [hread, h.reader_eq, h.location_eq] at hstep
  obtain ⟨d, u', hincluded, hpush⟩ := Reading.bind_eq_ok.mp hstep
  cases hpush
  obtain ⟨reader, u', hreader, hnested⟩ := Reading.bind_eq_ok.mp hincluded
  obtain ⟨hforInclusion, rfl⟩ := Reading.lift_eq_ok.mp hreader
  exact ⟨reader, d, name, closing, place, ⟨⟨taken, b, e, ahead, hi, h⟩, hforInclusion⟩,
    Reading.mapError_eq_ok.mp hnested, rfl⟩

/-- Of the errors of the guard, a document has those alone that an inclusion of it has. -/
theorem run_nesting (h : v.run = (.error (.nesting n), t)) :
    ∃ u i reader t', v.Asks u i reader ∧
      (reader.read (i.path v.location)).perform u = (.error (.nesting n), t') := by
  rcases Builder.parse_error h with ⟨taken, b, u, e, rest, hreached, hstep⟩ | ⟨f, hf⟩ |
    ⟨place, hf | ⟨element, hf⟩⟩
  · cases hinclusion : e.inclusion? with
    | none =>
      -- An event that includes nothing never fails for the guard.
      have hfails : Reading.FailsWith (fun error => ∀ n, error ≠ .nesting n)
          (b.step Reader.read e) := by
        refine .step (fun error hown n he => ?_) (by simp [hinclusion]) fun _ _ _ _ _ => nofun
        simp [he, ReadError.isOwn] at hown
      exact absurd rfl (hfails u _ t hstep n)
    | some i =>
      rcases inclusion_error hinclusion hreached hstep with hown | ⟨reader, cause, hasks, hread, he⟩
      · cases hown
      · cases cause with
        | nesting m =>
          cases he
          exact ⟨u, i, reader, t, hasks, hread⟩
        | _ => cases he
  · cases hf
  · cases hf
  · cases hf

theorem run_ok (h : v.run = (.ok d, t)) {e : Event} {i : Inclusion}
    (he : e ∈ documentEvents (Text.dropMark v.text)) (hi : e.inclusion? = some i) :
    ∃ u reader d' t', v.Asks u i reader ∧
      (reader.read (i.path v.location)).perform u = (.ok d', t') := by
  obtain ⟨taken, b, ahead, hreached, -, -, -, -, hevents⟩ := Builder.parse_ok h
  rw [← hevents] at he
  obtain ⟨delivery, hdelivery, rfl⟩ := List.mem_map.mp he
  obtain ⟨front, back, hsplit⟩ := List.append_of_mem hdelivery
  obtain ⟨after, hbefore⟩ := hreached.before_taken hsplit
  obtain ⟨b', t', hstep⟩ := hreached.step_taken hdelivery
  obtain ⟨reader, d', -, -, -, hasks, hread, -⟩ := inclusion_ok hi hbefore hstep
  exact ⟨_, reader, d', t', hasks, hread⟩

theorem Asks.guard_eq {i : Inclusion} {reader : Reader} (h : v.Asks t i reader) :
    t.guard = v.session.guard := by
  obtain ⟨taken, b, e, ahead, -, hreached⟩ := h.moment
  exact hreached.guard_eq

theorem Asks.environment_eq {i : Inclusion} {reader : Reader} (h : v.Asks t i reader) :
    reader.environment = v.reader.environment :=
  Reader.forInclusion_environment h.reader

theorem Asks.textAt_eq {i : Inclusion} {reader : Reader} (h : v.Asks t i reader) (l : String) :
    reader.textAt? l = v.reader.textAt? l := by
  unfold Reader.textAt?
  rw [h.environment_eq]

/-- The reader for an included document finds the texts that the document around it does. -/
theorem Asks.textAt_of_sourceAt {i : Inclusion} {reader : Reader} {l : String} {text : List Char}
    (h : v.Asks t i reader) (htext : reader.sourceAt l = .ok text) :
    v.reader.textAt? l = some text := by
  rw [← h.textAt_eq, ← Reader.sourceAt_toOption, htext]
  rfl

/-- An included document that fails is refused, has no text, or is entered and fails. -/
theorem Asks.read_error {u : Session} {i : Inclusion} {reader : Reader} {cause : ReadError}
    (h : v.Asks u i reader)
    (hread : (reader.read (i.path v.location)).perform u = (.error cause, t)) :
    (∃ n, u.guard.enter (some (i.path v.location)) = .error n ∧ cause = .nesting n) ∨
      (∃ guard, u.guard.enter (some (i.path v.location)) = .ok guard ∧
        reader.sourceAt (i.path v.location) = .error cause) ∨
      ∃ w u', v.Enters w ∧ w.location = some (i.path v.location) ∧ w.run = (.error cause, u') := by
  rw [Reader.read_eq_readSource] at hread
  rcases Reader.readSource_error hread with
    hrefused | ⟨guard, henter, hmissing | ⟨text, u', htext, hparse⟩⟩
  · exact .inl hrefused
  · exact .inr (.inl ⟨guard, henter, hmissing⟩)
  · exact .inr (.inr ⟨_, u', .intro h henter (h.textAt_of_sourceAt htext), rfl, hparse⟩)

/-- A document that fails for the guard is refused an inclusion, or enters one that fails so. -/
theorem refuses_or_enters (h : v.run = (.error (.nesting n), t)) :
    (∃ q, v.Refuses q n) ∨ ∃ w u, v.Enters w ∧ w.run = (.error (.nesting n), u) := by
  obtain ⟨u, i, reader, t', hasks, hread⟩ := run_nesting h
  rcases hasks.read_error hread with
    ⟨m, hrefused, hm⟩ | ⟨guard, -, hmissing⟩ | ⟨w, u', henters, -, hrun⟩
  · cases hm
    exact .inl ⟨_, hasks, hrefused⟩
  · exact absurd (Reader.sourceAt_error hmissing) (by simp [ReadError.isMissing])
  · exact .inr ⟨w, u', henters, hrun⟩

theorem Asks.enters_of_read {u : Session} {i : Inclusion} {reader : Reader}
    (h : v.Asks u i reader) (hread : (reader.read (i.path v.location)).perform u = (.ok d, t)) :
    ∃ w u', v.Enters w ∧ w.location = some (i.path v.location) ∧ w.bundleName = i.resources ∧
      w.run = (.ok d, u') := by
  rw [Reader.read_eq_readSource] at hread
  obtain ⟨guard, text, u', henter, htext, hparse⟩ := Reader.readSource_ok hread
  exact ⟨_, u', .intro h henter (h.textAt_of_sourceAt htext), rfl, rfl, hparse⟩

theorem enters_of_ok (h : v.run = (.ok d, t)) {e : Event} {i : Inclusion}
    (he : e ∈ documentEvents (Text.dropMark v.text)) (hi : e.inclusion? = some i) :
    ∃ w d' u, v.Enters w ∧ w.location = some (i.path v.location) ∧ w.bundleName = i.resources ∧
      w.run = (.ok d', u) := by
  obtain ⟨u, reader, d', t', hasks, hread⟩ := run_ok h he hi
  obtain ⟨w, u', hw⟩ := hasks.enters_of_read hread
  exact ⟨w, d', u', hw⟩

theorem Enters.guard_eq (h : v.Enters w) :
    v.session.guard.enter w.location = .ok w.session.guard := by
  cases h with
  | intro asks entered found => exact asks.guard_eq ▸ entered

theorem Enters.environment_eq (h : v.Enters w) : w.reader.environment = v.reader.environment := by
  cases h with
  | intro asks entered found => exact asks.environment_eq

theorem locations_concat (vs : List Visit) (w : Visit) :
    (vs ++ [w]).filterMap Visit.location = vs.filterMap Visit.location ++ w.location.toList := by
  rw [List.filterMap_append]
  cases hl : w.location <;> simp [hl]

namespace Trail

theorem environment_eq (h : Trail first outers v) :
    v.reader.environment = first.reader.environment := by
  induction h with
  | first => rfl
  | enters around enters ih => exact enters.environment_eq.trans ih

/-- The guard of the last document knows the open ones. -/
theorem guard_eq (h : Trail first outers v)
    (hfirst : first.session.guard = ⟨first.location.toList, 1⟩) :
    v.session.guard = ⟨(outers ++ [v]).filterMap Visit.location, outers.length + 1⟩ := by
  induction h with
  | first =>
    rw [hfirst, locations_concat]
    simp
  | @enters outers v w around enters ih =>
    obtain ⟨-, -, hguard⟩ := Guard.enter_ok enters.guard_eq
    rw [hguard, ih, locations_concat (outers ++ [v])]
    simp

theorem bounded (h : Trail first outers v)
    (hfirst : first.session.guard = ⟨first.location.toList, 1⟩) :
    ((outers ++ [v]).map Visit.location).Nodup ∧ (outers ++ [v]).length ≤ Guard.maxDepth := by
  induction h with
  | first => simp [Guard.maxDepth]
  | @enters outers v w around enters ih =>
    have hguard := around.guard_eq hfirst
    obtain ⟨hdepth, hnew, -⟩ := Guard.enter_ok enters.guard_eq
    rw [hguard] at hdepth hnew
    constructor
    · rw [List.map_append, List.nodup_append]
      refine ⟨ih.1, by simp, ?_⟩
      intro p hp q hq hpq
      obtain ⟨x, hx, rfl⟩ := List.mem_map.mp hp
      simp only [List.map_cons, List.map_nil, List.mem_singleton] at hq
      cases enters with
      | intro asks entered found =>
        exact hnew _ rfl (List.mem_filterMap.mpr ⟨x, hx, hpq.trans hq⟩)
    · simp only [List.length_append, List.length_singleton]
      dsimp only at hdepth
      omega

theorem mem_first {first : Visit} (h : Trail first outers v) : first ∈ outers ++ [v] := by
  induction h with
  | first => exact List.mem_singleton.mpr rfl
  | enters around enters ih => exact List.mem_append_left _ ih

/-- The text that is read at a location is the one found there. -/
theorem text_eq {r : Reader} {location : Option String} {text : List Char} {s : Session}
    (h : Trail (.first r location text s) outers v) :
    r.textOf location (.ok text) v.location = some v.text := by
  cases h with
  | first => exact if_pos rfl
  | @enters outers v w around enters =>
    have hbounded := ((around.enters enters).bounded rfl).1
    have hfirst := around.mem_first
    have hreader := around.environment_eq
    cases enters with
    | @intro t i reader guard text' asks entered found =>
      -- The text that reading started with need not be the one found at its location. But no
      -- location is open twice, so that the included document is at another one.
      have hne : some (i.path v.location) ≠ location := by
        intro he
        rw [List.map_append, List.nodup_append] at hbounded
        exact hbounded.2.2 _ (List.mem_map_of_mem hfirst) _ (List.mem_singleton.mpr rfl) he.symm
      unfold Reader.textOf
      rw [if_neg hne, Option.bind_some, ← found]
      unfold Reader.textAt?
      rw [hreader]
      rfl

/-- When a document fails for the guard, one inside it is refused. -/
theorem refused (h : Trail first outers v) (hfails : v.run = (.error (.nesting n), t)) :
    ∃ outers w q, Trail first outers w ∧ w.Refuses q n := by
  -- Each document that fails for the guard enters one that does, but the guard lets in only so many
  -- inside one another.
  generalize hroom : Guard.maxDepth - v.session.guard.depth = room
  induction room using Nat.strongRecOn generalizing outers v t with
  | ind room ih =>
    rcases refuses_or_enters hfails with ⟨q, hrefuses⟩ | ⟨w, u, henters, hfails⟩
    · exact ⟨outers, v, q, h, hrefuses⟩
    · obtain ⟨hdepth, -, hguard⟩ := Guard.enter_ok henters.guard_eq
      refine ih _ ?_ (h.enters henters) hfails rfl
      rw [hguard]
      dsimp only
      omega

end Trail

end Visit

/-- The ways to read a document when none is open: where it is, and its text. -/
inductive Reader.Entry (r : Reader) :
    Option String → Except ReadError (List Char) → Reading Document → Prop
  | located (l : String) : Entry r (some l) (r.sourceAt l) (r.read l)
  | bytes (bytes : Bytes) (location : Option String) :
      Entry r location ((Text.decode bytes).mapError .notText) (r.readBytes bytes location)
  | text (source : String) : Entry r none (.ok source.toList) (r.readText source)

variable {r : Reader} {location : Option String} {source : Except ReadError (List Char)}
  {x : Reading Document} {s t : Session} {n : NestingError} {d : Document}

namespace Reader.Entry

theorem perform_eq (h : r.Entry location source x) (s : Session) :
    x.perform s = (r.readSource location source).perform s := by
  cases h with
  | located l => exact read_eq_readSource r l s
  | bytes bytes location =>
    unfold readBytes readSource parseBytes
    cases Text.decode bytes <;> rfl
  | text source => rfl

theorem source_error (h : r.Entry location source x) {e : ReadError} (he : source = .error e) :
    e.isMissing = true := by
  cases h with
  | located l => exact sourceAt_error he
  | bytes bytes location =>
    cases hdecode : Text.decode bytes with
    | error n =>
      rw [hdecode] at he
      cases he
      rfl
    | ok text =>
      rw [hdecode] at he
      cases he
  | text source => cases he

theorem enter_idle (hs : s.guard = .idle) :
    s.guard.enter location = .ok ⟨location.toList, 1⟩ := by
  rw [hs]
  cases location <;> rfl

theorem run_ok (h : r.Entry location source x) (hs : s.guard = .idle)
    (hx : x.perform s = (.ok d, t)) :
    ∃ text u, source = .ok text ∧ (Visit.first r location text s).run = (.ok d, u) := by
  rw [h.perform_eq] at hx
  obtain ⟨guard, text, u, henter, hsource, hparse⟩ := readSource_ok hx
  rw [enter_idle hs] at henter
  cases henter
  exact ⟨text, u, hsource, hparse⟩

theorem run_error (h : r.Entry location source x) (hs : s.guard = .idle) {error : ReadError}
    (hx : x.perform s = (.error error, t)) :
    source = .error error ∨ ∃ text u, source = .ok text ∧
      (Visit.first r location text s).run = (.error error, u) := by
  rw [h.perform_eq] at hx
  rcases readSource_error hx with ⟨n, hrefused, -⟩ | ⟨guard, henter, hread⟩
  · rw [enter_idle hs] at hrefused
    cases hrefused
  · rw [enter_idle hs] at henter
    cases henter
    exact hread

theorem run_nesting (h : r.Entry location source x) (hs : s.guard = .idle)
    (hx : x.perform s = (.error (.nesting n), t)) :
    ∃ text u, source = .ok text ∧
      (Visit.first r location text s).run = (.error (.nesting n), u) := by
  rcases h.run_error hs hx with hsource | hrun
  · exact absurd (h.source_error hsource) (by simp [ReadError.isMissing])
  · exact hrun

end Reader.Entry

end ObjectMarkup
