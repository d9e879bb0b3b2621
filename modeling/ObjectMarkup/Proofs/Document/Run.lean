import ObjectMarkup.Proofs.Document.Steps
import ObjectMarkup.Proofs.Markup.Balance

namespace ObjectMarkup

open Markup

structure Delivery where
  builder : Builder
  session : Session
  event : Event

namespace Builder

/-- The moments of reading a source: the events taken so far, the builder, the session and the
signals ahead. The reader takes an event when the builder does, and goes past a checkpoint when the
builder has not had enough. -/
inductive Reached (nested : Reader → String → Reading Document) (r : Reader) (source : List Char)
    (location : Option String) (s : Session) :
    List Delivery → Builder → Session → List Signal → Prop
  | start : Reached nested r source location s [] (.start r location) s
      (signals (Text.dropMark source))
  | event {taken : List Delivery} {b b' : Builder} {t t' : Session} {e : Event}
      {ahead : List Signal} (before : Reached nested r source location s taken b t (.event e :: ahead))
      (step : (b.step nested e).perform t = (.ok b', t')) :
      Reached nested r source location s (taken ++ [⟨b, t, e⟩]) b' t' ahead
  | checkpoint {taken : List Delivery} {b : Builder} {t : Session} {ahead : List Signal}
      (before : Reached nested r source location s taken b t (.checkpoint :: ahead))
      (unfinished : b.finished = false) :
      Reached nested r source location s taken b t ahead

variable {nested : Reader → String → Reading Document} {r : Reader} {source : List Char}
  {location : Option String} {s t t' : Session} {taken : List Delivery} {b b' : Builder}
  {ahead : List Signal} {e : Event}

/-- An event changes neither what the document is read with nor where it is, and the names only as
the event says. -/
theorem step_names (h : (b.step nested e).perform t = (.ok b', t')) :
    b'.reader = b.reader ∧ b'.location = b.location ∧ b.NamesAfter (b.naming? e) b'.names := by
  cases e with
  | opened name attributes location =>
    obtain ⟨id, own, content, names, -, -, hnames, rfl⟩ := opened_ok h
    exact ⟨rfl, rfl, hnames⟩
  | closed location =>
    obtain ⟨e, rest, stack, names, hstack, -, hnames, rfl⟩ := closed_ok h
    exact ⟨rfl, rfl, by simpa [naming?, hstack] using hnames⟩
  | text content location =>
    obtain ⟨stack, -, rfl⟩ := text_ok h
    exact ⟨rfl, rfl, rfl⟩

namespace Reached

theorem reader_eq (h : Reached nested r source location s taken b t ahead) : b.reader = r := by
  induction h with
  | start => rfl
  | event before step ih => exact (step_names step).1.trans ih
  | checkpoint before unfinished ih => exact ih

theorem location_eq (h : Reached nested r source location s taken b t ahead) :
    b.location = location := by
  induction h with
  | start => rfl
  | event before step ih => exact (step_names step).2.1.trans ih
  | checkpoint before unfinished ih => exact ih

/-- The builder that took an event was reached before it. -/
theorem before_taken (h : Reached nested r source location s taken b t ahead)
    {front back : List Delivery} {d : Delivery} (hd : taken = front ++ d :: back) :
    ∃ after, Reached nested r source location s front d.builder d.session
      (.event d.event :: after) := by
  induction h generalizing back with
  | start => simp at hd
  | @event taken b b' u u' e ahead before step ih =>
    rcases List.eq_nil_or_concat back with rfl | ⟨back, last, rfl⟩
    · obtain ⟨rfl, hlast⟩ := List.append_inj' hd rfl
      cases hlast
      exact ⟨ahead, before⟩
    · have hd : taken ++ [⟨b, u, e⟩] = (front ++ d :: back) ++ [last] := by simpa using hd
      exact ih (List.append_inj' hd rfl).1
  | checkpoint before unfinished ih => exact ih hd

theorem step_taken (h : Reached nested r source location s taken b t ahead) {d : Delivery}
    (hd : d ∈ taken) : ∃ b' t', (d.builder.step nested d.event).perform d.session = (.ok b', t') := by
  induction h with
  | start => cases hd
  | event before step ih =>
    rcases List.mem_append.mp hd with hd | hd
    · exact ih hd
    · cases List.mem_singleton.mp hd
      exact ⟨_, _, step⟩
  | checkpoint before unfinished ih => exact ih hd

theorem of_nil (h : Reached nested r source location s [] b t ahead) :
    b = .start r location ∧ t = s := by
  generalize hnil : ([] : List Delivery) = taken at h
  induction h with
  | start => exact ⟨rfl, rfl⟩
  | event before step ih => simp at hnil
  | checkpoint before unfinished ih => exact ih hnil

theorem after_last {d : Delivery} (h : Reached nested r source location s (taken ++ [d]) b t ahead) :
    (d.builder.step nested d.event).perform d.session = (.ok b, t) := by
  generalize hall : taken ++ [d] = all at h
  induction h with
  | start => simp at hall
  | event before step ih =>
    cases (List.append_inj' hall rfl).2
    exact step
  | checkpoint before unfinished ih => exact ih hall

/-- While the document has no root, the signals ahead are balanced over the open elements, and the
events of the document are those taken with those up to the end of the outermost element. Once it
has a root, nothing is open, its events have all been taken, and the next signal is a checkpoint. -/
theorem balance (h : Reached nested r source location s taken b t ahead) :
    (b.root = none ∧ WellNested b.stack.length ahead ∧
      documentEvents (Text.dropMark source) = taken.map Delivery.event ++
        outermost b.stack.length (ahead.filterMap Signal.event?)) ∨
    (b.root.isSome ∧ b.stack = [] ∧ ahead.head? = some .checkpoint ∧
      documentEvents (Text.dropMark source) = taken.map Delivery.event) := by
  induction h with
  | start => exact .inl ⟨rfl, wellNested_source _, rfl⟩
  | @event taken b b' u u' e ahead before step ih =>
    rcases ih with ⟨hroot, hnested, hevents⟩ | ⟨-, -, hahead, -⟩
    · cases e with
      | opened name attributes location =>
        obtain ⟨id, own, content, names, -, -, -, rfl⟩ := opened_ok step
        left
        refine ⟨hroot, hnested, ?_⟩
        simpa [outermost, Signal.event?] using hevents
      | text content location =>
        obtain ⟨stack, hr, rfl⟩ := text_ok step
        left
        refine ⟨hroot, ?_, ?_⟩
        · simpa [WellNested, hr.length_eq] using hnested
        · simpa [outermost, Signal.event?, hr.length_eq] using hevents
      | closed location =>
        obtain ⟨el, rest, stack, names, hstack, hr, -, rfl⟩ := closed_ok step
        rw [hstack] at hnested hevents
        obtain ⟨hnested, hlast⟩ := hnested
        -- The end of the outermost element gives the root, and that of another one does not.
        cases rest with
        | nil =>
          right
          have hnil : stack = [] := List.length_eq_zero_iff.mp hr.length_eq
          exact ⟨rfl, hnil, hlast rfl, by simpa [outermost, Signal.event?] using hevents⟩
        | cons parent below =>
          left
          refine ⟨by simpa using hroot, by simpa only [hr.length_eq] using hnested, ?_⟩
          simpa [outermost, Signal.event?, hr.length_eq] using hevents
    · cases hahead
  | checkpoint before unfinished ih =>
    rcases ih with ⟨hroot, hnested, hevents⟩ | ⟨hroot, -, -, -⟩
    · rw [List.filterMap_cons_none rfl] at hevents
      exact .inl ⟨hroot, hnested, hevents⟩
    · rw [finished, hroot] at unfinished
      cases unfinished

/-- An end tag that is about to be taken has an element to end. -/
theorem stack_ne_nil {place : Location}
    (h : Reached nested r source location s taken b t (.event (.closed place) :: ahead)) :
    b.stack ≠ [] := by
  intro hempty
  rcases h.balance with ⟨-, hnested, -⟩ | ⟨-, -, hahead, -⟩
  · rw [hempty] at hnested
    cases hnested
  · cases hahead

theorem root_eq_none (h : Reached nested r source location s taken b t (.event e :: ahead)) :
    b.root = none := by
  rcases h.balance with ⟨hnone, -⟩ | ⟨-, -, hahead, -⟩
  · exact hnone
  · cases hahead

theorem root_eq_none_of_open (h : Reached nested r source location s taken b t ahead)
    (hopen : b.stack ≠ []) : b.root = none := by
  rcases h.balance with ⟨hnone, -⟩ | ⟨-, hnil, -⟩
  · exact hnone
  · exact absurd hnil hopen

theorem mem_documentEvents (h : Reached nested r source location s taken b t (.event e :: ahead)) :
    e ∈ documentEvents (Text.dropMark source) := by
  rcases h.balance with ⟨-, -, hevents⟩ | ⟨-, -, hahead, -⟩
  · have hnext : (Signal.event e :: ahead).filterMap Signal.event? =
        e :: ahead.filterMap Signal.event? := rfl
    obtain ⟨rest, hrest⟩ := outermost_cons b.stack.length e (ahead.filterMap Signal.event?)
    simp [hevents, hnext, hrest]
  · cases hahead

theorem taken_documentEvents (h : Reached nested r source location s taken b t ahead)
    {d : Delivery} (hd : d ∈ taken) : d.event ∈ documentEvents (Text.dropMark source) := by
  have hmem : d.event ∈ taken.map Delivery.event := List.mem_map_of_mem hd
  rcases h.balance with ⟨-, -, hevents⟩ | ⟨-, -, -, hevents⟩
  · rw [hevents]
    exact List.mem_append_left _ hmem
  · rw [hevents]
    exact hmem

/-- Delivering the signals ahead goes on to a moment at which they have ended or the builder has had
enough, or to one at which the next signal brings the failure. -/
theorem deliver (h : Reached nested r source location s taken b t ahead) :
    match (Markup.deliver (fun b e => Builder.step nested b e) Builder.finished
        (fun _ f => .fail (.markup f)) ahead b : Reading Builder).perform t with
    | (.ok b', t') => ∃ taken' ahead', Reached nested r source location s taken' b' t' ahead' ∧
        (ahead' = [] ∨ b'.finished = true)
    | (.error error, t') => ∃ taken' b' u ahead',
        Reached nested r source location s taken' b' u ahead' ∧
        ((∃ e rest, ahead' = .event e :: rest ∧
          (b'.step nested e).perform u = (.error error, t')) ∨
        ∃ f rest, ahead' = .fault f :: rest ∧ error = .markup f ∧ t' = u) := by
  induction ahead generalizing taken b t with
  | nil => exact ⟨taken, [], h, .inl rfl⟩
  | cons signal rest ih =>
    cases signal with
    | event e =>
      simp only [Markup.deliver, Reading.perform_bind]
      rcases hstep : (b.step nested e).perform t with ⟨error | b', u⟩
      · exact ⟨taken, b, t, _, h, .inl ⟨e, rest, rfl, hstep⟩⟩
      · exact ih (h.event hstep)
    | checkpoint =>
      simp only [Markup.deliver]
      by_cases hfinished : b.finished = true
      · rw [if_pos hfinished]
        exact ⟨taken, _, h, .inr hfinished⟩
      · rw [if_neg hfinished]
        exact ih (h.checkpoint (by simpa using hfinished))
    | fault f => exact ⟨taken, b, t, _, h, .inr ⟨f, rest, rfl, rfl, rfl⟩⟩

end Reached

/-- A read that succeeds ends at a moment with a root, at which all events of the document have
been taken. -/
theorem parse_ok {d : Document} (h : (r.parse nested source location).perform s = (.ok d, t)) :
    ∃ taken b ahead, Reached nested r source location s taken b t ahead ∧ b.stack = [] ∧
      b.root = some d.root ∧ b.names = d.names ∧ d.location = location ∧
      taken.map Delivery.event = documentEvents (Text.dropMark source) := by
  unfold Reader.parse at h
  dsimp only at h
  obtain ⟨b, u, hdeliver, hfinish⟩ := Reading.bind_eq_ok.mp h
  have hend := (Reached.start : Reached nested r source location s _ _ _ _).deliver
  rw [hdeliver] at hend
  obtain ⟨taken, ahead, hreached, -⟩ := hend
  obtain ⟨hfinish, rfl⟩ := Reading.lift_eq_ok.mp hfinish
  unfold finish at hfinish
  split at hfinish
  · cases hfinish
  · rename_i hstack
    split at hfinish
    · cases hfinish
    · rename_i root hroot
      cases hfinish
      refine ⟨taken, b, ahead, hreached, hstack, hroot, rfl, hreached.location_eq, ?_⟩
      rcases hreached.balance with ⟨hnone, -, -⟩ | ⟨-, -, -, hevents⟩
      · rw [hroot] at hnone
        cases hnone
      · exact hevents.symm

/-- A read that succeeds comes to the end of an element in which nothing else is. -/
theorem exists_ending {d : Document} {name : QualifiedName} {attributes : List Attribute}
    {start ending : Location} (h : (r.parse nested source location).perform s = (.ok d, t))
    (hevents : documentEvents (Text.dropMark source) =
      [.opened name attributes start, .closed ending]) :
    ∃ taken b u ahead content id own,
      Reached nested r source location s taken b u (.event (.closed ending) :: ahead) ∧
      b.stack = [⟨name, start, content⟩] ∧ takeId attributes = .ok (id, own) ∧
      (Builder.start r location).Opens nested s u name ⟨id, own⟩ content := by
  obtain ⟨taken, b, ahead, hreached, -, -, -, -, htaken⟩ := parse_ok h
  rw [hevents] at htaken
  obtain ⟨first, tail, rfl, hfirst, htail⟩ := List.map_eq_cons_iff.mp htaken
  obtain ⟨last, tail, rfl, hlast, -⟩ := List.map_eq_cons_iff.mp htail
  obtain ⟨after, hbefore⟩ := hreached.before_taken (show _ = [first] ++ last :: tail from rfl)
  obtain ⟨after', hstart⟩ := hbefore.before_taken (show _ = [] ++ first :: [] from rfl)
  have hstep := Reached.after_last (show Reached _ _ _ _ _ ([] ++ [first]) _ _ _ from hbefore)
  rw [hfirst, hstart.of_nil.1, hstart.of_nil.2] at hstep
  obtain ⟨id, own, content, names, htake, hopens, -, hb⟩ := opened_ok hstep
  rw [hlast] at hbefore
  refine ⟨_, _, _, after, content, id, own, hbefore, ?_, htake, hopens⟩
  rw [hb]
  rfl

/-- A read that fails does so at a moment: at the next event, for the markup behind it, or where
nothing is left of its source. -/
theorem parse_error_moment {error : ReadError}
    (h : (r.parse nested source location).perform s = (.error error, t)) :
    ∃ taken b u ahead, Reached nested r source location s taken b u ahead ∧
      ((∃ e rest, ahead = .event e :: rest ∧ (b.step nested e).perform u = (.error error, t)) ∨
        (∃ f rest, ahead = .fault f :: rest ∧ error = .markup f) ∨
        ahead = [] ∧
          b.finish (.ofOffset (Text.dropMark source) (Text.byteLength (Text.dropMark source))) =
            .error error) := by
  unfold Reader.parse at h
  dsimp only at h
  have hend := (Reached.start : Reached nested r source location s _ _ _ _).deliver
  rcases Reading.bind_eq_error.mp h with hdeliver | ⟨b, u, hdeliver, hfinish⟩
  · rw [hdeliver] at hend
    obtain ⟨taken, b, u, ahead, hreached, hstep | ⟨f, rest, hahead, hf, -⟩⟩ := hend
    · exact ⟨taken, b, u, ahead, hreached, .inl hstep⟩
    · exact ⟨taken, b, u, ahead, hreached, .inr (.inl ⟨f, rest, hahead, hf⟩)⟩
  · rw [hdeliver] at hend
    obtain ⟨taken, ahead, hreached, hdone⟩ := hend
    obtain ⟨cause, hcause, rfl, -⟩ := Reading.lift_eq_error.mp hfinish
    refine ⟨taken, b, u, ahead, hreached, .inr (.inr ⟨hdone.resolve_right fun hfinished => ?_, hcause⟩)⟩
    -- A builder that has had enough has its root and nothing open, so that it does not fail.
    rcases hreached.balance with ⟨hroot, -, -⟩ | ⟨-, hstack, -, -⟩
    · rw [finished, hroot] at hfinished
      cases hfinished
    · obtain ⟨root, hroot⟩ := Option.isSome_iff_exists.mp hfinished
      simp [finish, hstack, hroot] at hcause

/-- At the end of the source a builder fails for an open element, or for want of a root. -/
theorem finish_error {ending : Location} {error : ReadError} (h : b.finish ending = .error error) :
    error = .malformed .noRoot ending ∨
      ∃ element, error = .malformed (.unfinished element) ending := by
  unfold finish at h
  split at h
  · cases h
    exact .inr ⟨_, rfl⟩
  · split at h
    · cases h
      exact .inl rfl
    · cases h

/-- A read that fails does so at an event, for its markup, or at the end of its source. -/
theorem parse_error {error : ReadError}
    (h : (r.parse nested source location).perform s = (.error error, t)) :
    (∃ taken b u e rest, Reached nested r source location s taken b u (.event e :: rest) ∧
      (b.step nested e).perform u = (.error error, t)) ∨
    (∃ f, error = .markup f) ∨
    ∃ place, error = .malformed .noRoot place ∨
      ∃ element, error = .malformed (.unfinished element) place := by
  obtain ⟨taken, b, u, ahead, hreached, ⟨e, rest, rfl, hstep⟩ | ⟨f, -, -, hf⟩ | ⟨-, hfinish⟩⟩ :=
    parse_error_moment h
  · exact .inl ⟨taken, b, u, e, rest, hreached, hstep⟩
  · exact .inr (.inl ⟨f, hf⟩)
  · exact .inr (.inr ⟨_, finish_error hfinish⟩)

end Builder

end ObjectMarkup
