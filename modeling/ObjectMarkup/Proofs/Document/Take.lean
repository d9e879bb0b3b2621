import ObjectMarkup.Proofs.Document.Run

namespace ObjectMarkup

open Markup

def Builder.take (nested : Reader → String → Reading Document) (b : Builder) :
    List Event → Reading Builder
  | [] => return b
  | e :: rest =>
    if b.finished then return b
    else do
      let b ← b.step nested e
      b.take nested rest

/-- Reads a document from its events, which end at the given place. -/
def Reader.readEvents (nested : Reader → String → Reading Document) (r : Reader)
    (events : List Event) (location : Option String) (ending : Location) : Reading Document := do
  let b ← (Builder.start r location).take nested events
  .lift id (b.finish ending)

namespace Builder

variable {nested : Reader → String → Reading Document} {r : Reader} {source : List Char}
  {location : Option String} {b b' : Builder} {s t : Session} {e : Event} {taken : List Delivery}
  {ahead : List Signal}

theorem take_of_finished (hb : b.finished = true) (events : List Event) :
    b.take nested events = pure b := by
  cases events with
  | nil => rfl
  | cons e rest => rw [take, if_pos hb]

theorem take_cons (hb : b.root = none) (e : Event) (events : List Event) :
    b.take nested (e :: events) = (b.step nested e >>= fun b => b.take nested events) := by
  rw [take, if_neg (by simp [finished, hb])]

theorem take_singleton (hb : b.root = none) (e : Event) :
    b.take nested [e] = b.step nested e := by
  simp [take, finished, hb]

theorem take_append (b : Builder) (xs ys : List Event) :
    b.take nested (xs ++ ys) = (b.take nested xs >>= fun b => b.take nested ys) := by
  induction xs generalizing b with
  | nil =>
    rw [List.nil_append, take, pure_bind]
  | cons e rest ih =>
    rw [List.cons_append, take, take]
    split
    · rename_i hfinished
      rw [pure_bind, take_of_finished hfinished]
    · simp only [bind_assoc, ih]

theorem take_append_of_ok {xs : List Event} (h : (b.take nested xs).perform s = (.ok b', t))
    (ys : List Event) : (b.take nested (xs ++ ys)).perform s = (b'.take nested ys).perform t := by
  rw [take_append, Reading.perform_bind_of_ok h]

/-- Events change neither what the document is read with nor where it is. -/
theorem take_kept {events : List Event} (h : (b.take nested events).perform s = (.ok b', t)) :
    b'.reader = b.reader ∧ b'.location = b.location := by
  induction events generalizing b s with
  | nil =>
    cases h
    exact ⟨rfl, rfl⟩
  | cons e rest ih =>
    rw [take] at h
    split at h
    · cases h
      exact ⟨rfl, rfl⟩
    · obtain ⟨d, u, hstep, hrest⟩ := Reading.bind_eq_ok.mp h
      obtain ⟨hreader, hlocation, -⟩ := step_names hstep
      obtain ⟨hreader', hlocation'⟩ := ih hrest
      exact ⟨hreader'.trans hreader, hlocation'.trans hlocation⟩

theorem take_concat {events : List Event}
    (h : (b.take nested events).perform s = (.ok b', t)) (hb : b'.root = none) :
    (b.take nested (events ++ [e])).perform s = (b'.step nested e).perform t := by
  rw [take_append_of_ok h, take_singleton hb]

theorem finish_eq_ok {ending : Location} {d : Document} :
    b.finish ending = .ok d ↔ b.stack = [] ∧ b.root = some d.root ∧ b.names = d.names ∧
      b.location = d.location := by
  obtain ⟨root, names, location⟩ := d
  unfold finish
  cases b.stack with
  | cons e rest => simp
  | nil =>
    cases b.root with
    | none => simp
    | some v => simp

namespace Reached

/-- The builder has taken the events up to a moment. -/
theorem take (h : Reached nested r source location s taken b t ahead) :
    ((Builder.start r location).take nested (taken.map Delivery.event)).perform s = (.ok b, t) := by
  induction h with
  | start => rfl
  | @event taken b b' u u' e ahead before step ih =>
    rw [List.map_append, List.map_cons, List.map_nil, take_concat ih before.root_eq_none]
    exact step
  | checkpoint before unfinished ih => exact ih

/-- All events are taken when the signals have ended or the builder has had enough. -/
theorem take_all (h : Reached nested r source location s taken b t ahead)
    (hend : ahead = [] ∨ b.finished = true) :
    ((Builder.start r location).take nested (documentEvents (Text.dropMark source))).perform s =
      (.ok b, t) := by
  have hevents : documentEvents (Text.dropMark source) = taken.map Delivery.event := by
    rcases h.balance with ⟨hnone, -, hevents⟩ | ⟨-, -, -, hevents⟩
    · rcases hend with rfl | hfinished
      · simpa [outermost] using hevents
      · simp [finished, hnone] at hfinished
    · exact hevents
  rw [hevents]
  exact h.take

/-- Where an event brings an error, so does taking all of them. -/
theorem take_error (h : Reached nested r source location s taken b t (.event e :: ahead))
    {error : ReadError} {t' : Session} (hstep : (b.step nested e).perform t = (.error error, t')) :
    ((Builder.start r location).take nested (documentEvents (Text.dropMark source))).perform s =
      (.error error, t') := by
  rcases h.balance with ⟨hnone, -, hevents⟩ | ⟨-, -, hahead, -⟩
  · have hnext : (Signal.event e :: ahead).filterMap Signal.event? =
        e :: ahead.filterMap Signal.event? := rfl
    obtain ⟨rest, hrest⟩ := outermost_cons b.stack.length e (ahead.filterMap Signal.event?)
    rw [hevents, hnext, hrest, take_append_of_ok h.take, take_cons hnone, Reading.perform_bind,
      hstep]
  · cases hahead

/-- At a fault of the markup the events have been taken, but no root is complete. -/
theorem take_fault {f : MarkupFault}
    (h : Reached nested r source location s taken b t (.fault f :: ahead)) :
    b.root = none ∧
      ((Builder.start r location).take nested (documentEvents (Text.dropMark source))).perform s =
        (.ok b, t) := by
  rcases h.balance with ⟨hnone, hlast, hevents⟩ | ⟨-, -, hahead, -⟩
  · have hahead : ahead = [] := hlast
    have hnext : (Signal.fault f :: ahead).filterMap Signal.event? = [] := by
      rw [hahead]
      rfl
    have htaken : documentEvents (Text.dropMark source) = taken.map Delivery.event := by
      simpa [hnext, outermost] using hevents
    rw [htaken]
    exact ⟨hnone, h.take⟩
  · cases hahead

end Reached

/-- A read that succeeds comes to each of its events, when it has taken those before it. -/
theorem exists_before {d : Document} (h : (r.parse nested source location).perform s = (.ok d, t))
    {front back : List Event}
    (hevents : documentEvents (Text.dropMark source) = front ++ e :: back) :
    ∃ taken b u ahead b' u', taken.map Delivery.event = front ∧
      Reached nested r source location s taken b u (.event e :: ahead) ∧
      ((Builder.start r location).take nested front).perform s = (.ok b, u) ∧
      (b.step nested e).perform u = (.ok b', u') := by
  obtain ⟨taken, b, ahead, hreached, -, -, -, -, htaken⟩ := parse_ok h
  rw [hevents] at htaken
  obtain ⟨first, rest, rfl, rfl, hrest⟩ := List.map_eq_append_iff.mp htaken
  obtain ⟨d, last, rfl, rfl, -⟩ := List.map_eq_cons_iff.mp hrest
  obtain ⟨after, hbefore⟩ := hreached.before_taken rfl
  obtain ⟨b', u', hstep⟩ := hreached.step_taken (d := d) (by simp)
  exact ⟨first, d.builder, d.session, after, b', u', rfl, hbefore, hbefore.take, hstep⟩

end Builder

/-- A source is read exactly when the events of its document are. -/
theorem Reader.parse_eq_ok_iff {nested : Reader → String → Reading Document} {r : Reader}
    {source : List Char} {location : Option String} {s t : Session} {d : Document}
    (ending : Location) :
    (r.parse nested source location).perform s = (.ok d, t) ↔
      (r.readEvents nested (documentEvents (Text.dropMark source)) location ending).perform s =
        (.ok d, t) := by
  have hend := (Builder.Reached.start : Builder.Reached nested r source location s _ _ _ _).deliver
  unfold parse readEvents
  dsimp only
  rw [Reading.perform_bind, Reading.perform_bind]
  rcases hdeliver : (deliver (fun b e => Builder.step nested b e) Builder.finished
    (fun _ f => .fail (.markup f)) (signals (Text.dropMark source))
      (Builder.start r location) : Reading Builder).perform s with ⟨error | b, u⟩
  · rw [hdeliver] at hend
    obtain ⟨taken, b, v, ahead, hreached, ⟨e, rest, rfl, hstep⟩ | ⟨f, rest, rfl, -⟩⟩ := hend
    · simp [hreached.take_error hstep]
    -- A fault is no event: the events are all taken, but what they leave has no root.
    · obtain ⟨hroot, htake⟩ := hreached.take_fault
      rw [htake]
      constructor
      · intro h
        cases h
      · intro h
        have hfinish := (Builder.finish_eq_ok.mp (Reading.lift_eq_ok.mp h).1).2.1
        rw [hroot] at hfinish
        cases hfinish
  · rw [hdeliver] at hend
    obtain ⟨taken, ahead, hreached, hlast⟩ := hend
    rw [hreached.take_all hlast]
    simp only [Reading.lift_eq_ok, Builder.finish_eq_ok]

end ObjectMarkup
