import ObjectMarkup.Proofs.Document.Take
import ObjectMarkup.Proofs.Isolation.Reads
import ObjectMarkup.Proofs.Markup.Trailing

namespace ObjectMarkup

open Markup

namespace Builder

variable {nested : Reader → String → Reading Document} {r : Reader} {source : List Char}
  {location : Option String} {s t : Session} {taken : List Delivery} {b : Builder}
  {ahead : List Signal} {d : Document}

namespace Reached

/-- A moment is reached in every source that tells the same up to it. -/
theorem congr (h : Reached nested r source location s taken b t ahead) :
    ∃ told, signals (Text.dropMark source) = told ++ ahead ∧
      ∀ other ahead', signals (Text.dropMark other) = told ++ ahead' →
        Reached nested r other location s taken b t ahead' := by
  induction h with
  | start =>
    refine ⟨[], rfl, fun other ahead' hother => ?_⟩
    rw [List.nil_append] at hother
    exact hother ▸ .start
  | @event taken b b' t t' e ahead before step ih =>
    obtain ⟨told, htold, hreached⟩ := ih
    refine ⟨told ++ [.event e], by rw [htold]; simp, fun other ahead' hother => ?_⟩
    exact (hreached other (.event e :: ahead') (by rw [hother]; simp)).event step
  | @checkpoint taken b t ahead before unfinished ih =>
    obtain ⟨told, htold, hreached⟩ := ih
    refine ⟨told ++ [.checkpoint], by rw [htold]; simp, fun other ahead' hother => ?_⟩
    exact (hreached other (.checkpoint :: ahead') (by rw [hother]; simp)).checkpoint unfinished

/-- Delivering all signals comes to every moment. -/
theorem deliver_eq (h : Reached nested r source location s taken b t ahead) :
    (Markup.deliver (fun b e => Builder.step nested b e) Builder.finished
        (fun _ f => .fail (.markup f)) (signals (Text.dropMark source)) (Builder.start r location) :
      Reading Builder).perform s =
    (Markup.deliver (fun b e => Builder.step nested b e) Builder.finished
        (fun _ f => .fail (.markup f)) ahead b : Reading Builder).perform t := by
  induction h with
  | start => rfl
  | event before step ih =>
    rw [ih, Markup.deliver, Reading.perform_bind_of_ok step]
  | checkpoint before unfinished ih =>
    rw [ih, Markup.deliver, if_neg (by simp [unfinished])]

end Reached

/-- The root is there after the event that ends the outermost element, and the reader is asked next. -/
theorem Reached.ended (h : Reached nested r source location s taken b t ahead)
    (hroot : b.root.isSome = true) :
    ∃ before b' t' e after,
      Reached nested r source location s before b' t' (.event e :: .checkpoint :: after) ∧
      (b'.step nested e).perform t' = (.ok b, t) := by
  have hahead : ∃ after, ahead = .checkpoint :: after := by
    rcases h.balance with ⟨hnone, -⟩ | ⟨-, -, hahead, -⟩
    · rw [hnone] at hroot
      cases hroot
    · exact List.head?_eq_some_iff.mp hahead
  cases h with
  | start => cases hroot
  | event before step =>
    obtain ⟨after, rfl⟩ := hahead
    exact ⟨_, _, _, _, after, before, step⟩
  | checkpoint before unfinished =>
    rw [finished, hroot] at unfinished
    cases unfinished

/-- A source that can be read can be read with anything behind it, with the same result. -/
theorem parse_append (h : (r.parse nested source location).perform s = (.ok d, t))
    (other : List Char) :
    (r.parse nested (source ++ other) location).perform s = (.ok d, t) := by
  obtain ⟨taken, b, ahead, hreached, hstack, hroot, hnames, hlocation, -⟩ := parse_ok h
  have hsome : b.root.isSome = true := by rw [hroot]; rfl
  obtain ⟨before, b', t', e, after, hbefore, hstep⟩ := hreached.ended hsome
  obtain ⟨told, htold, hcongr⟩ := hbefore.congr
  have hlast : signals (Text.dropMark source) =
      told ++ ([e].map Signal.event ++ .checkpoint :: after) := htold
  obtain ⟨tag, read, front, piece, rest, hread, hne, -, -, -, -, -, hsame⟩ :=
    signals_read (List.cons_ne_nil e []) hlast
  -- The source goes on behind the tag that ends the document.
  have hsource : source ≠ [] := by
    rintro rfl
    rw [show Text.dropMark [] = [] from rfl] at hread
    exact hne (List.append_eq_nil_iff.mp hread.symm).1
  have hdrop : Text.dropMark (source ++ other) = read ++ (rest ++ other) := by
    rw [Text.dropMark_append hsource, hread, List.append_assoc]
  obtain ⟨after', hafter⟩ := hsame (rest ++ other)
  have hagain : signals (Text.dropMark (source ++ other)) =
      told ++ .event e :: .checkpoint :: after' := by
    rw [hdrop]
    exact hafter
  have hend := ((hcongr (source ++ other) _ hagain).event hstep).deliver_eq
  have hfinish : ∀ ending, b.finish ending = .ok d := fun ending =>
    finish_eq_ok.mpr ⟨hstack, hroot, hnames, hreached.location_eq.trans hlocation.symm⟩
  unfold Reader.parse
  dsimp only
  rw [Reading.perform_bind, hend, Markup.deliver,
    if_pos (show b.finished = true from hsome), Reading.perform_pure]
  simp only [hfinish, Reading.perform_lift_ok]

end Builder

theorem Reader.readText_append {r : Reader} {s t : Session} {source : String} {d : Document}
    (h : (r.readText source).perform s = (.ok d, t)) (other : String) :
    (r.readText (source ++ other)).perform s = (.ok d, t) := by
  unfold Reader.readText at h ⊢
  obtain ⟨guard, u, hguard, hparse, rfl⟩ := Reading.within_eq_ok.mp h
  refine Reading.within_eq_ok.mpr ⟨guard, u, hguard, ?_, rfl⟩
  rw [String.toList_append]
  exact Builder.parse_append hparse other.toList

/-- Nothing behind a document counts, whether it is well-formed or not. A text that can be read can be
read with any other text behind it, with the same document, and from any session that shares the
objects of the reader, after other reads or before them, with an isomorphic one. A reader of events
is asked whether it has had enough when the events of a tag have been told. One that has had enough
when it is asked after an event is given the same events, and ends alike, when anything else is
written behind the tag that the event is told with: the tag that the event stands for, or the one
behind it for a text. The tag is a piece of the source. -/
theorem trailing_unread :
    (∀ (r : Reader) (source other : String) (s t : Session) (d : Document),
      (r.readText source).perform s = (.ok d, t) →
      (r.readText (source ++ other)).perform s = (.ok d, t) ∧
      ∀ fresh, fresh.guard = s.guard → r.SharedIn s.heap fresh.heap →
        ∃ f d' t', (r.readText (source ++ other)).perform fresh = (.ok d', t') ∧
          d.Isomorphism f t.heap d' t'.heap) ∧
    ∀ {σ ε : Type} (handle : σ → Event → Except ε σ) (finished : σ → Bool)
      (refuse : σ → MarkupFault → Except ε σ) (start : σ) (source : List Char)
      (told after : List Signal) (e : Event) (others : List Event),
      signals source = told ++ .event e :: (others.map .event ++ .checkpoint :: after) →
      (∀ enough, deliver handle finished refuse (told ++ .event e :: others.map .event) start =
        .ok enough → finished enough = true) →
      ∃ tag read before piece rest, source = read ++ rest ∧ tag ∈ (scan source).tokens ∧
        tag.token.isTag = true ∧ tag.Written source before piece rest ∧
        Text.dropMark read = before ++ piece ∧
        (e.isText = false → e.place = Location.ofOffset source tag.offset) ∧
        ∀ other,
          deliver handle finished refuse (signals (read ++ other)) start =
            deliver handle finished refuse (signals source) start ∧
          given handle finished (signals (read ++ other)) start =
            given handle finished (signals source) start := by
  constructor
  · intro r source other s t d h
    refine ⟨Reader.readText_append h other, fun fresh hguard hshared => ?_⟩
    obtain ⟨f, d', t', -, hread, hiso, -⟩ := (Reader.readFrom_alone hguard hshared
      (.text (source ++ other))).1 d t (Reader.readText_append h other)
    exact ⟨f, d', t', hread, hiso⟩
  · intro σ ε handle finished refuse start source told after e others h henough
    exact given_read h henough

/-- A reader is asked when all the events of a tag have been told, so what it is given once it has had
enough depends on what is written behind the event. A text is told with the tag behind it, and the
start of an element with its end where both are one tag. -/
theorem told_before_asked :
    let count : Nat → Event → Except Unit Nat := fun n _ => .ok (n + 1)
    let start := Event.opened ⟨none, "a", none⟩ [] ⟨1, 1⟩
    let text := Event.text "x" ⟨1, 4⟩
    (given count (fun n => 2 ≤ n) (signals "<a>x<b/></a>".toList) 0 =
        [start, text, .opened ⟨none, "b", none⟩ [] ⟨1, 5⟩, .closed ⟨1, 5⟩] ∧
      given count (fun n => 2 ≤ n) (signals "<a>x<c/></a>".toList) 0 =
        [start, text, .opened ⟨none, "c", none⟩ [] ⟨1, 5⟩, .closed ⟨1, 5⟩]) ∧
    given count (fun n => 1 ≤ n) (signals "<a></a>".toList) 0 = [start] ∧
    given count (fun n => 1 ≤ n) (signals "<a/>".toList) 0 = [start, .closed ⟨1, 1⟩] := by
  decide +kernel

/-- A map with an end tag and broken markup behind it, read after the map alone, and a reader who has
had enough when the first element starts. -/
theorem trailing_unread_of_broken :
    let map := "<HashMap xmlns='wtkx.collections' k='v'/>"
    let count : Nat → Event → Except Unit Nat := fun n _ => .ok (n + 1)
    (∃ d t f d' t', (Reader.plain.readText map).perform .initial = (.ok d, t) ∧
      (Reader.plain.readText (map ++ "</x><<&")).perform .initial = (.ok d, t) ∧
      (Reader.plain.readText (map ++ "</x><<&")).perform t = (.ok d', t') ∧
      d.Isomorphism f t.heap d' t'.heap) ∧
    ∃ read rest, "<a/><trailing/>".toList = read ++ rest ∧
      ∀ other, given count (fun n => 1 ≤ n) (signals (read ++ other)) 0 =
        [.opened ⟨none, "a", none⟩ [] ⟨1, 1⟩, .closed ⟨1, 1⟩] := by
  intro map count
  obtain ⟨hreads, hgiven⟩ := trailing_unread
  have hheld : ∀ o, ¬Reader.plain.Holds o := Reader.ofLibrary_holds .empty
  have hok : ((Reader.plain.readText map).perform .initial).1.toOption.isSome = true ∧
      ((Reader.plain.readText map).perform .initial).2.guard = .idle := by
    decide +kernel
  have htold : signals "<a/><trailing/>".toList =
      [] ++ .event (.opened ⟨none, "a", none⟩ [] ⟨1, 1⟩) ::
        ([Event.closed ⟨1, 1⟩].map .event ++ .checkpoint ::
          [.event (.opened ⟨none, "trailing", none⟩ [] ⟨1, 5⟩), .event (.closed ⟨1, 5⟩),
            .checkpoint]) := by
    decide +kernel
  have henough : ∀ n, deliver count (fun n => 1 ≤ n) (fun n _ => .ok n)
      ([] ++ .event (.opened ⟨none, "a", none⟩ [] ⟨1, 1⟩) :: [Event.closed ⟨1, 1⟩].map .event) 0 =
        .ok n → decide (1 ≤ n) = true := by
    rintro n ⟨⟩
    rfl
  obtain ⟨tag, read, before, piece, rest, hread, -, -, -, -, -, hsame⟩ :=
    hgiven count (fun n => 1 ≤ n) (fun n _ => .ok n) 0 _ _ _ _ _ htold henough
  constructor
  · rcases hmap : (Reader.plain.readText map).perform .initial with ⟨e | d, t⟩
    · rw [hmap] at hok
      cases hok.1
    · rw [hmap] at hok
      obtain ⟨hagain, hlater⟩ := hreads .plain map "</x><<&" .initial t d hmap
      obtain ⟨f, d', t', hfresh, hiso⟩ := hlater t hok.2 (Reader.sharedIn_of_empty hheld _ _)
      exact ⟨d, t, f, d', t', rfl, hagain, hfresh, hiso⟩
  · exact ⟨read, rest, hread, fun other => (hsame other).2.trans (by rw [htold]; rfl)⟩

end ObjectMarkup
