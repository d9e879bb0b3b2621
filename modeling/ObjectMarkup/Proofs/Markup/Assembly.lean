import ObjectMarkup.Proofs.Markup.EventStream

namespace ObjectMarkup.Markup

/-- What is told of the tokens read, `depth` elements being open: the events are balanced, in order
and with no two texts next to each other; they are those of the tags in the tokens, and perhaps that
of the text behind the last tag. Every token is written where its offset says, a tag from its `<` on;
without a byte order mark at the start of the source, that is also the place of the token. -/
structure Sound (source : List Char) (read : List Placed) (told : List Event) (depth : Nat) :
    Prop where
  balanced : Balanced told
  depth_eq : told.countP Event.isOpening = told.countP Event.isClosing + depth
  nonempty : ∀ content place, Event.text content place ∈ told → content ≠ ""
  apart : TextsApart told
  ordered : Ordered told
  accounted : ∃ tokens run events texts, read = tokens ++ run ∧ told = events ++ texts ∧
    TagsTold (Location.ofOffset source) tokens events ∧ IsRun run ∧
    (texts = [] ∨ RunTold (Location.ofOffset source) run texts)
  placed : ∀ t ∈ read, ∃ before piece after, t.Written source before piece after ∧
    (t.token.isTag = true → ∃ rest, piece = '<' :: rest) ∧
    (Text.dropMark source = source →
      Location.ofOffset source t.offset = Location.ofEnd before)

namespace Assembler

variable {locate : Nat → Location} {a b c : Assembler} {t : Placed} {read : List Placed}
  {told events : List Event}

/-- The moments after a state: the tokens read since, the events told of them, and the state then. -/
inductive Tells (locate : Nat → Location) (a : Assembler) :
    List Placed → List Event → Assembler → Prop
  | start : Tells locate a [] [] a
  | token {read : List Placed} {told events : List Event} {b c : Assembler} {t : Placed}
      (before : Tells locate a read told b) (step : b.step locate t = ⟨events, .ok c⟩) :
      Tells locate a (read ++ [t]) (told ++ events) c

/-- A token without a tag tells nothing. It adds its piece to the text, and starts it where there was
none. -/
theorem step_run (htag : t.token.isTag = false) (h : a.step locate t = ⟨events, .ok b⟩) :
    events = [] ∧ b.frames = a.frames ∧ b.pending = a.pending ++ t.piece ∧
      (b.pending ≠ [] → b.start = if a.pending = [] then t.offset else a.start) := by
  have hpush : ∀ content, t.piece = content → b = a.push content t.offset →
      b.frames = a.frames ∧ b.pending = a.pending ++ t.piece ∧
        (b.pending ≠ [] → b.start = if a.pending = [] then t.offset else a.start) := by
    rintro content rfl rfl
    exact ⟨rfl, rfl, fun _ => by simp [push, List.isEmpty_iff]⟩
  obtain ⟨token, offset⟩ := t
  cases token with
  | openTag _ => cases htag
  | emptyTag _ => cases htag
  | closeTag _ => cases htag
  | text content =>
    cases h
    exact ⟨rfl, hpush content rfl rfl⟩
  | literal content =>
    cases h
    exact ⟨rfl, hpush content rfl rfl⟩
  | skipped =>
    cases h
    refine ⟨rfl, rfl, by simp [Placed.piece, Token.piece?], fun hne => ?_⟩
    rw [if_neg hne]
  | reference name =>
    cases hresolve : resolveReference name with
    | error f =>
      simp only [step, hresolve] at h
      cases h
    | ok d =>
      simp only [step, hresolve] at h
      cases h
      exact ⟨rfl, hpush [d] (by simp [Placed.piece, Token.piece?, hresolve, Except.toOption]) rfl⟩

/-- A tag tells the text in front of it and itself. The open elements are those before it with those
that it starts and without those that it ends. -/
theorem step_tag (htag : t.token.isTag = true) (h : a.step locate t = ⟨events, .ok b⟩) :
    ∃ last, events = a.flushed locate ++ last ∧ TagTold locate t last ∧ b.pending = [] ∧
      a.frames.length + last.countP Event.isOpening =
        b.frames.length + last.countP Event.isClosing := by
  obtain ⟨token, offset⟩ := t
  cases token with
  | text _ => cases htag
  | literal _ => cases htag
  | skipped => cases htag
  | reference _ => cases htag
  | openTag tag =>
    cases hopen : a.openTag tag (locate offset) with
    | error f =>
      simp only [step, hopen] at h
      cases h
    | ok opened =>
      obtain ⟨frame, e⟩ := opened
      obtain ⟨name, attributes, rfl⟩ := openTag_ok hopen
      simp only [step, hopen] at h
      cases h
      exact ⟨_, rfl, .opened tag offset name attributes, rfl, rfl⟩
  | emptyTag tag =>
    cases hopen : a.openTag tag (locate offset) with
    | error f =>
      simp only [step, hopen] at h
      cases h
    | ok opened =>
      obtain ⟨frame, e⟩ := opened
      obtain ⟨name, attributes, rfl⟩ := openTag_ok hopen
      simp only [step, hopen] at h
      cases h
      exact ⟨_, rfl, .empty tag offset name attributes, rfl, rfl⟩
  | closeTag tag =>
    cases hframes : a.frames with
    | nil =>
      simp only [step, hframes] at h
      cases h
    | cons frame frames =>
      simp only [step, hframes] at h
      split at h
      · cases h
        exact ⟨_, rfl, .closed tag offset, rfl, by simp [closed, hframes, Event.isOpening,
          Event.isClosing]⟩
      · cases h

theorem step_fault {f : MarkupFault} (h : a.step locate t = ⟨events, .error f⟩) :
    events = [] ∨ events = a.flushed locate := by
  unfold step at h
  split at h
  all_goals try (cases h)
  all_goals split at h
  all_goals try (cases h)
  all_goals try exact .inl rfl
  all_goals try exact .inr rfl
  split at h <;> cases h
  exact .inl rfl

/-- What a moment has told are the events of the tags read. The text behind the last tag is pending,
and starts at the first piece of it that is not empty. -/
structure Accounts (locate : Nat → Location) (read : List Placed) (told : List Event)
    (a : Assembler) : Prop where
  split : ∃ tokens run, read = tokens ++ run ∧ TagsTold locate tokens told ∧ IsRun run ∧
    a.pending = textOf run ∧ RunTold locate run (a.flushed locate)
  balanced : Balanced told
  depth_eq : told.countP Event.isOpening = told.countP Event.isClosing + a.frames.length

theorem flushed_of_pending (h : a.pending ≠ []) :
    a.flushed locate = [.text (String.ofList a.pending) (locate a.start)] := by
  rw [flushed, if_neg (by simpa using h)]

/-- The pending text goes on with the piece of a token that is no tag. -/
theorem runTold_push {run : List Placed} (hpending : a.pending = textOf run)
    (h : RunTold locate run (a.flushed locate)) (hnext : b.pending = a.pending ++ t.piece)
    (hstart : b.pending ≠ [] → b.start = if a.pending = [] then t.offset else a.start) :
    RunTold locate (run ++ [t]) (b.flushed locate) := by
  have htext : textOf (run ++ [t]) = b.pending := by
    rw [hnext, hpending]
    simp [textOf]
  by_cases hempty : b.pending = []
  · have hnone : b.flushed locate = [] := by simp [flushed, hempty]
    rw [hnone]
    exact .none (htext.trans hempty)
  · rw [flushed_of_pending hempty, hstart hempty, ← htext]
    by_cases hbefore : a.pending = []
    · rw [if_pos hbefore]
      have hpiece : t.piece ≠ [] := by
        rw [hnext, hbefore, List.nil_append] at hempty
        exact hempty
      exact .some (hpending.symm.trans hbefore) hpiece
    · rw [if_neg hbefore]
      rw [flushed_of_pending hbefore] at h
      generalize htold : [Event.text (String.ofList a.pending) (locate a.start)] = texts at h
      cases h with
      | none => cases htold
      | @some front back u blank first =>
        obtain ⟨-, hplace⟩ := Event.text.inj (List.cons.inj htold).1
        rw [hplace, List.append_assoc, List.cons_append]
        exact .some blank first

theorem balanced_texts {texts : List Event} (h : Balanced told)
    (htexts : texts.countP Event.isOpening = 0 ∧ texts.countP Event.isClosing = 0) :
    Balanced (told ++ texts) := by
  refine h.append fun front hfront => ?_
  have hclosing := hfront.sublist.countP_le (p := Event.isClosing)
  have htold := h told (List.prefix_refl _)
  rw [List.countP_append, List.countP_append]
  omega

theorem Tells.accounts (h : Tells locate .initial read told a) : Accounts locate read told a := by
  induction h with
  | start =>
    exact ⟨⟨[], [], rfl, .start, by simp [IsRun], rfl, .none rfl⟩, by simp [Balanced], rfl⟩
  | @token read told events b c t before step ih =>
    obtain ⟨⟨tokens, run, rfl, htags, hrun, hpending, htold⟩, hbalanced, hdepth⟩ := ih
    cases htag : t.token.isTag with
    | false =>
      obtain ⟨rfl, hframes, hnext, hstart⟩ := step_run htag step
      rw [List.append_nil, List.append_assoc]
      refine ⟨⟨tokens, run ++ [t], rfl, htags, ?_, ?_, ?_⟩, hbalanced, hframes ▸ hdepth⟩
      · intro u hu
        rcases List.mem_append.mp hu with hu | hu
        · exact hrun u hu
        · rw [List.mem_singleton.mp hu]
          exact htag
      · rw [hnext, hpending]
        simp [textOf]
      · exact runTold_push hpending htold hnext hstart
    | true =>
      obtain ⟨last, rfl, hlast, hnone, hcount⟩ := step_tag htag step
      have htexts := htold.countP_eq_zero
      rw [← List.append_assoc]
      refine ⟨⟨_, [], (List.append_nil _).symm, htags.tag hrun htold hlast, by simp [IsRun], hnone,
        ?_⟩, ?_, ?_⟩
      · have hempty : c.flushed locate = [] := by simp [flushed, hnone]
        rw [hempty]
        exact .none rfl
      · refine (balanced_texts hbalanced htexts).append fun front hfront => ?_
        have hfront := hlast.countP_le b.frames.length (by omega) hfront
        simp only [List.countP_append]
        omega
      · simp only [List.countP_append]
        omega

variable {source : List Char} {σ : Type}

/-- How the telling of the events of a source ends after a moment, with the events told in the end:
the reader has had enough of them, the source ends, or there is a fault behind the last token or in
the next one. -/
inductive Ends (source : List Char) (enough : List Event → Prop) (read : List Placed)
    (told : List Event) (a : Assembler) : List Event → Option MarkupFault → Prop
  | enough (had : enough told) : Ends source enough read told a told none
  | source (all : read = (scan source).tokens) (sound : (scan source).fault = none) :
      Ends source enough read told a (told ++ a.flushed (Location.ofOffset source)) none
  | behind {f : MarkupFault} (all : read = (scan source).tokens)
      (fault : (scan source).fault = some f) : Ends source enough read told a told (some f)
  | inside {f : MarkupFault} {t : Placed} {events : List Event}
      (next : read ++ [t] <+: (scan source).tokens)
      (fault : a.step (Location.ofOffset source) t = ⟨events, .error f⟩) :
      Ends source enough read told a (told ++ events) (some f)

theorem deliver_events (handle : σ → Event → σ) (finished : σ → Bool)
    (refuse : σ → MarkupFault → σ) (events : List Event) (rest : List Signal) (s : σ) :
    deliver (m := Id) handle finished refuse (events.map .event ++ rest) s =
      deliver (m := Id) handle finished refuse rest (events.foldl handle s) := by
  induction events generalizing s with
  | nil => rfl
  | cons e events ih => exact ih (handle s e)

/-- A reader that takes every event has taken those told up to some moment when the telling ends. -/
theorem Tells.deliver (handle : σ → Event → σ) (finished : σ → Bool)
    (refuse : σ → MarkupFault → σ) (s : σ) {rest : List Placed}
    (h : Tells (Location.ofOffset source) .initial read told a)
    (htokens : (scan source).tokens = read ++ rest) :
    ∃ last ended b events fault, Tells (Location.ofOffset source) .initial last ended b ∧
      last <+: (scan source).tokens ∧
      Ends source (fun told => finished (told.foldl handle s) = true) last ended b events fault ∧
      Markup.deliver (m := Id) handle finished refuse
        (a.signals (Location.ofOffset source) (scan source).fault rest) (told.foldl handle s) =
        fault.elim (events.foldl handle s) (refuse (events.foldl handle s)) := by
  induction rest generalizing read told a with
  | nil =>
    have hall : read = (scan source).tokens := by rw [htokens, List.append_nil]
    refine ⟨read, told, a, ?_⟩
    cases hfault : (scan source).fault with
    | none =>
      refine ⟨_, none, h, hall ▸ List.prefix_refl _, .source hall hfault, ?_⟩
      rw [signals, ← List.append_nil (List.map _ _), deliver_events, List.foldl_append]
      rfl
    | some f => exact ⟨_, some f, h, hall ▸ List.prefix_refl _, .behind hall hfault, rfl⟩
  | cons t rest ih =>
    have hread : read ++ [t] <+: (scan source).tokens := ⟨rest, by simp [htokens]⟩
    rcases hstep : a.step (Location.ofOffset source) t with ⟨events, f | b⟩
    · refine ⟨read, told, a, _, some f, h, (List.prefix_append _ _).trans hread,
        .inside hread hstep, ?_⟩
      simp only [signals, hstep, deliver_events, List.foldl_append]
      rfl
    · have hnext := h.token hstep
      have hdeliver : Markup.deliver (m := Id) handle finished refuse
          (a.signals (Location.ofOffset source) (scan source).fault (t :: rest))
          (told.foldl handle s) =
          if finished ((told ++ events).foldl handle s) then (told ++ events).foldl handle s
          else Markup.deliver (m := Id) handle finished refuse
            (b.signals (Location.ofOffset source) (scan source).fault rest)
            ((told ++ events).foldl handle s) := by
        simp only [signals, hstep, deliver_events, List.foldl_append]
        rfl
      by_cases hfinished : finished ((told ++ events).foldl handle s) = true
      · refine ⟨_, _, b, _, none, hnext, hread, .enough hfinished, ?_⟩
        rw [hdeliver, if_pos hfinished]
        rfl
      · rw [hdeliver, if_neg hfinished]
        exact ih hnext (by rw [htokens, List.append_assoc, List.singleton_append])

/-- At a moment, what is told and the text that is pending are sound. -/
theorem Tells.sound (h : Tells (Location.ofOffset source) .initial read told a)
    (hread : read <+: (scan source).tokens) {texts : List Event}
    (htexts : texts = [] ∨ texts = a.flushed (Location.ofOffset source)) :
    Sound source read (told ++ texts) a.frames.length := by
  obtain ⟨⟨tokens, run, rfl, htags, hrun, -, htold⟩, hbalanced, hdepth⟩ := h.accounts
  have htexts : texts = [] ∨ RunTold (Location.ofOffset source) run texts := by
    refine htexts.imp_right ?_
    rintro rfl
    exact htold
  have hcount : texts.countP Event.isOpening = 0 ∧ texts.countP Event.isClosing = 0 := by
    rcases htexts with rfl | htexts
    · exact ⟨rfl, rfl⟩
    · exact htexts.countP_eq_zero
  have hrising := (scan_rising source).sublist hread.sublist
  have hlocate : ∀ offset offset', offset ≤ offset' →
      Location.ofOffset source offset ≤ Location.ofOffset source offset' :=
    fun _ _ => Location.ofOffset_mono source
  have hfront := htags.ordered hlocate (List.pairwise_append.mp hrising).1
  exact {
    balanced := balanced_texts hbalanced hcount
    depth_eq := by
      rw [List.countP_append, List.countP_append, hcount.1, hcount.2]
      exact hdepth
    nonempty := by
      intro content place he
      rcases List.mem_append.mp he with he | he
      · exact htags.ne_empty he
      · rcases htexts with rfl | htexts
        · cases he
        · exact htexts.ne_empty he
    apart := by
      rcases htexts with rfl | htexts
      · rw [List.append_nil]
        exact htags.apart
      · exact htags.apart.append htexts.apart htags.isText_getLast?
    ordered := by
      rcases htexts with rfl | htexts
      · rw [List.append_nil]
        exact hfront
      · exact hfront.append htexts.ordered htags.place htexts.place hlocate hrising
    accounted := ⟨tokens, run, told, texts, rfl, rfl, htags, hrun, htexts⟩
    placed := by
      intro t ht
      obtain ⟨before, piece, after, hwritten⟩ := scan_written (hread.subset ht)
      exact ⟨before, piece, after, hwritten, hwritten.tag, hwritten.ofOffset_eq⟩ }

theorem Ends.texts {enough : List Event → Prop} {events : List Event} {fault : Option MarkupFault}
    (h : Ends source enough read told a events fault) :
    ∃ texts, events = told ++ texts ∧
      (texts = [] ∨ texts = a.flushed (Location.ofOffset source)) := by
  cases h with
  | enough had => exact ⟨[], (List.append_nil _).symm, .inl rfl⟩
  | source all sound => exact ⟨_, rfl, .inr rfl⟩
  | behind all fault => exact ⟨[], (List.append_nil _).symm, .inl rfl⟩
  | inside next fault => exact ⟨_, rfl, step_fault fault⟩

end Assembler

open Assembler in
/-- After every token of a source the events told are balanced, in order and with no two texts next to
each other, as many elements are open as the assembler has frames, and the events account for the
tokens read, at the places where these are written. The same holds of all events that a reader is
given who takes every one of them, when it has had enough, the source ends or there is a fault. -/
theorem events_sound (source : List Char) :
    (∀ read told a, Tells (Location.ofOffset source) .initial read told a →
      read <+: (scan source).tokens → Sound source read told a.frames.length) ∧
    ∀ {σ : Type} (handle : σ → Event → σ) (finished : σ → Bool) (refuse : σ → MarkupFault → σ)
      (s : σ), ∃ read told a events fault, Tells (Location.ofOffset source) .initial read told a ∧
        read <+: (scan source).tokens ∧
        Ends source (fun told => finished (told.foldl handle s) = true) read told a events fault ∧
        Sound source read events a.frames.length ∧
        deliver (m := Id) handle finished refuse (signals source) s =
          fault.elim (events.foldl handle s) (refuse (events.foldl handle s)) := by
  constructor
  · intro read told a h hread
    have hsound := h.sound hread (.inl rfl)
    rwa [List.append_nil] at hsound
  · intro σ handle finished refuse s
    obtain ⟨read, told, a, events, fault, h, hread, hends, hdeliver⟩ :=
      Tells.deliver handle finished refuse s (.start : Tells (Location.ofOffset source) _ _ _ _) rfl
    obtain ⟨texts, rfl, htexts⟩ := hends.texts
    exact ⟨read, told, a, _, fault, h, hread, hends, h.sound hread htexts, hdeliver⟩

open Assembler in
/-- An element that is open, with a text of two pieces and an element that ends at once. -/
theorem events_sound_of_pieces :
    let source := "<a>x&#65;<b/>".toList
    let a : QualifiedName := ⟨none, "a", none⟩
    let b : QualifiedName := ⟨none, "b", none⟩
    let told : List Event := [.opened a [] ⟨1, 1⟩, .text "xA" ⟨1, 4⟩, .opened b [] ⟨1, 10⟩,
      .closed ⟨1, 10⟩]
    let read := (scan source).tokens
    ∃ last, Tells (Location.ofOffset source) .initial read told last ∧
      read <+: (scan source).tokens ∧ last.frames.length = 1 ∧ Sound source read told 1 := by
  intro source a b told read
  have htokens : read = [] ++ [⟨.openTag ['a'], 0⟩] ++ [⟨.text ['x'], 3⟩] ++
      [⟨.reference "#65".toList, 4⟩] ++ [⟨.emptyTag ['b'], 9⟩] := by
    decide +kernel
  have hstart : Tells (Location.ofOffset source) .initial ([] ++ [⟨.openTag ['a'], 0⟩])
      ([] ++ [.opened a [] ⟨1, 1⟩]) ⟨[⟨['a'], []⟩], [], 0⟩ :=
    .token .start rfl
  have hpieces := (hstart.token (t := ⟨.text ['x'], 3⟩) rfl).token
    (t := ⟨.reference "#65".toList, 4⟩) rfl
  have hall := hpieces.token (t := ⟨.emptyTag ['b'], 9⟩) rfl
  have htells : Tells (Location.ofOffset source) .initial read told ⟨[⟨['a'], []⟩], [], 3⟩ := by
    rw [htokens]
    exact hall
  exact ⟨_, htells, List.prefix_refl _, rfl,
    (events_sound source).1 read told _ htells (List.prefix_refl _)⟩

/-- A byte order mark is not counted in the offsets of the tokens behind it, but in those of the
source. So a tag on the second line is told to be on the first. -/
theorem mark_shifts_places :
    let before := "\uFEFF\n".toList
    let source := before ++ "<a/>".toList
    let a : QualifiedName := ⟨none, "a", none⟩
    record source none =
      ⟨[.text "\n" ⟨1, 1⟩, .opened a [] ⟨1, 1⟩, .closed ⟨1, 1⟩], none⟩ ∧
    Location.ofOffset source (Text.byteLength before) = ⟨2, 1⟩ ∧
    Location.ofEnd before = ⟨2, 1⟩ := by
  decide +kernel

end ObjectMarkup.Markup
