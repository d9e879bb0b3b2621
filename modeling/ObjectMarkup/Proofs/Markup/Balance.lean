import ObjectMarkup.Markup.Event

namespace ObjectMarkup.Markup

theorem exists_of_map_ok {ε α β : Type} {x : Except ε α} {f : α → β} {b : β}
    (h : x.map f = .ok b) : ∃ a, x = .ok a ∧ f a = b := by
  cases x with
  | error e => cases h
  | ok a => exact ⟨a, rfl, Except.ok.inj h⟩

theorem eq_ok_of_toOption {ε α : Type} {x : Except ε α} {a : α} (h : x.toOption = some a) :
    x = .ok a := by
  cases x with
  | error e => cases h
  | ok b => exact congrArg _ (Option.some.inj h)

def Signal.event? : Signal → Option Event
  | .event e => some e
  | .checkpoint => none
  | .fault _ => none

/-- No more elements close than were opened, `depth` elements being open at the start. The end of
the outermost one is followed by a checkpoint, and a fault by nothing. -/
def WellNested : Nat → List Signal → Prop
  | _, [] => True
  | depth, .checkpoint :: rest => WellNested depth rest
  | _, .fault _ :: rest => rest = []
  | depth, .event (.opened _ _ _) :: rest => WellNested (depth + 1) rest
  | depth, .event (.text _ _) :: rest => WellNested depth rest
  | 0, .event (.closed _) :: _ => False
  | depth + 1, .event (.closed _) :: rest =>
    WellNested depth rest ∧ (depth = 0 → rest.head? = some .checkpoint)

/-- The events up to the end of the outermost element, `depth` elements being open at the start. -/
def outermost : Nat → List Event → List Event
  | _, [] => []
  | depth, .opened name attributes location :: rest =>
    .opened name attributes location :: outermost (depth + 1) rest
  | depth, .text content location :: rest => .text content location :: outermost depth rest
  | 0, .closed location :: rest => .closed location :: outermost 0 rest
  | 1, .closed location :: _ => [.closed location]
  | depth + 2, .closed location :: rest => .closed location :: outermost (depth + 1) rest

/-- The events of a document up to the end of its outermost element. -/
def documentEvents (source : List Char) : List Event :=
  outermost 0 ((signals source).filterMap Signal.event?)

/-- The events from the first start of an element on. -/
def fromRoot (events : List Event) : List Event :=
  events.dropWhile fun e => match e with
    | .text _ _ => true
    | _ => false

/-- The events of the outermost element of a document, from its start to its end. -/
def rootElement (source : List Char) : List Event := fromRoot (documentEvents source)

theorem outermost_cons (depth : Nat) (e : Event) (rest : List Event) :
    ∃ rest', outermost depth (e :: rest) = e :: rest' := by
  cases e with
  | opened name attributes place => exact ⟨_, rfl⟩
  | text content place => exact ⟨_, rfl⟩
  | closed place =>
    match depth with
    | 0 => exact ⟨_, rfl⟩
    | 1 => exact ⟨_, rfl⟩
    | depth + 2 => exact ⟨_, rfl⟩

theorem outermost_isPrefix (depth : Nat) (events : List Event) : outermost depth events <+: events := by
  induction events generalizing depth with
  | nil => exact List.prefix_refl _
  | cons e rest ih =>
    cases e with
    | opened name attributes place => exact (List.prefix_cons_inj _).mpr (ih _)
    | text content place => exact (List.prefix_cons_inj _).mpr (ih _)
    | closed place =>
      match depth with
      | 0 => exact (List.prefix_cons_inj _).mpr (ih _)
      | 1 => exact (List.prefix_cons_inj _).mpr List.nil_prefix
      | depth + 2 => exact (List.prefix_cons_inj _).mpr (ih _)

theorem mem_signals_of_documentEvents {source : List Char} {e : Event}
    (h : e ∈ documentEvents source) : .event e ∈ signals source := by
  obtain ⟨signal, hsignal, he⟩ := List.mem_filterMap.mp ((outermost_isPrefix _ _).subset h)
  cases signal <;> cases he
  exact hsignal

theorem fromRoot_concat {events : List Event} {e : Event}
    (h : fromRoot events ≠ [] ∨ ∀ content place, e ≠ .text content place) :
    fromRoot (events ++ [e]) = fromRoot events ++ [e] := by
  unfold fromRoot at h ⊢
  rw [List.dropWhile_append]
  split
  · rename_i hempty
    rw [List.isEmpty_iff] at hempty
    rw [hempty] at h ⊢
    cases e with
    | text content place => exact absurd rfl (h.resolve_left (fun h => h rfl) content place)
    | _ => rfl
  · rfl

namespace Assembler

variable {a : Assembler} {locate : Nat → Location}

theorem wellNested_flushed {depth : Nat} {rest : List Signal} (h : WellNested depth rest) :
    WellNested depth ((a.flushed locate).map .event ++ rest) := by
  unfold flushed
  split
  · exact h
  · simpa [WellNested] using h

theorem openTag_ok {content : List Char} {location : Location} {frame : Frame} {e : Event}
    (h : a.openTag content location = .ok (frame, e)) :
    ∃ name attributes, e = .opened name attributes location := by
  obtain ⟨raw, -, hopened⟩ := exists_of_map_ok h
  exact ⟨_, _, (Prod.mk.inj hopened).2.symm⟩

/-- A token keeps the balance: the frames of the assembler are the open elements. -/
theorem wellNested_step {t : Placed} {rest : Assembler → List Signal}
    (h : ∀ next, (a.step locate t).next = .ok next → WellNested next.frames.length (rest next)) :
    WellNested a.frames.length ((a.step locate t).events.map .event ++
      match (a.step locate t).next with
      | .error f => [.fault f]
      | .ok next => .checkpoint :: rest next) := by
  unfold step at h ⊢
  split at h <;> try simp only
  · rename_i content htoken
    cases hopen : a.openTag content (locate t.offset) with
    | error f => exact wellNested_flushed rfl
    | ok opened =>
      obtain ⟨frame, e⟩ := opened
      obtain ⟨name, attributes, rfl⟩ := openTag_ok hopen
      simp only [hopen, List.map_append, List.append_assoc] at h ⊢
      exact wellNested_flushed (by simpa [WellNested, opened] using h _ rfl)
  · rename_i content htoken
    cases hopen : a.openTag content (locate t.offset) with
    | error f => exact wellNested_flushed rfl
    | ok opened =>
      obtain ⟨frame, e⟩ := opened
      obtain ⟨name, attributes, rfl⟩ := openTag_ok hopen
      simp only [hopen, List.map_append, List.append_assoc] at h ⊢
      exact wellNested_flushed (by simpa [WellNested, opened, closed] using h _ rfl)
  · rename_i name htoken
    cases hframes : a.frames with
    | nil => trivial
    | cons frame frames =>
      simp only [hframes] at h ⊢
      split at h
      · rename_i hname
        simp only [if_pos hname, List.map_append, List.append_assoc] at h ⊢
        apply wellNested_flushed
        simpa [WellNested, closed, hframes] using h _ rfl
      · rename_i hname
        simp [if_neg hname, WellNested]
  · simpa [WellNested, push] using h _ rfl
  · simpa [WellNested, push] using h _ rfl
  · rename_i name htoken
    cases hresolve : resolveReference name with
    | error f => simp [WellNested]
    | ok c => simpa [WellNested, push, hresolve] using h
  · simpa [WellNested] using h _ rfl

theorem wellNested_signals (a : Assembler) (locate : Nat → Location) (fault : Option MarkupFault)
    (tokens : List Placed) : WellNested a.frames.length (a.signals locate fault tokens) := by
  induction tokens generalizing a with
  | nil =>
    cases fault with
    | none =>
      have h : WellNested a.frames.length ((a.flushed locate).map .event ++ []) :=
        wellNested_flushed trivial
      simpa [signals] using h
    | some f => trivial
  | cons t rest ih =>
    unfold signals
    exact wellNested_step fun next _ => ih next

end Assembler

/-- The elements of every source are well nested. -/
theorem wellNested_source (source : List Char) : WellNested 0 (signals source) :=
  Assembler.wellNested_signals .initial _ _ _

end ObjectMarkup.Markup
