import ObjectMarkup.Proofs.Markup.Balance

namespace ObjectMarkup.Markup

/-- What stands between two tags: a text, and then perhaps an element and what follows it. An empty
text is none at all. -/
inductive Body where
  | text (content : String)
  | element (before : String) (name : QualifiedName) (attributes : List Attribute)
      (inner after : Body)

/-- What a token adds to the text that it stands in, if it is no tag. -/
def Token.piece? : Token → Option (List Char)
  | .text content => some content
  | .literal content => some content
  | .reference name => (resolveReference name).toOption.map fun c => [c]
  | .skipped => some []
  | _ => none

/-- Tokens without a tag among them, and the text that they are. -/
inductive Pieces : List Char → List Placed → Prop
  | nil : Pieces [] []
  | cons {content text : List Char} {t : Placed} {tokens : List Placed}
      (piece : t.token.piece? = some content) (rest : Pieces text tokens) :
      Pieces (content ++ text) (t :: tokens)

/-- What a start tag declares, and the name and the attributes that it gives its element inside the
given declarations. -/
def Scope.startTag? (scope : Scope) (tag : List Char) :
    Option (Scope × QualifiedName × List Attribute) :=
  (tagAttributes tag).toOption.map fun raw =>
    let inside : Scope := declarations raw ++ scope
    (declarations raw, inside.qualify true (tagName tag), ownAttributes inside raw)

/-- The tokens that a body is written with, inside the given declarations. -/
inductive Body.Spelled : Scope → Body → List Placed → Prop
  | text {scope : Scope} {content : String} {tokens : List Placed}
      (pieces : Pieces content.toList tokens) : Spelled scope (.text content) tokens
  | element {scope declared : Scope} {before : String} {name : QualifiedName}
      {attributes : List Attribute} {inner after : Body} {tag : List Char}
      {pieces tokens rest : List Placed} {start ending : Nat}
      (text : Pieces before.toList pieces)
      (opens : scope.startTag? tag = some (declared, name, attributes))
      (inside : Spelled (declared ++ scope) inner tokens) (follows : Spelled scope after rest) :
      Spelled scope (.element before name attributes inner after)
        (pieces ++ ⟨.openTag tag, start⟩ :: (tokens ++ ⟨.closeTag (tagName tag), ending⟩ :: rest))
  | empty {scope declared : Scope} {before : String} {name : QualifiedName}
      {attributes : List Attribute} {after : Body} {tag : List Char} {pieces rest : List Placed}
      {start : Nat} (text : Pieces before.toList pieces)
      (opens : scope.startTag? tag = some (declared, name, attributes))
      (follows : Spelled scope after rest) :
      Spelled scope (.element before name attributes (.text "") after)
        (pieces ++ ⟨.emptyTag tag, start⟩ :: rest)

/-- Whether a source begins with a body. Nothing is said about what follows it. -/
def Body.Begins (body : Body) (source : List Char) : Prop :=
  ∃ front back, (scan source).tokens = front ++ back ∧ body.Spelled [] front

inductive TextTold : String → List Event → Prop
  | none : TextTold "" []
  | some {content : String} (nonempty : content ≠ "") (location : Location) :
      TextTold content [.text content location]

/-- The events of a body, wherever its tags and texts stand. -/
inductive Body.Told : Body → List Event → Prop
  | text {content : String} {events : List Event} (told : TextTold content events) :
      Told (.text content) events
  | element {before : String} {name : QualifiedName} {attributes : List Attribute}
      {inner after : Body} {texts events rest : List Event} (text : TextTold before texts)
      (inside : inner.Told events) (follows : after.Told rest) (start ending : Location) :
      Told (.element before name attributes inner after)
        (texts ++ .opened name attributes start :: (events ++ .closed ending :: rest))

theorem TextTold.eq_nil {events : List Event} (h : TextTold "" events) : events = [] := by
  cases h with
  | none => rfl
  | some nonempty location => exact absurd rfl nonempty

theorem TextTold.eq_text {content : String} {events : List Event} (h : TextTold content events)
    (hcontent : content ≠ "") : ∃ place, events = [.text content place] := by
  cases h with
  | none => exact absurd rfl hcontent
  | some nonempty location => exact ⟨location, rfl⟩

/-- The events of an element around a text and nothing else. -/
theorem Body.Told.of_text {name : QualifiedName} {content : String} {events : List Event}
    (h : (Body.element "" name [] (.text content) (.text "")).Told events)
    (hcontent : content ≠ "") : ∃ start place ending,
      events = [.opened name [] start, .text content place, .closed ending] := by
  cases h with
  | element text inside follows start ending =>
    obtain rfl := text.eq_nil
    cases follows with
    | text follows =>
      obtain rfl := follows.eq_nil
      cases inside with
      | text inside =>
        obtain ⟨place, rfl⟩ := inside.eq_text hcontent
        exact ⟨start, place, ending, rfl⟩

theorem TextTold.outermost_append {content : String} {events : List Event}
    (h : TextTold content events) (depth : Nat) (rest : List Event) :
    outermost depth (events ++ rest) = events ++ outermost depth rest := by
  cases h with
  | none => rfl
  | some nonempty location => simp [outermost]

/-- The events of a body inside an element are all within the outermost element. -/
theorem Body.Told.outermost_append {body : Body} {events : List Event} (h : body.Told events)
    (depth : Nat) (rest : List Event) :
    outermost (depth + 1) (events ++ rest) = events ++ outermost (depth + 1) rest := by
  induction h generalizing depth rest with
  | text told => exact told.outermost_append _ rest
  | element text inside follows start ending ihInside ihFollows =>
    simp only [List.append_assoc, List.cons_append, text.outermost_append, outermost, ihInside,
      ihFollows]

theorem Body.Told.outermost_element {before : String} {name : QualifiedName}
    {attributes : List Attribute} {inner : Body} {events : List Event}
    (h : (Body.element before name attributes inner (.text "")).Told events) (rest : List Event) :
    outermost 0 (events ++ rest) = events := by
  cases h with
  | element text inside follows =>
    cases follows with
    | text told =>
      cases told with
      | none =>
        simp only [List.append_assoc, List.cons_append, text.outermost_append, outermost,
          inside.outermost_append, List.nil_append]
      | some nonempty location => exact absurd rfl nonempty

namespace Assembler

variable {a next : Assembler} {locate : Nat → Location} {fault : Option MarkupFault}
  {t : Placed} {rest tokens : List Placed} {text : List Char}

def eventsFrom (a : Assembler) (locate : Nat → Location) (fault : Option MarkupFault)
    (tokens : List Placed) : List Event :=
  (a.signals locate fault tokens).filterMap Signal.event?

theorem eventsFrom_cons (h : (a.step locate t).next = .ok next) :
    a.eventsFrom locate fault (t :: rest) =
      (a.step locate t).events ++ next.eventsFrom locate fault rest := by
  have hevents : (Signal.event? ∘ Signal.event : Event → Option Event) = some := rfl
  simp only [eventsFrom, signals, h, List.filterMap_append, List.filterMap_map, hevents,
    List.filterMap_some, List.filterMap_cons, Signal.event?]

theorem step_piece {content : List Char} (h : t.token.piece? = some content) (a : Assembler)
    (locate : Nat → Location) :
    ∃ next, a.step locate t = ⟨[], .ok next⟩ ∧ next.frames = a.frames ∧
      next.pending = a.pending ++ content := by
  obtain ⟨token, offset⟩ := t
  cases token with
  | text c =>
    cases h
    exact ⟨_, rfl, rfl, rfl⟩
  | literal c =>
    cases h
    exact ⟨_, rfl, rfl, rfl⟩
  | skipped =>
    cases h
    exact ⟨_, rfl, rfl, (List.append_nil _).symm⟩
  | reference name =>
    obtain ⟨c, hc, rfl⟩ := Option.map_eq_some_iff.mp h
    have hresolve := eq_ok_of_toOption hc
    refine ⟨a.push [c] offset, ?_, rfl, rfl⟩
    simp only [step, hresolve]
  | openTag _ => cases h
  | emptyTag _ => cases h
  | closeTag _ => cases h

theorem eventsFrom_pieces (h : Pieces text tokens) (a : Assembler) (locate : Nat → Location)
    (fault : Option MarkupFault) (rest : List Placed) :
    ∃ next : Assembler, next.frames = a.frames ∧ next.pending = a.pending ++ text ∧
      a.eventsFrom locate fault (tokens ++ rest) = next.eventsFrom locate fault rest := by
  induction h generalizing a with
  | nil => exact ⟨a, rfl, (List.append_nil _).symm, rfl⟩
  | @cons content text t tokens piece _ ih =>
    obtain ⟨next, hstep, hframes, hpending⟩ := step_piece piece a locate
    obtain ⟨last, hlast, hpending', hevents⟩ := ih next
    refine ⟨last, hlast.trans hframes, ?_, ?_⟩
    · rw [hpending', hpending, List.append_assoc]
    · rw [List.cons_append, eventsFrom_cons (by rw [hstep]), hstep, hevents, List.nil_append]

theorem textTold_flushed {content : String} (h : a.pending = content.toList)
    (locate : Nat → Location) :
    TextTold content (a.flushed locate) := by
  unfold flushed
  rw [h]
  by_cases hempty : content = ""
  · rw [hempty]
    exact .none
  · rw [if_neg (by simpa using hempty), String.ofList_toList]
    exact .some hempty _

theorem step_openTag {tag : List Char} {frame : Frame} {e : Event} {offset : Nat}
    (h : a.openTag tag (locate offset) = .ok (frame, e)) :
    a.step locate ⟨.openTag tag, offset⟩ = ⟨a.flushed locate ++ [e], .ok (a.opened frame)⟩ := by
  simp only [step, h]

theorem step_emptyTag {tag : List Char} {frame : Frame} {e : Event} {offset : Nat}
    (h : a.openTag tag (locate offset) = .ok (frame, e)) :
    a.step locate ⟨.emptyTag tag, offset⟩ =
      ⟨a.flushed locate ++ [e, .closed (locate offset)], .ok (a.opened frame).closed⟩ := by
  simp only [step, h]

theorem step_closeTag {frame : Frame} {frames : List Frame} {offset : Nat}
    (h : a.frames = frame :: frames) :
    a.step locate ⟨.closeTag frame.name, offset⟩ =
      ⟨a.flushed locate ++ [.closed (locate offset)], .ok a.closed⟩ := by
  simp only [step, h, if_true]

theorem eventsFrom_openTag {tag : List Char} {frame : Frame} {e : Event} {offset : Nat}
    (h : a.openTag tag (locate offset) = .ok (frame, e)) :
    a.eventsFrom locate fault (⟨.openTag tag, offset⟩ :: rest) =
      a.flushed locate ++ e :: (a.opened frame).eventsFrom locate fault rest := by
  have hstep := step_openTag h
  rw [eventsFrom_cons (by rw [hstep]), hstep, List.append_assoc]
  rfl

theorem eventsFrom_emptyTag {tag : List Char} {frame : Frame} {e : Event} {offset : Nat}
    (h : a.openTag tag (locate offset) = .ok (frame, e)) :
    a.eventsFrom locate fault (⟨.emptyTag tag, offset⟩ :: rest) =
      a.flushed locate ++ e :: .closed (locate offset) ::
        (a.opened frame).closed.eventsFrom locate fault rest := by
  have hstep := step_emptyTag h
  rw [eventsFrom_cons (by rw [hstep]), hstep, List.append_assoc]
  rfl

theorem eventsFrom_closeTag {frame : Frame} {frames : List Frame} {offset : Nat}
    (h : a.frames = frame :: frames) :
    a.eventsFrom locate fault (⟨.closeTag frame.name, offset⟩ :: rest) =
      a.flushed locate ++ .closed (locate offset) :: a.closed.eventsFrom locate fault rest := by
  have hstep := @step_closeTag a locate frame frames offset h
  rw [eventsFrom_cons (by rw [hstep]), hstep, List.append_assoc]
  rfl

theorem openTag_eq {tag : List Char} {declared : Scope} {name : QualifiedName}
    {attributes : List Attribute} (h : a.scope.startTag? tag = some (declared, name, attributes))
    (hframes : next.frames = a.frames) (location : Location) :
    next.openTag tag location =
      .ok (⟨tagName tag, declared⟩, .opened name attributes location) := by
  have hscope : next.scope = a.scope := congrArg (List.flatMap Frame.declared) hframes
  unfold Scope.startTag? at h
  unfold openTag
  rw [hscope]
  obtain ⟨raw, htag, hopens⟩ := Option.map_eq_some_iff.mp h
  rw [eq_ok_of_toOption htag]
  cases hopens
  rfl

/-- The events of the tokens of a body are those of the body, but for the text at its end, which is
pending. -/
theorem eventsFrom_body {scope : Scope} {body : Body} (h : body.Spelled scope tokens)
    (a : Assembler) (locate : Nat → Location) (fault : Option MarkupFault)
    (hscope : a.scope = scope) (hpending : a.pending = []) (rest : List Placed) :
    ∃ (events : List Event) (next : Assembler), next.frames = a.frames ∧
      body.Told (events ++ next.flushed locate) ∧
      a.eventsFrom locate fault (tokens ++ rest) = events ++ next.eventsFrom locate fault rest := by
  -- By the way the body is spelled. Text is told at the next tag, so the last text of each body is
  -- still pending when its tokens end; the frames are those from before it.
  induction h generalizing a rest with
  | text pieces =>
    obtain ⟨next, hframes, htext, hevents⟩ := eventsFrom_pieces pieces a locate fault rest
    rw [hpending, List.nil_append] at htext
    exact ⟨[], next, hframes, .text (textTold_flushed htext locate), hevents⟩
  | @element _ declared _ name own _ _ tag _ _ _ start ending text opens inside follows ihInside
      ihFollows =>
    subst hscope
    simp only [List.append_assoc, List.cons_append]
    obtain ⟨b, hframes, htext, hbefore⟩ := eventsFrom_pieces text a locate fault _
    rw [hpending, List.nil_append] at htext
    obtain ⟨events, c, hframes', hinside, hevents⟩ := ihInside (b.opened ⟨tagName tag, declared⟩)
      (by simp [Assembler.scope, opened, hframes]) rfl _
    have hclosed : c.closed.frames = a.frames := by
      simp [closed, hframes', opened, hframes]
    obtain ⟨events', d, hlast, hfollows, hevents'⟩ := ihFollows c.closed
      (congrArg (List.flatMap Frame.declared) hclosed) rfl rest
    refine ⟨b.flushed locate ++ .opened name own (locate start) ::
      (events ++ c.flushed locate ++ .closed (locate ending) :: events'), d, hlast.trans hclosed,
      ?_, ?_⟩
    · have htold := textTold_flushed htext locate
      have hall : (Body.element _ name own _ _).Told _ :=
        .element htold hinside hfollows (locate start) (locate ending)
      simpa only [List.append_assoc, List.cons_append] using hall
    · rw [hbefore, eventsFrom_openTag (openTag_eq opens hframes _), hevents,
        eventsFrom_closeTag hframes', hevents']
      simp only [List.append_assoc, List.cons_append]
  | @empty _ declared _ name own _ tag _ _ start text opens follows ih =>
    subst hscope
    simp only [List.append_assoc, List.cons_append]
    obtain ⟨b, hframes, htext, hbefore⟩ := eventsFrom_pieces text a locate fault _
    rw [hpending, List.nil_append] at htext
    have hclosed : (b.opened ⟨tagName tag, declared⟩).closed.frames = a.frames := hframes
    obtain ⟨events, c, hlast, hfollows, hevents⟩ := ih (b.opened _).closed
      (congrArg (List.flatMap Frame.declared) hclosed) rfl rest
    refine ⟨b.flushed locate ++ .opened name own (locate start) :: .closed (locate start) :: events,
      c, hlast.trans hclosed, ?_, ?_⟩
    · have htold := textTold_flushed htext locate
      have hall : (Body.element _ name own _ _).Told _ :=
        .element htold (.text .none) hfollows (locate start) (locate start)
      simpa only [List.append_assoc, List.cons_append, List.nil_append] using hall
    · rw [hbefore, eventsFrom_emptyTag (openTag_eq opens hframes _), hevents]
      simp only [List.append_assoc, List.cons_append]

end Assembler

theorem Body.Told.flushed_eq_nil {before : String} {name : QualifiedName}
    {attributes : List Attribute} {inner : Body} {events : List Event} {a : Assembler}
    {locate : Nat → Location}
    (h : (Body.element before name attributes inner (.text "")).Told
      (events ++ a.flushed locate)) : a.flushed locate = [] := by
  generalize hall : events ++ a.flushed locate = all at h
  cases h with
  | element text inside follows =>
    cases follows with
    | text told =>
      cases told with
      | some nonempty location => exact absurd rfl nonempty
      | none =>
        unfold Assembler.flushed at hall ⊢
        split
        · rfl
        · rename_i hpending
          rw [if_neg hpending, ← List.cons_append, ← List.append_assoc] at hall
          cases (List.append_inj' hall rfl).2

/-- The events of a document are those of the element that it begins with. -/
theorem Body.Begins.told {source : List Char} {before : String} {name : QualifiedName}
    {attributes : List Attribute} {inner : Body}
    (h : (Body.element before name attributes inner (.text "")).Begins source) :
    (Body.element before name attributes inner (.text "")).Told (documentEvents source) := by
  obtain ⟨front, back, htokens, hspelled⟩ := h
  obtain ⟨events, next, -, htold, hevents⟩ :=
    Assembler.eventsFrom_body hspelled .initial (Location.ofOffset source) (scan source).fault
      rfl rfl back
  rw [htold.flushed_eq_nil, List.append_nil] at htold
  have hall : (signals source).filterMap Signal.event? = _ := htokens ▸ hevents
  rw [documentEvents, hall, htold.outermost_element]
  exact htold

end ObjectMarkup.Markup
