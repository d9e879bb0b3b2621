import ObjectMarkup.Location
import ObjectMarkup.Markup.Name
import ObjectMarkup.Markup.Token

namespace ObjectMarkup.Markup

/-- What happens in a document. Pieces of text with no tag between them are one event, whatever
comments or references they are broken by. An event stands at the first byte of its tag, or of its
first piece that is not empty. -/
inductive Event where
  | opened (name : QualifiedName) (attributes : List Attribute) (location : Location)
  | closed (location : Location)
  | text (content : String) (location : Location)
  deriving DecidableEq, Repr

/-- What the reader of a document is told. -/
inductive Signal where
  | event (e : Event)
  /-- A token is done with. -/
  | checkpoint
  /-- The document is at fault here, and nothing follows. -/
  | fault (f : MarkupFault)
  deriving DecidableEq, Repr

/-- An open element: the name in its tag, and the declarations made there. -/
structure Frame where
  name : List Char
  declared : Scope
  deriving DecidableEq, Repr

/-- The state between two tokens: the open elements, the innermost first, and the text since the
last tag with the offset at which it starts. -/
structure Assembler where
  frames : List Frame
  pending : List Char
  start : Nat
  deriving DecidableEq, Repr

/-- The events that one token brings, and the state after it, unless the document is at fault. -/
structure Outcome where
  events : List Event
  next : Except MarkupFault Assembler

namespace Assembler

def initial : Assembler := ⟨[], [], 0⟩

def scope (a : Assembler) : Scope := a.frames.flatMap Frame.declared

def push (a : Assembler) (content : List Char) (offset : Nat) : Assembler :=
  { a with
    pending := a.pending ++ content
    start := if a.pending.isEmpty then offset else a.start }

/-- The event for the text since the last tag, if there is any. -/
def flushed (a : Assembler) (locate : Nat → Location) : List Event :=
  if a.pending.isEmpty then [] else [.text (String.ofList a.pending) (locate a.start)]

def opened (a : Assembler) (frame : Frame) : Assembler :=
  { a with frames := frame :: a.frames, pending := [] }

def closed (a : Assembler) : Assembler := { a with frames := a.frames.tail, pending := [] }

def openTag (a : Assembler) (content : List Char) (location : Location) :
    Except MarkupFault (Frame × Event) :=
  (tagAttributes content).map fun attributes =>
    let declared := declarations attributes
    let scope : Scope := declared ++ a.scope
    (⟨tagName content, declared⟩,
      .opened (scope.qualify true (tagName content)) (ownAttributes scope attributes) location)

/-- What a token brings. A closing tag must have the name of the innermost open element. -/
def step (a : Assembler) (locate : Nat → Location) (t : Placed) : Outcome :=
  match t.token with
  | .openTag content =>
    match a.openTag content (locate t.offset) with
    | .error f => ⟨a.flushed locate, .error f⟩
    | .ok (frame, e) => ⟨a.flushed locate ++ [e], .ok (a.opened frame)⟩
  | .emptyTag content =>
    match a.openTag content (locate t.offset) with
    | .error f => ⟨a.flushed locate, .error f⟩
    | .ok (frame, e) =>
      ⟨a.flushed locate ++ [e, .closed (locate t.offset)], .ok (a.opened frame).closed⟩
  | .closeTag name =>
    match a.frames with
    | [] => ⟨[], .error .unmatchedEndTag⟩
    | frame :: _ =>
      if frame.name = name then
        ⟨a.flushed locate ++ [.closed (locate t.offset)], .ok a.closed⟩
      else
        ⟨[], .error .mismatchedEndTag⟩
  | .text content => ⟨[], .ok (a.push content t.offset)⟩
  | .literal content => ⟨[], .ok (a.push content t.offset)⟩
  | .reference name =>
    match resolveReference name with
    | .error f => ⟨[], .error f⟩
    | .ok c => ⟨[], .ok (a.push [c] t.offset)⟩
  | .skipped => ⟨[], .ok a⟩

/-- What the reader is told from a state on. -/
def signals (a : Assembler) (locate : Nat → Location) (fault : Option MarkupFault) :
    List Placed → List Signal
  | [] =>
    match fault with
    | some f => [.fault f]
    | none => (a.flushed locate).map .event
  | t :: rest =>
    let outcome := a.step locate t
    outcome.events.map .event ++
      match outcome.next with
      | .error f => [.fault f]
      | .ok a => .checkpoint :: a.signals locate fault rest

end Assembler

def signals (source : List Char) : List Signal :=
  let s := scan source
  Assembler.initial.signals (Location.ofOffset source) s.fault s.tokens

/-- Hands signals to a reader until it has had enough, they end, or there is a fault. It is asked
after each token. -/
def deliver {m : Type → Type} [Monad m] {σ : Type} (handle : σ → Event → m σ) (finished : σ → Bool)
    (refuse : σ → MarkupFault → m σ) : List Signal → σ → m σ
  | [], s => pure s
  | .event e :: rest, s => do deliver handle finished refuse rest (← handle s e)
  | .checkpoint :: rest, s =>
    if finished s then pure s else deliver handle finished refuse rest s
  | .fault f :: _, s => refuse s f

/-- The events of a source, as read by one who notes them down. -/
structure Recording where
  events : List Event
  fault : Option MarkupFault
  deriving DecidableEq, Repr

def Recording.closings (r : Recording) : Nat :=
  r.events.countP fun e => match e with
    | .closed _ => true
    | _ => false

/-- Notes the events of a source down, up to the fault or until enough elements have closed. -/
def record (source : List Char) (enough : Option Nat) : Recording :=
  deliver (m := Id) (fun r e => { r with events := r.events ++ [e] })
    (fun r => enough.any fun n => n ≤ r.closings) (fun r f => { r with fault := some f })
    (signals source) ⟨[], none⟩

end ObjectMarkup.Markup
