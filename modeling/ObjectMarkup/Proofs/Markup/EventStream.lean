import Mathlib.Data.List.Chain
import ObjectMarkup.Proofs.Markup.Placement
import ObjectMarkup.Proofs.Markup.Tree

namespace ObjectMarkup.Markup

variable {locate : Nat → Location} {source : List Char}

namespace Event

def place : Event → Location
  | opened _ _ place => place
  | closed place => place
  | text _ place => place

def isOpening : Event → Bool
  | opened _ _ _ => true
  | _ => false

def isClosing : Event → Bool
  | closed _ => true
  | _ => false

def isText : Event → Bool
  | text _ _ => true
  | _ => false

end Event

/-- At no point of the events more elements have ended than have started. -/
def Balanced (events : List Event) : Prop :=
  ∀ front, front <+: events → front.countP Event.isClosing ≤ front.countP Event.isOpening

/-- No two texts are next to each other. -/
def TextsApart (events : List Event) : Prop :=
  events.IsChain fun e e' => e.isText = false ∨ e'.isText = false

/-- No event stands before an earlier one. -/
def Ordered (events : List Event) : Prop := events.Pairwise fun e e' => e.place ≤ e'.place

theorem Balanced.append {events events' : List Event} (h : Balanced events)
    (h' : ∀ front, front <+: events' → (events ++ front).countP Event.isClosing ≤
      (events ++ front).countP Event.isOpening) : Balanced (events ++ events') := by
  intro front hfront
  rcases List.prefix_or_prefix_of_prefix hfront (List.prefix_append events events') with hin | hover
  · exact h front hin
  · obtain ⟨more, rfl⟩ := hover
    exact h' more ((List.prefix_append_right_inj events).mp hfront)

def Placed.piece (t : Placed) : List Char := t.token.piece?.getD []

def textOf (tokens : List Placed) : List Char := tokens.flatMap Placed.piece

def IsRun (tokens : List Placed) : Prop := ∀ t ∈ tokens, t.token.isTag = false

/-- The event of the text that tokens without a tag are: none if there is no text, and else one that
stands at the first piece of it that is not empty. -/
inductive RunTold (locate : Nat → Location) : List Placed → List Event → Prop
  | none {run : List Placed} (empty : textOf run = []) : RunTold locate run []
  | some {front back : List Placed} {t : Placed} (blank : textOf front = []) (first : t.piece ≠ []) :
      RunTold locate (front ++ t :: back)
        [.text (String.ofList (textOf (front ++ t :: back))) (locate t.offset)]

/-- The events of a tag, which stand where it does. One that ends its element at once brings both. -/
inductive TagTold (locate : Nat → Location) : Placed → List Event → Prop
  | opened (tag : List Char) (offset : Nat) (name : QualifiedName) (attributes : List Attribute) :
      TagTold locate ⟨.openTag tag, offset⟩ [.opened name attributes (locate offset)]
  | empty (tag : List Char) (offset : Nat) (name : QualifiedName) (attributes : List Attribute) :
      TagTold locate ⟨.emptyTag tag, offset⟩
        [.opened name attributes (locate offset), .closed (locate offset)]
  | closed (tag : List Char) (offset : Nat) :
      TagTold locate ⟨.closeTag tag, offset⟩ [.closed (locate offset)]

/-- The events of tokens that end with a tag: those of the tags, in order, each after the event of the
text in front of it. -/
inductive TagsTold (locate : Nat → Location) : List Placed → List Event → Prop
  | start : TagsTold locate [] []
  | tag {tokens run : List Placed} {t : Placed} {events texts last : List Event}
      (before : TagsTold locate tokens events) (untagged : IsRun run) (text : RunTold locate run texts)
      (told : TagTold locate t last) :
      TagsTold locate (tokens ++ run ++ [t]) (events ++ texts ++ last)

namespace RunTold

variable {run : List Placed} {texts : List Event}

theorem countP_eq_zero (h : RunTold locate run texts) :
    texts.countP Event.isOpening = 0 ∧ texts.countP Event.isClosing = 0 := by
  cases h <;> simp [Event.isOpening, Event.isClosing]

theorem ne_empty (h : RunTold locate run texts) {content : String} {place : Location}
    (he : Event.text content place ∈ texts) : content ≠ "" := by
  cases h with
  | none => cases he
  | @some front back t blank first =>
    cases List.mem_singleton.mp he
    simp [textOf, first]

theorem place (h : RunTold locate run texts) :
    ∀ e ∈ texts, ∃ t ∈ run, e.place = locate t.offset := by
  cases h with
  | none => simp
  | @some front back t blank first =>
    intro e he
    cases List.mem_singleton.mp he
    exact ⟨t, by simp, rfl⟩

theorem ordered (h : RunTold locate run texts) : Ordered texts := by
  cases h with
  | none => exact .nil
  | some => exact List.pairwise_singleton _ _

theorem apart (h : RunTold locate run texts) : TextsApart texts := by
  cases h with
  | none => exact .nil
  | some => exact .singleton _

end RunTold

namespace TagTold

variable {t : Placed} {last : List Event}

theorem isText (h : TagTold locate t last) : ∀ e ∈ last, e.isText = false := by
  cases h <;> simp [Event.isText]

theorem place (h : TagTold locate t last) : ∀ e ∈ last, e.place = locate t.offset := by
  cases h <;> simp [Event.place]

theorem ne_nil (h : TagTold locate t last) : last ≠ [] := by
  cases h <;> simp

theorem ordered (h : TagTold locate t last) : Ordered last :=
  List.pairwise_of_forall_mem_list fun e he e' he' => by
    rw [h.place e he, h.place e' he']
    exact Location.le_refl _

/-- A tag that does not end too many elements does not do so in its middle either. -/
theorem countP_le (h : TagTold locate t last) (depth : Nat)
    (hlast : last.countP Event.isClosing ≤ last.countP Event.isOpening + depth) {front : List Event}
    (hfront : front <+: last) :
    front.countP Event.isClosing ≤ front.countP Event.isOpening + depth := by
  have hshort : ∀ (events : List Event) (e : Event), front <+: events ++ [e] →
      front = events ++ [e] ∨ front <+: events := fun _ _ => List.prefix_concat_iff.mp
  cases h with
  | opened tag offset name attributes =>
    rcases hshort [] _ hfront with rfl | hfront
    · exact hlast
    · simp [List.prefix_nil.mp hfront]
  | empty tag offset name attributes =>
    rcases hshort [_] _ hfront with rfl | hfront
    · exact hlast
    · rcases hshort [] _ hfront with rfl | hfront
      · simp [Event.isOpening, Event.isClosing]
      · simp [List.prefix_nil.mp hfront]
  | closed tag offset =>
    rcases hshort [] _ hfront with rfl | hfront
    · exact hlast
    · simp [List.prefix_nil.mp hfront]

end TagTold

/-- Where the last of some events is no text, texts stay apart behind them. -/
theorem TextsApart.append {events events' : List Event} (h : TextsApart events)
    (h' : TextsApart events') (hlast : ∀ e ∈ events.getLast?, e.isText = false) :
    TextsApart (events ++ events') :=
  List.IsChain.append h h' fun e he _ _ => .inl (hlast e he)

theorem textsApart_of_no_text {events : List Event} (h : ∀ e ∈ events, e.isText = false) :
    TextsApart events := by
  induction events with
  | nil => exact .nil
  | cons e rest ih =>
    obtain ⟨he, hrest⟩ := List.forall_mem_cons.mp h
    exact .cons (ih hrest) fun _ _ => .inl he

/-- Events behind others are in order when they stand at tokens behind theirs. -/
theorem Ordered.append {events events' : List Event} {tokens tokens' : List Placed}
    (h : Ordered events) (h' : Ordered events')
    (hplace : ∀ e ∈ events, ∃ t ∈ tokens, e.place = locate t.offset)
    (hplace' : ∀ e ∈ events', ∃ t ∈ tokens', e.place = locate t.offset)
    (hlocate : ∀ offset offset', offset ≤ offset' → locate offset ≤ locate offset')
    (hrising : (tokens ++ tokens').Pairwise (·.offset < ·.offset)) : Ordered (events ++ events') := by
  refine List.pairwise_append.mpr ⟨h, h', fun e he e' he' => ?_⟩
  obtain ⟨t, ht, hplace⟩ := hplace e he
  obtain ⟨t', ht', hplace'⟩ := hplace' e' he'
  rw [hplace, hplace']
  exact hlocate _ _ (Nat.le_of_lt ((List.pairwise_append.mp hrising).2.2 t ht t' ht'))

namespace TagsTold

variable {tokens run : List Placed} {events texts : List Event}

theorem isText_getLast? (h : TagsTold locate tokens events) :
    ∀ e ∈ events.getLast?, e.isText = false := by
  cases h with
  | start => simp
  | @tag tokens run t events texts last before untagged text told =>
    intro e he
    rw [List.getLast?_append_of_ne_nil _ told.ne_nil] at he
    exact told.isText e (List.mem_of_getLast? he)

theorem place (h : TagsTold locate tokens events) :
    ∀ e ∈ events, ∃ t ∈ tokens, e.place = locate t.offset := by
  induction h with
  | start => simp
  | @tag tokens run t events texts last before untagged text told ih =>
    intro e he
    simp only [List.mem_append] at he
    rcases he with (he | he) | he
    · obtain ⟨u, hu, hplace⟩ := ih e he
      exact ⟨u, by simp [hu], hplace⟩
    · obtain ⟨u, hu, hplace⟩ := text.place e he
      exact ⟨u, by simp [hu], hplace⟩
    · exact ⟨t, by simp, told.place e he⟩

theorem apart (h : TagsTold locate tokens events) : TextsApart events := by
  induction h with
  | start => exact .nil
  | @tag tokens run t events texts last before untagged text told ih =>
    rw [List.append_assoc]
    refine ih.append ?_ before.isText_getLast?
    refine List.IsChain.append text.apart (textsApart_of_no_text told.isText) ?_
    intro e _ e' he'
    exact .inr (told.isText e' (List.mem_of_mem_head? he'))

theorem ne_empty (h : TagsTold locate tokens events) {content : String} {place : Location}
    (he : Event.text content place ∈ events) : content ≠ "" := by
  induction h with
  | start => cases he
  | @tag tokens run t events texts last before untagged text told ih =>
    simp only [List.mem_append] at he
    rcases he with (he | he) | he
    · exact ih he
    · exact text.ne_empty he
    · cases told.isText _ he

theorem ordered (h : TagsTold locate tokens events)
    (hlocate : ∀ offset offset', offset ≤ offset' → locate offset ≤ locate offset')
    (hrising : tokens.Pairwise (·.offset < ·.offset)) : Ordered events := by
  induction h with
  | start => exact .nil
  | @tag tokens run t events texts last before untagged text told ih =>
    have hfront := (List.pairwise_append.mp hrising).1
    have htexts : ∀ e ∈ events ++ texts, ∃ u ∈ tokens ++ run, e.place = locate u.offset := by
      intro e he
      rcases List.mem_append.mp he with he | he
      · obtain ⟨u, hu, hplace⟩ := before.place e he
        exact ⟨u, List.mem_append_left _ hu, hplace⟩
      · obtain ⟨u, hu, hplace⟩ := text.place e he
        exact ⟨u, List.mem_append_right _ hu, hplace⟩
    have hlast : ∀ e ∈ last, ∃ u ∈ [t], e.place = locate u.offset := fun e he =>
      ⟨t, List.mem_singleton.mpr rfl, told.place e he⟩
    have hevents := ih (List.pairwise_append.mp hfront).1
    exact (hevents.append text.ordered before.place text.place hlocate hfront).append told.ordered
      htexts hlast hlocate hrising

end TagsTold

end ObjectMarkup.Markup
