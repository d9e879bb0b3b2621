import ObjectMarkup.Proofs.Markup.Scanning
import ObjectMarkup.Proofs.Spelling.Source

namespace ObjectMarkup

namespace Markup

variable {ρ : String → String}

namespace Recording

def unplaced (r : Recording) : Recording := { r with events := r.events.map Event.unplaced }

def requalify (ρ : String → String) (r : Recording) : Recording :=
  { r with events := r.events.map (Event.requalify ρ) }

def after (events : List Event) (r : Recording) : Recording :=
  { r with events := events ++ r.events }

@[simp] theorem after_nil (r : Recording) : r.after [] = r := rfl

theorem unplaced_after (events : List Event) (r : Recording) :
    (r.after events).unplaced = r.unplaced.after (events.map Event.unplaced) := by
  simp [unplaced, after]

theorem requalify_id (r : Recording) : r.requalify id = r := by
  obtain ⟨events, fault⟩ := r
  simp only [requalify, mk.injEq, and_true]
  exact List.map_id'' Event.requalify_id events

/-- Recordings are alike if the second one is the first in other words, but for places. -/
theorem Alike.of_unplaced {r r' : Recording} (h : r'.unplaced = r.unplaced.requalify ρ) :
    r.Alike ρ r' := by
  obtain ⟨events, fault⟩ := r
  obtain ⟨events', fault'⟩ := r'
  simp only [unplaced, requalify, List.map_map, mk.injEq] at h
  have hcomm : Event.requalify ρ ∘ Event.unplaced = Event.unplaced ∘ Event.requalify ρ := by
    funext e
    cases e <;> rfl
  have hforall : List.Forall₂ Eq (events'.map Event.unplaced)
      (events.map (Event.unplaced ∘ Event.requalify ρ)) := by
    rw [List.forall₂_eq_eq_eq, h.1, hcomm]
  rw [List.forall₂_map_left_iff, List.forall₂_map_right_iff] at hforall
  exact ⟨hforall.flip, h.2⟩

end Recording

theorem notes_append (events : List Event) (signals : List Signal) :
    notes (events.map .event ++ signals) = (notes signals).after events := by
  have hevents : (Signal.event? ∘ Signal.event : Event → Option Event) = some := rfl
  have hfault : (events.map Signal.event).findSome? Signal.fault? = none := by
    simp [Signal.fault?]
  simp only [notes, Recording.after, List.filterMap_append, List.filterMap_map, hevents,
    List.filterMap_some, List.findSome?_append, hfault, Option.none_or]

namespace Assembler

def still (a : Assembler) : Assembler := { a with start := 0 }

theorem flushed_still (a : Assembler) (locate : Nat → Location) :
    a.still.flushed (fun _ => default) = (a.flushed locate).map Event.unplaced := by
  unfold flushed
  change (if a.pending.isEmpty = true then _ else _) = _
  split <;> rfl

theorem push_still (a : Assembler) (content : List Char) (offset : Nat) :
    a.still.push content 0 = (a.push content offset).still := by
  unfold push still
  dsimp only
  split <;> rfl

theorem openTag_still (a : Assembler) (content : List Char) (place : Location) :
    a.still.openTag content default =
      (a.openTag content place).map fun (frame, e) => (frame, e.unplaced) := by
  unfold openTag
  cases tagAttributes content <;> rfl

/-- A token does the same to the state wherever it stands. -/
theorem step_still (a : Assembler) (locate : Nat → Location) (t : Placed) :
    a.still.step (fun _ => default) ⟨t.token, 0⟩ =
      ⟨(a.step locate t).events.map Event.unplaced, (a.step locate t).next.map still⟩ := by
  obtain ⟨token, offset⟩ := t
  cases token with
  | openTag content =>
    simp only [step, openTag_still a content (locate offset), flushed_still a locate]
    cases a.openTag content (locate offset) with
    | error f => rfl
    | ok p => simp [Except.map, opened, still]
  | emptyTag content =>
    simp only [step, openTag_still a content (locate offset), flushed_still a locate]
    cases a.openTag content (locate offset) with
    | error f => rfl
    | ok p => simp [Except.map, opened, closed, still, Event.unplaced]
  | closeTag name =>
    have hframes : a.still.frames = a.frames := rfl
    simp only [step, hframes, flushed_still a locate]
    cases a.frames with
    | nil => rfl
    | cons frame frames =>
      dsimp only
      split
      · simp [Except.map, closed, still, Event.unplaced]
      · rfl
  | text content => simp only [step, push_still a content offset, List.map_nil, Except.map]
  | literal content => simp only [step, push_still a content offset, List.map_nil, Except.map]
  | reference name =>
    simp only [step]
    cases resolveReference name with
    | error f => rfl
    | ok c => simp only [push_still a [c] offset, List.map_nil, Except.map]
  | skipped => rfl

/-- What a token brings, without places. -/
def take (a : Assembler) (t : Token) : Outcome := a.still.step (fun _ => default) ⟨t, 0⟩

/-- What is told of tokens from a state on, without places. -/
def told (a : Assembler) (locate : Nat → Location) (fault : Option MarkupFault)
    (tokens : List Placed) : Recording :=
  (notes (a.signals locate fault tokens)).unplaced

end Assembler

/-- What is told when a token has brought its events and `rest` is told from the next state on. -/
def Outcome.followedBy (o : Outcome) (rest : Assembler → Recording) : Recording :=
  match o.next with
  | .error f => ⟨o.events, some f⟩
  | .ok a => (rest a).after o.events

namespace Assembler

variable {a a' : Assembler} {locate locate' : Nat → Location} {fault : Option MarkupFault}

theorem told_nil (a : Assembler) (locate : Nat → Location) :
    a.told locate none [] = ⟨a.still.flushed fun _ => default, none⟩ := by
  have hnotes := notes_append (a.flushed locate) []
  rw [List.append_nil] at hnotes
  unfold told signals
  dsimp only
  rw [hnotes, Recording.unplaced_after, flushed_still a locate]
  simp [notes, Recording.unplaced, Recording.after]

theorem told_cons (a : Assembler) (locate : Nat → Location) (fault : Option MarkupFault)
    (t : Placed) (rest : List Placed) :
    a.told locate fault (t :: rest) =
      Outcome.followedBy ⟨(a.step locate t).events.map Event.unplaced, (a.step locate t).next⟩
        fun b => b.told locate fault rest := by
  unfold told Outcome.followedBy
  rw [signals]
  dsimp only
  rw [notes_append, Recording.unplaced_after]
  cases (a.step locate t).next with
  | error f => simp [notes, Recording.unplaced, Recording.after, Signal.event?, Signal.fault?]
  | ok b => rfl

/-- What is told depends on neither the places of the tokens nor the place of the pending text. -/
theorem told_congr {tokens tokens' : List Placed} (ha : a.still = a'.still)
    (htokens : tokens.map Placed.token = tokens'.map Placed.token) :
    a.told locate fault tokens = a'.told locate' fault tokens' := by
  induction tokens generalizing a a' tokens' with
  | nil =>
    cases tokens' with
    | cons t tokens' => cases htokens
    | nil =>
      cases fault with
      | none => rw [told_nil, told_nil, ha]
      | some f => rfl
  | cons t rest ih =>
    cases tokens' with
    | nil => cases htokens
    | cons t' rest' =>
      obtain ⟨htoken, hrest⟩ := List.cons.inj htokens
      have hstep := step_still a locate t
      rw [ha, htoken, step_still a' locate' t', Outcome.mk.injEq] at hstep
      obtain ⟨hevents, hnext⟩ := hstep
      rw [told_cons, told_cons, hevents]
      cases hb : (a.step locate t).next with
      | error f =>
        cases hb' : (a'.step locate' t').next with
        | error f' =>
          rw [hb, hb'] at hnext
          cases hnext
          rfl
        | ok b' =>
          rw [hb, hb'] at hnext
          cases hnext
      | ok b =>
        cases hb' : (a'.step locate' t').next with
        | error f' =>
          rw [hb, hb'] at hnext
          cases hnext
        | ok b' =>
          rw [hb, hb'] at hnext
          exact congrArg (Recording.after _) (ih (Except.ok.inj hnext).symm hrest)

theorem told_take (a : Assembler) (fault : Option MarkupFault) (t : Placed) (rest : List Placed) :
    a.told (fun _ => default) fault (t :: rest) =
      (a.take t.token).followedBy fun b => b.told (fun _ => default) fault rest := by
  rw [take, step_still a (fun _ => default) t, told_cons]
  unfold Outcome.followedBy
  cases (a.step (fun _ => default) t).next with
  | error f => rfl
  | ok b => exact congrArg (Recording.after _) (told_congr rfl rfl)

end Assembler

/-- The tokens of a source do not depend on where it begins, nor on fuel that suffices. -/
theorem scanFrom_congr {fuel fuel' : Nat} {cs : List Char} (h : cs.length < fuel)
    (h' : cs.length < fuel') (offset offset' : Nat) :
    (scanFrom fuel offset cs).fault = (scanFrom fuel' offset' cs).fault ∧
      (scanFrom fuel offset cs).tokens.map Placed.token =
        (scanFrom fuel' offset' cs).tokens.map Placed.token := by
  induction fuel generalizing fuel' cs offset offset' with
  | zero => cases h
  | succ fuel ih =>
    obtain ⟨fuel', rfl⟩ : ∃ n, fuel' = n + 1 := ⟨fuel' - 1, by omega⟩
    cases cs with
    | nil => exact ⟨rfl, rfl⟩
    | cons c cs =>
      simp only [scanFrom]
      cases hscan : scanToken (c :: cs) with
      | error f => exact ⟨rfl, rfl⟩
      | ok s =>
        have hshort := scanToken_shortens hscan
        have hrest : s.rest.length < fuel := by omega
        have hrest' : s.rest.length < fuel' := by omega
        obtain ⟨hfault, htokens⟩ := ih hrest hrest' (offset + Text.byteLength s.written)
          (offset' + Text.byteLength s.written)
        exact ⟨hfault, congrArg (s.token :: ·) htokens⟩

/-- What is told of a source from a state on, without places. -/
def tell (a : Assembler) (cs : List Char) : Recording :=
  a.told (fun _ => default) (scanFrom (cs.length + 1) 0 cs).fault
    (scanFrom (cs.length + 1) 0 cs).tokens

section Tell

variable (a : Assembler) {c : Char} {cs : List Char} {s : Scanned}

theorem tell_congr {a a' : Assembler} (h : a.still = a'.still) (cs : List Char) :
    tell a cs = tell a' cs :=
  Assembler.told_congr h rfl

theorem tell_nil : tell a [] = ⟨a.still.flushed fun _ => default, none⟩ :=
  a.told_nil _

theorem tell_fault {f : MarkupFault} (h : scanToken (c :: cs) = .error f) :
    tell a (c :: cs) = ⟨[], some f⟩ := by
  unfold tell
  simp only [scanFrom, h]
  rfl

theorem tell_token (h : scanToken (c :: cs) = .ok s) :
    tell a (c :: cs) = (a.take s.token).followedBy fun b => tell b s.rest := by
  have hshort := scanToken_shortens h
  unfold tell
  simp only [List.length_cons, scanFrom, h]
  rw [Assembler.told_take]
  congr 1
  funext b
  rw [List.length_cons] at hshort
  obtain ⟨hfault, htokens⟩ := scanFrom_congr hshort (Nat.lt_succ_self s.rest.length)
    (0 + Text.byteLength s.written) 0
  rw [hfault]
  exact Assembler.told_congr rfl htokens

theorem tell_text (hc : isPlain c = true) : tell a (c :: cs) =
    tell (a.push (c :: cs.takeWhile isPlain) 0) (cs.dropWhile isPlain) := by
  rw [tell_token a (scanToken_plain hc cs)]
  change (tell (a.still.push (c :: cs.takeWhile isPlain) 0) _).after [] = _
  rw [Recording.after_nil]
  exact tell_congr (by rw [Assembler.push_still a _ 0]; rfl) _

theorem tell_plain (hc : isPlain c = true) : tell a (c :: cs) = tell (a.push [c] 0) cs := by
  rw [tell_text a hc]
  cases cs with
  | nil => rfl
  | cons d cs =>
    cases hd : isPlain d with
    | true =>
      rw [tell_text _ hd, List.takeWhile_cons_of_pos hd, List.dropWhile_cons_of_pos hd]
      refine tell_congr ?_ _
      simp [Assembler.push, Assembler.still]
    | false =>
      rw [List.takeWhile_cons_of_neg (by simp [hd]), List.dropWhile_cons_of_neg (by simp [hd])]

theorem tell_plains {text : List Char} (htext : ∀ c ∈ text, isPlain c = true) (rest : List Char) :
    tell a (text ++ rest) = tell (a.push text 0) rest := by
  induction text generalizing a with
  | nil => exact tell_congr (by simp [Assembler.push, Assembler.still]) rest
  | cons c text ih =>
    rw [List.cons_append, tell_plain a (htext c List.mem_cons_self),
      ih _ fun d hd => htext d (List.mem_cons_of_mem _ hd)]
    exact tell_congr (by simp [Assembler.push, Assembler.still]) rest

/-- A token that is scanned from its piece alone and is not plain text does its step, whatever
follows. -/
theorem tell_piece {t : Token} {piece : List Char}
    (scanned : scanToken piece = .ok ⟨t, piece, []⟩) (markup : t.isText = false)
    (rest : List Char) :
    tell a (piece ++ rest) = (a.take t).followedBy fun b => tell b rest := by
  cases piece with
  | nil =>
    cases scanned
    cases markup
  | cons c piece =>
    cases hc : isPlain c with
    | true =>
      rw [scanToken_plain hc, Except.ok.injEq, Scanned.mk.injEq] at scanned
      rw [← scanned.1] at markup
      cases markup
    | false =>
      have hscan := (leads_markup hc scanned).2 rest
      exact tell_token a hscan

end Tell

/-- The text of a source, without the byte order marks at its start that do not count. -/
def body (source : List Char) : List Char := Text.dropMark (Text.dropMark source)

theorem notes_signals (source : List Char) :
    (notes (signals (Text.dropMark source))).unplaced = tell .initial (body source) :=
  Assembler.told_congr rfl rfl

end Markup

/-- Two sources of which the same is told, in other words, are read alike. -/
theorem Reader.readsAlike_of_tell {ρ : String → String} (hρ : KeepsControl ρ) (r : Reader)
    {source source' : List Char}
    (h : Markup.tell .initial (Markup.body source') =
      (Markup.tell .initial (Markup.body source)).requalify ρ) :
    r.ReadsAlike ρ source source' := by
  refine r.readsAlike_of_notes hρ (.of_unplaced ?_)
  rw [Markup.notes_signals, Markup.notes_signals, h]

end ObjectMarkup
