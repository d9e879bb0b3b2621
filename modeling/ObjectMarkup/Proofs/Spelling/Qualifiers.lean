import Mathlib.Logic.Function.Basic
import ObjectMarkup.Proofs.Spelling.Telling

namespace ObjectMarkup

namespace Markup

/-- The characters that a prefix may have. The others end a name or a tag, or begin a quote. -/
def isPrefixChar (c : Char) : Bool :=
  isKeyChar c && c ≠ ':' && c ≠ '>' && c ≠ '"' && c ≠ '\''

/-- Whether a text may stand before the colon of a name. It cannot begin like what is no start
tag. -/
def isPrefix (x : List Char) : Bool :=
  x.all isPrefixChar && x.head?.any fun c => c ≠ '/' && c ≠ '!' && c ≠ '?'

theorem isPrefixChar_of_mem {x : List Char} (hx : isPrefix x = true) :
    ∀ c ∈ x, isPrefixChar c = true := by
  simp only [isPrefix, Bool.and_eq_true, List.all_eq_true] at hx
  exact hx.1

/-- A renaming of qualifiers. It moves prefixes only, and not those with a meaning of their own. -/
structure Renaming (σ : List Char → List Char) : Prop where
  injective : Function.Injective σ
  control : σ controlQualifier.toList = controlQualifier.toList
  declaring : σ "xmlns".toList = "xmlns".toList
  moved : ∀ x, σ x ≠ x → isPrefix x = true ∧ isPrefix (σ x) = true

def respellName (σ : List Char → List Char) (name : List Char) : List Char :=
  match Text.cutFirst ':' name with
  | some (qualifier, localName) => σ qualifier ++ ':' :: localName
  | none => name

/-- The key of an attribute with its qualifier renamed, or the one that it declares. -/
def respellKey (σ : List Char → List Char) (key : List Char) : List Char :=
  if "xmlns:".toList.isPrefixOf key then "xmlns:".toList ++ σ (key.drop 6) else respellName σ key

/-- The renaming of the qualifiers of names that have been read. -/
def onStrings (σ : List Char → List Char) (x : String) : String := String.ofList (σ x.toList)

def RawAttribute.respell (σ : List Char → List Char) (a : RawAttribute) : RawAttribute :=
  { a with key := respellKey σ a.key }

def Declaration.requalify (ρ : String → String) (d : Declaration) : Declaration :=
  { d with qualifier := d.qualifier.map ρ }

def Frame.respell (σ : List Char → List Char) (f : Frame) : Frame :=
  ⟨respellName σ f.name, f.declared.map (Declaration.requalify (onStrings σ))⟩

def Assembler.respell (σ : List Char → List Char) (a : Assembler) : Assembler :=
  { a with frames := a.frames.map (Frame.respell σ) }

namespace Renaming

variable {σ : List Char → List Char}

theorem colon_not_mem (h : Renaming σ) {x : List Char} (hx : ':' ∉ x) : ':' ∉ σ x := by
  by_cases hmoved : σ x = x
  · rwa [hmoved]
  · intro hmem
    have hchar := isPrefixChar_of_mem (h.moved x hmoved).2 _ hmem
    cases hchar

theorem cutFirst_respellName (h : Renaming σ) (name : List Char) :
    Text.cutFirst ':' (respellName σ name) =
      (Text.cutFirst ':' name).map fun (x, localName) => (σ x, localName) := by
  unfold respellName
  cases hcut : Text.cutFirst ':' name with
  | none => exact hcut
  | some p =>
    obtain ⟨x, localName⟩ := p
    exact Text.cutFirst_append (h.colon_not_mem (Text.cutFirst_eq_some hcut).2) localName

theorem respellName_injective (h : Renaming σ) : Function.Injective (respellName σ) := by
  intro a b hab
  have hcut := congrArg (Text.cutFirst ':') hab
  rw [h.cutFirst_respellName, h.cutFirst_respellName] at hcut
  cases ha : Text.cutFirst ':' a with
  | none =>
    rw [ha] at hcut
    have hb : Text.cutFirst ':' b = none := by simpa using hcut.symm
    simpa [respellName, ha, hb] using hab
  | some p =>
    obtain ⟨x, l⟩ := p
    rw [ha] at hcut
    cases hb : Text.cutFirst ':' b with
    | none => simp [hb] at hcut
    | some q =>
      obtain ⟨y, m⟩ := q
      simp only [hb, Option.map_some, Option.some.injEq, Prod.mk.injEq] at hcut
      rw [(Text.cutFirst_eq_some ha).1, (Text.cutFirst_eq_some hb).1, h.injective hcut.1, hcut.2]

theorem declares_iff {key : List Char} : "xmlns:".toList.isPrefixOf key = true ↔
    ∃ l, Text.cutFirst ':' key = some ("xmlns".toList, l) := by
  constructor
  · intro h
    obtain ⟨l, rfl⟩ := List.isPrefixOf_iff_prefix.mp h
    exact ⟨l, Text.cutFirst_append (x := "xmlns".toList) (by decide) l⟩
  · rintro ⟨l, h⟩
    rw [(Text.cutFirst_eq_some h).1]
    exact List.isPrefixOf_iff_prefix.mpr ⟨l, rfl⟩

/-- A key is respelled as one that declares a qualifier just if it is one. -/
theorem declares_respellKey (h : Renaming σ) (key : List Char) :
    "xmlns:".toList.isPrefixOf (respellKey σ key) = "xmlns:".toList.isPrefixOf key := by
  unfold respellKey
  split
  · rename_i hkey
    rw [hkey]
    exact List.isPrefixOf_iff_prefix.mpr (List.prefix_append _ _)
  · rename_i hkey
    rw [Bool.not_eq_true] at hkey
    rw [hkey, Bool.eq_false_iff]
    intro hname
    obtain ⟨l, hcut⟩ := declares_iff.mp hname
    rw [h.cutFirst_respellName] at hcut
    obtain ⟨⟨x, m⟩, hx, hxm⟩ := Option.map_eq_some_iff.mp hcut
    have hxmlns : x = "xmlns".toList :=
      h.injective ((Prod.mk.inj hxm).1.trans h.declaring.symm)
    rw [declares_iff.mpr ⟨m, hxmlns ▸ hx⟩] at hkey
    cases hkey

theorem respellKey_injective (h : Renaming σ) : Function.Injective (respellKey σ) := by
  intro a b hab
  have hdeclares := congrArg (List.isPrefixOf "xmlns:".toList) hab
  rw [h.declares_respellKey, h.declares_respellKey] at hdeclares
  unfold respellKey at hab
  rw [hdeclares] at hab
  split at hab
  · rename_i hb
    obtain ⟨l, rfl⟩ := List.isPrefixOf_iff_prefix.mp (hdeclares.trans hb)
    obtain ⟨m, rfl⟩ := List.isPrefixOf_iff_prefix.mp hb
    exact congrArg _ (h.injective (List.append_cancel_left hab))
  · exact h.respellName_injective hab

/-- What a renaming does to qualifiers, it does without merging two. -/
theorem onStrings_injective (h : Renaming σ) : Function.Injective (onStrings σ) := by
  intro x y hxy
  exact String.toList_inj.mp (h.injective (String.ofList_injective hxy))

theorem keepsControl (h : Renaming σ) : KeepsControl (onStrings σ) := by
  have hfixed : onStrings σ controlQualifier = controlQualifier := by
    unfold onStrings
    rw [h.control, String.ofList_toList]
  intro x
  constructor
  · intro hx
    exact h.onStrings_injective (hx.trans hfixed.symm)
  · rintro rfl
    exact hfixed

theorem lookup_requalify (h : Renaming σ) (scope : Scope) (qualifier : Option String) :
    Scope.lookup (scope.map (Declaration.requalify (onStrings σ)))
      (qualifier.map (onStrings σ)) = scope.lookup qualifier := by
  have hsame : (fun d : Declaration => decide (d.qualifier = qualifier.map (onStrings σ))) ∘
      Declaration.requalify (onStrings σ) = fun d => decide (d.qualifier = qualifier) := by
    funext d
    have hinj := Option.map_injective h.onStrings_injective
    exact decide_eq_decide.mpr ⟨fun heq => hinj heq, fun heq => congrArg (Option.map (onStrings σ)) heq⟩
  unfold Scope.lookup
  rw [List.find?_map, hsame]
  cases List.find? (fun d => decide (d.qualifier = qualifier)) scope <;> rfl

/-- A respelled name stands for the same namespace where the qualifiers are declared respelled. -/
theorem qualify_respellName (h : Renaming σ) (scope : Scope) (plainCounts : Bool)
    (raw : List Char) :
    Scope.qualify (scope.map (Declaration.requalify (onStrings σ))) plainCounts
      (respellName σ raw) = (scope.qualify plainCounts raw).requalify (onStrings σ) := by
  unfold Scope.qualify
  rw [h.cutFirst_respellName]
  cases hcut : Text.cutFirst ':' raw with
  | none =>
    have hraw : respellName σ raw = raw := by simp [respellName, hcut]
    have hlookup := h.lookup_requalify scope none
    rw [Option.map_none] at hlookup
    simp only [Option.map_none, hraw, hlookup]
    rfl
  | some p =>
    obtain ⟨x, l⟩ := p
    have hlookup := h.lookup_requalify scope (some (String.ofList x))
    simp only [Option.map_some, onStrings, String.toList_ofList] at hlookup
    simp only [Option.map_some, hlookup]
    simp [QualifiedName.requalify, onStrings]

theorem respellKey_eq_xmlns (h : Renaming σ) (key : List Char) :
    respellKey σ key = "xmlns".toList ↔ key = "xmlns".toList := by
  have hfixed : respellKey σ "xmlns".toList = "xmlns".toList := rfl
  constructor
  · intro hkey
    exact h.respellKey_injective (hkey.trans hfixed.symm)
  · rintro rfl
    exact hfixed

theorem declaration?_respell (h : Renaming σ) (a : RawAttribute) :
    declaration? (a.respell σ) = (declaration? a).map (Declaration.requalify (onStrings σ)) := by
  obtain ⟨key, value⟩ := a
  simp only [declaration?, RawAttribute.respell, h.respellKey_eq_xmlns, h.declares_respellKey]
  split
  · rfl
  · split
    · rename_i hkey
      have hdrop : (respellKey σ key).drop 6 = σ (key.drop 6) := by
        rw [respellKey, if_pos hkey]
        rfl
      rw [hdrop]
      simp [Declaration.requalify, onStrings]
    · rfl

theorem declarations_respell (h : Renaming σ) (attributes : List RawAttribute) :
    declarations (attributes.map (RawAttribute.respell σ)) =
      (declarations attributes).map (Declaration.requalify (onStrings σ)) := by
  unfold declarations
  rw [List.map_reverse, List.filterMap_map, List.map_filterMap]
  congr 2
  funext a
  exact h.declaration?_respell a

theorem ownAttributes_respell (h : Renaming σ) (scope : Scope) (attributes : List RawAttribute) :
    ownAttributes (scope.map (Declaration.requalify (onStrings σ)))
        (attributes.map (RawAttribute.respell σ)) =
      (ownAttributes scope attributes).map (Attribute.requalify (onStrings σ)) := by
  have hkept : (fun a : RawAttribute => (declaration? a).isNone) ∘ RawAttribute.respell σ =
      fun a => (declaration? a).isNone := by
    funext a
    simp [h.declaration?_respell]
  unfold ownAttributes
  rw [List.filter_map, hkept, List.map_map, List.map_map]
  refine List.map_congr_left fun a ha => ?_
  have hplain : ¬"xmlns:".toList.isPrefixOf a.key = true := by
    have hnone := (List.mem_filter.mp ha).2
    unfold declaration? at hnone
    split at hnone
    · cases hnone
    · split at hnone
      · cases hnone
      · assumption
  have hkey : respellKey σ a.key = respellName σ a.key := by
    rw [respellKey, if_neg hplain]
  simp only [Function.comp_apply, RawAttribute.respell, hkey, h.qualify_respellName]
  rfl

theorem scope_respell (a : Assembler) :
    (a.respell σ).scope = a.scope.map (Declaration.requalify (onStrings σ)) := by
  unfold Assembler.scope Assembler.respell
  rw [List.flatMap_map, List.map_flatMap]
  rfl

/-- A tag with a respelled name and respelled attributes opens the same element. -/
theorem openTag_respell (h : Renaming σ) (a : Assembler) {content content' : List Char}
    (hname : tagName content' = respellName σ (tagName content))
    (hattributes : tagAttributes content' =
      (tagAttributes content).map (List.map (RawAttribute.respell σ))) (place : Location) :
    (a.respell σ).openTag content' place =
      (a.openTag content place).map fun (frame, e) =>
        (frame.respell σ, e.requalify (onStrings σ)) := by
  unfold Assembler.openTag
  rw [hattributes]
  cases tagAttributes content with
  | error f => rfl
  | ok attributes =>
    simp only [Except.map, hname, scope_respell, h.declarations_respell, ← List.map_append,
      h.qualify_respellName, h.ownAttributes_respell]
    rfl

end Renaming

/-- A token and the same token with its qualifiers renamed. -/
inductive Token.Respelled (σ : List Char → List Char) : Token → Token → Prop
  | openTag {content content' : List Char}
      (name : tagName content' = respellName σ (tagName content))
      (attributes : tagAttributes content' =
        (tagAttributes content).map (List.map (RawAttribute.respell σ))) :
      Respelled σ (.openTag content) (.openTag content')
  | emptyTag {content content' : List Char}
      (name : tagName content' = respellName σ (tagName content))
      (attributes : tagAttributes content' =
        (tagAttributes content).map (List.map (RawAttribute.respell σ))) :
      Respelled σ (.emptyTag content) (.emptyTag content')
  | closeTag (name : List Char) : Respelled σ (.closeTag name) (.closeTag (respellName σ name))
  | text (content : List Char) : Respelled σ (.text content) (.text content)
  | literal (content : List Char) : Respelled σ (.literal content) (.literal content)
  | reference (name : List Char) : Respelled σ (.reference name) (.reference name)
  | skipped : Respelled σ .skipped .skipped

/-- What a respelled token brings, with the open elements respelled. -/
def Outcome.respell (σ : List Char → List Char) (o : Outcome) : Outcome :=
  ⟨o.events.map (Event.requalify (onStrings σ)), o.next.map (Assembler.respell σ)⟩

theorem Token.Respelled.of_not_tag {σ : List Char → List Char} {t : Token} (h : t.isTag = false) :
    t.Respelled σ t := by
  cases t with
  | openTag content => cases h
  | emptyTag content => cases h
  | closeTag name => cases h
  | text content => exact .text content
  | literal content => exact .literal content
  | reference name => exact .reference name
  | skipped => exact .skipped

theorem flushed_respell {σ : List Char → List Char} (a : Assembler) :
    (a.respell σ).flushed (fun _ => default) =
      (a.flushed fun _ => default).map (Event.requalify (onStrings σ)) := by
  unfold Assembler.flushed Assembler.respell
  split <;> rfl

theorem Renaming.take_respell {σ : List Char → List Char} (h : Renaming σ) (a : Assembler)
    {t t' : Token} (ht : t.Respelled σ t') :
    (a.respell σ).take t' = (a.take t).respell σ := by
  have hstill : (a.respell σ).still = a.still.respell σ := rfl
  unfold Assembler.take
  rw [hstill]
  cases ht with
  | @openTag content content' name attributes =>
    simp only [Assembler.step, h.openTag_respell a.still name attributes, flushed_respell]
    cases a.still.openTag content default with
    | error f => rfl
    | ok p => simp [Except.map, Outcome.respell, Assembler.opened, Assembler.respell]
  | @emptyTag content content' name attributes =>
    simp only [Assembler.step, h.openTag_respell a.still name attributes, flushed_respell]
    cases a.still.openTag content default with
    | error f => rfl
    | ok p =>
      simp [Except.map, Outcome.respell, Assembler.opened, Assembler.closed, Assembler.respell,
        Event.requalify]
  | closeTag name =>
    have hframes : (a.still.respell σ).frames = a.still.frames.map (Frame.respell σ) := rfl
    simp only [Assembler.step, flushed_respell, hframes]
    cases a.still.frames with
    | nil => rfl
    | cons frame frames =>
      have hname : (frame.respell σ).name = respellName σ name ↔ frame.name = name :=
        h.respellName_injective.eq_iff
      simp only [List.map_cons, hname]
      split
      · simp [Except.map, Outcome.respell, Assembler.closed, Assembler.respell, Event.requalify]
      · rfl
  | text content => rfl
  | literal content => rfl
  | reference name =>
    simp only [Assembler.step]
    cases resolveReference name <;> rfl
  | skipped => rfl

/-- What is told of a respelled source is what is told of the source, if that holds after the first
token. -/
theorem Outcome.followedBy_respell {σ : List Char → List Char} (o : Outcome)
    {rest rest' : Assembler → Recording}
    (h : ∀ a, rest' (a.respell σ) = (rest a).requalify (onStrings σ)) :
    (o.respell σ).followedBy rest' = (o.followedBy rest).requalify (onStrings σ) := by
  obtain ⟨events, next⟩ := o
  cases next with
  | error f => rfl
  | ok a =>
    simp only [Outcome.respell, followedBy, Except.map, h, Recording.after, Recording.requalify,
      List.map_append]

end Markup

end ObjectMarkup
