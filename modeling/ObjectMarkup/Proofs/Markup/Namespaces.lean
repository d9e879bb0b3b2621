import Mathlib.Data.List.Nodup
import Mathlib.Data.List.Perm.Basic
import ObjectMarkup.Proofs.Markup.Assembly

namespace ObjectMarkup.Markup

/-- The key of the attribute that declares a qualifier, or the namespace of plain names. -/
def declarationKey : Option String → List Char
  | none => "xmlns".toList
  | some qualifier => "xmlns:".toList ++ qualifier.toList

theorem declaration?_declarationKey (qualifier : Option String) (value : List Char) :
    declaration? ⟨declarationKey qualifier, value⟩ = some ⟨qualifier, String.ofList value⟩ := by
  cases qualifier with
  | none => exact if_pos rfl
  | some qualifier =>
    have hplain : declarationKey (some qualifier) ≠ "xmlns".toList := by
      intro h
      have hlength : 6 + qualifier.toList.length = 5 :=
        List.length_append.symm.trans (congrArg List.length h)
      omega
    have hprefix : "xmlns:".toList.isPrefixOf (declarationKey (some qualifier)) = true :=
      List.isPrefixOf_iff_prefix.mpr (List.prefix_append _ _)
    have hdrop : (declarationKey (some qualifier)).drop 6 = qualifier.toList := rfl
    simp only [declaration?, if_neg hplain, if_pos hprefix, hdrop, String.ofList_toList]

theorem declaration?_eq_some {a : RawAttribute} {qualifier : Option String} {space : String} :
    declaration? a = some ⟨qualifier, space⟩ ↔ a = ⟨declarationKey qualifier, space.toList⟩ := by
  constructor
  · intro h
    obtain ⟨key, value⟩ := a
    obtain ⟨hkey, hspace⟩ : key = declarationKey qualifier ∧ space = String.ofList value := by
      unfold declaration? at h
      dsimp only at h
      split at h
      · rename_i hplain
        obtain ⟨rfl, rfl⟩ := Declaration.mk.inj (Option.some.inj h)
        exact ⟨hplain, rfl⟩
      · split at h
        · rename_i hprefix
          obtain ⟨rest, rfl⟩ := List.isPrefixOf_iff_prefix.mp hprefix
          obtain ⟨rfl, rfl⟩ := Declaration.mk.inj (Option.some.inj h)
          exact ⟨congrArg ("xmlns:".toList ++ ·) String.toList_ofList.symm, rfl⟩
        · cases h
    rw [← hkey, hspace, String.toList_ofList]
  · rintro rfl
    rw [declaration?_declarationKey, String.ofList_toList]

def RawAttribute.IsOwn (a : RawAttribute) : Prop := ∀ qualifier, a.key ≠ declarationKey qualifier

theorem declaration?_eq_none {a : RawAttribute} : declaration? a = none ↔ a.IsOwn := by
  constructor
  · intro h qualifier hkey
    have hsome := declaration?_declarationKey qualifier a.value
    rw [← hkey, h] at hsome
    cases hsome
  · intro h
    cases hdeclaration : declaration? a with
    | none => rfl
    | some d => exact absurd (congrArg RawAttribute.key (declaration?_eq_some.mp hdeclaration)) (h _)

instance (a : RawAttribute) : Decidable a.IsOwn := decidable_of_iff _ declaration?_eq_none

def Declares (tag : List Char) (qualifier : Option String) (space : String) : Prop :=
  ∃ raw, tagAttributes tag = .ok raw ∧ ⟨declarationKey qualifier, space.toList⟩ ∈ raw

/-- The namespace of a qualifier inside start tags, the nearest one first. -/
inductive Nearest (qualifier : Option String) : List (List Char) → Option String → Prop
  | declared {tag : List Char} {tags : List (List Char)} {space : String}
      (declares : Declares tag qualifier space) (nonempty : space ≠ "") :
      Nearest qualifier (tag :: tags) (some space)
  /-- An empty namespace is none, whatever is declared further out. -/
  | undeclared {tag : List Char} {tags : List (List Char)} (declares : Declares tag qualifier "") :
      Nearest qualifier (tag :: tags) none
  | further {tag : List Char} {tags : List (List Char)} {space : Option String}
      (silent : ∀ space, ¬Declares tag qualifier space) (outer : Nearest qualifier tags space) :
      Nearest qualifier (tag :: tags) space
  | nowhere : Nearest qualifier [] none

/-- What the written name of an element, or of an attribute, stands for inside start tags. -/
inductive Resolves (tags : List (List Char)) : Bool → List Char → QualifiedName → Prop
  | qualified {isElement : Bool} {qualifier localName : List Char} {space : Option String}
      (first : ':' ∉ qualifier) (nearest : Nearest (some (String.ofList qualifier)) tags space) :
      Resolves tags isElement (qualifier ++ ':' :: localName)
        ⟨some (String.ofList qualifier), String.ofList localName, space⟩
  | plainElement {name : List Char} {space : Option String} (plain : ':' ∉ name)
      (nearest : Nearest none tags space) :
      Resolves tags true name ⟨none, String.ofList name, space⟩
  | plainAttribute {name : List Char} (plain : ':' ∉ name) :
      Resolves tags false name ⟨none, String.ofList name, none⟩

/-- What an attribute that declares nothing is, in a start tag, inside others. -/
structure Attribute.Read (tags : List (List Char)) (a : RawAttribute) (b : Attribute) : Prop where
  name : Resolves tags false a.key b.name
  value : b.value = String.ofList a.value

/-- The name and the attributes that a start tag gives its element, inside others. -/
structure Names (tags : List (List Char)) (tag : List Char) (name : QualifiedName)
    (attributes : List Attribute) : Prop where
  element : Resolves (tag :: tags) true (tagName tag) name
  attributes : ∃ raw, tagAttributes tag = .ok raw ∧
    List.Forall₂ (Attribute.Read (tag :: tags)) (raw.filter fun a => a.IsOwn) attributes

/-- A start tag of the same name whose attributes are the same in another order. -/
structure Reordered (tag tag' : List Char) : Prop where
  name : tagName tag' = tagName tag
  attributes : ∃ raw raw', tagAttributes tag = .ok raw ∧ tagAttributes tag' = .ok raw' ∧
    raw.Perm raw'

/-- The key of an attribute does not stand before it in the tag. -/
theorem key_of_nextAttribute {seen : List (List Char)} {cs rest : List Char} {a : RawAttribute}
    (h : nextAttribute seen cs = .ok (a, rest)) : a.key ∉ seen := by
  unfold nextAttribute at h
  split at h
  · cases h
  · split at h
    · cases h
    · rename_i hseen
      split at h
      · cases h
      · obtain ⟨value, -, hattribute⟩ := exists_of_map_ok h
        rw [← (Prod.mk.inj hattribute).1]
        exact hseen

theorem attributesAfter_nodup {seen : List (List Char)} {fuel : Nat} {cs : List Char}
    {raw : List RawAttribute} (h : attributesAfter seen fuel cs = .ok raw) :
    (raw.map RawAttribute.key).Nodup ∧ ∀ a ∈ raw, a.key ∉ seen := by
  induction fuel generalizing seen cs raw with
  | zero =>
    cases h
    simp
  | succ fuel ih =>
    unfold attributesAfter at h
    split at h
    · cases h
      simp
    · split at h
      · cases h
      · rename_i a rest hnext
        obtain ⟨more, hmore, rfl⟩ := exists_of_map_ok h
        obtain ⟨hnodup, hunseen⟩ := ih hmore
        simp only [List.mem_cons, not_or] at hunseen
        refine ⟨List.nodup_cons.mpr ⟨fun hmem => ?_, hnodup⟩, fun b hb => ?_⟩
        · obtain ⟨b, hb, hkey⟩ := List.mem_map.mp hmem
          exact (hunseen b hb).1 hkey
        · rcases List.mem_cons.mp hb with rfl | hb
          · exact key_of_nextAttribute hnext
          · exact (hunseen b hb).2

theorem Declares.unique {tag : List Char} {qualifier : Option String} {space space' : String}
    (h : Declares tag qualifier space) (h' : Declares tag qualifier space') : space = space' := by
  obtain ⟨raw, hraw, hmem⟩ := h
  obtain ⟨raw', hraw', hmem'⟩ := h'
  cases hraw.symm.trans hraw'
  have hnodup := (attributesAfter_nodup hraw).1
  have hsame := List.inj_on_of_nodup_map hnodup hmem hmem' rfl
  exact String.toList_inj.mp (RawAttribute.mk.inj hsame).2

/-- The namespace of a qualifier is determined by the tags. -/
theorem existsUnique_nearest (qualifier : Option String) (tags : List (List Char)) :
    ∃! space, Nearest qualifier tags space := by
  induction tags with
  | nil => exact ⟨none, .nowhere, fun _ h => by cases h; rfl⟩
  | cons tag tags ih =>
    by_cases hdeclares : ∃ space, Declares tag qualifier space
    · obtain ⟨space, hspace⟩ := hdeclares
      by_cases hempty : space = ""
      · subst hempty
        refine ⟨none, .undeclared hspace, fun _ h => ?_⟩
        cases h with
        | declared declares nonempty => exact absurd (declares.unique hspace) nonempty
        | undeclared => rfl
        | further silent => exact absurd hspace (silent _)
      · refine ⟨some space, .declared hspace hempty, fun _ h => ?_⟩
        cases h with
        | declared declares => rw [declares.unique hspace]
        | undeclared declares => exact absurd (hspace.unique declares) hempty
        | further silent => exact absurd hspace (silent _)
    · obtain ⟨space, hspace, hunique⟩ := ih
      rw [not_exists] at hdeclares
      refine ⟨space, .further hdeclares hspace, fun _ h => ?_⟩
      cases h with
      | declared declares => exact absurd declares (hdeclares _)
      | undeclared declares => exact absurd declares (hdeclares _)
      | further silent outer => exact hunique _ outer

theorem Reordered.declares_iff {tag tag' : List Char} (h : Reordered tag tag')
    (qualifier : Option String) (space : String) :
    Declares tag qualifier space ↔ Declares tag' qualifier space := by
  obtain ⟨raw, raw', hraw, hraw', hperm⟩ := h.attributes
  simp [Declares, hraw, hraw', hperm.mem_iff]

/-- A namespace is found wherever its declaration stands in the tag. -/
theorem Nearest.reorder {qualifier : Option String} {tags tags' : List (List Char)}
    {space : Option String} (h : Nearest qualifier tags space)
    (hsame : List.Forall₂ Reordered tags tags') : Nearest qualifier tags' space := by
  induction hsame generalizing space with
  | nil => exact h
  | cons hhead htail ih =>
    cases h with
    | declared declares nonempty =>
      exact .declared ((hhead.declares_iff _ _).mp declares) nonempty
    | undeclared declares => exact .undeclared ((hhead.declares_iff _ _).mp declares)
    | further silent outer =>
      exact .further (fun _ hd => silent _ ((hhead.declares_iff _ _).mpr hd)) (ih outer)

theorem Resolves.reorder {tags tags' : List (List Char)} {isElement : Bool} {raw : List Char}
    {name : QualifiedName} (h : Resolves tags isElement raw name)
    (hsame : List.Forall₂ Reordered tags tags') : Resolves tags' isElement raw name := by
  cases h with
  | qualified first nearest => exact .qualified first (nearest.reorder hsame)
  | plainElement plain nearest => exact .plainElement plain (nearest.reorder hsame)
  | plainAttribute plain => exact .plainAttribute plain

/-- In another order the attributes of a tag are the same, and so is its name. -/
theorem Names.reorder {tags tags' : List (List Char)} {tag tag' : List Char} {name : QualifiedName}
    {attributes : List Attribute} (h : Names tags tag name attributes)
    (hsame : List.Forall₂ Reordered (tag :: tags) (tag' :: tags')) :
    ∃ attributes', attributes.Perm attributes' ∧ Names tags' tag' name attributes' := by
  obtain ⟨htag, -⟩ := List.forall₂_cons.mp hsame
  obtain ⟨raw, raw', hraw, hraw', hperm⟩ := htag.attributes
  obtain ⟨_, hread, hattributes⟩ := h.attributes
  cases hraw.symm.trans hread
  have hread' := hattributes.imp fun a b hab =>
    (⟨hab.name.reorder hsame, hab.value⟩ : Attribute.Read (tag' :: tags') a b)
  obtain ⟨attributes', hsorted, hperm'⟩ :=
    List.perm_comp_forall₂ (hperm.filter _).symm hread'
  refine ⟨attributes', hperm'.symm, ?_, raw', hraw', hsorted⟩
  rw [htag.name]
  exact h.element.reorder hsame

structure Frame.Of (frame : Frame) (tag : List Char) : Prop where
  name : frame.name = tagName tag
  declared : ∃ raw, tagAttributes tag = .ok raw ∧ frame.declared = declarations raw

theorem Frame.Of.mem_iff {frame : Frame} {tag : List Char} (h : frame.Of tag)
    (qualifier : Option String) (space : String) :
    ⟨qualifier, space⟩ ∈ frame.declared ↔ Declares tag qualifier space := by
  obtain ⟨raw, hraw, hdeclared⟩ := h.declared
  simp [Declares, hraw, hdeclared, declarations, declaration?_eq_some]

/-- The declarations in force inside open elements are those nearest in their tags. -/
theorem nearest_lookup {frames : List Frame} {tags : List (List Char)}
    (h : List.Forall₂ Frame.Of frames tags) (qualifier : Option String) :
    Nearest qualifier tags (Scope.lookup (frames.flatMap Frame.declared) qualifier) := by
  induction h with
  | nil => exact .nowhere
  | @cons frame tag frames tags hframe _ ih =>
    unfold Scope.lookup at ih ⊢
    rw [List.flatMap_cons, List.find?_append]
    cases hfind : frame.declared.find? fun d => d.qualifier = qualifier with
    | none =>
      refine .further (fun space hspace => ?_) ih
      have hmem := (hframe.mem_iff qualifier space).mpr hspace
      have hnone := List.find?_eq_none.mp hfind _ hmem
      simp at hnone
    | some d =>
      have hmem := List.mem_of_find?_eq_some hfind
      have hqualifier : d.qualifier = qualifier := by simpa using List.find?_some hfind
      have hdeclares := (hframe.mem_iff d.qualifier d.space).mp hmem
      rw [hqualifier] at hdeclares
      simp only [Option.some_or]
      split
      · rename_i hempty
        exact .undeclared (hempty ▸ hdeclares)
      · rename_i hempty
        exact .declared hdeclares hempty

theorem resolves_qualify {frames : List Frame} {tags : List (List Char)}
    (h : List.Forall₂ Frame.Of frames tags) (isElement : Bool) (raw : List Char) :
    Resolves tags isElement raw
      (Scope.qualify (frames.flatMap Frame.declared) isElement raw) := by
  unfold Scope.qualify
  cases hcut : Text.cutFirst ':' raw with
  | none =>
    have hplain := Text.cutFirst_eq_none.mp hcut
    cases isElement with
    | false => exact .plainAttribute hplain
    | true => exact .plainElement hplain (nearest_lookup h none)
  | some p =>
    obtain ⟨qualifier, localName⟩ := p
    obtain ⟨rfl, hfirst⟩ := Text.cutFirst_eq_some hcut
    exact .qualified hfirst (nearest_lookup h _)

theorem read_ownAttributes {frames : List Frame} {tags : List (List Char)}
    (h : List.Forall₂ Frame.Of frames tags) (raw : List RawAttribute) :
    List.Forall₂ (Attribute.Read tags) (raw.filter fun a => a.IsOwn)
      (ownAttributes (frames.flatMap Frame.declared) raw) := by
  have hown : (fun a : RawAttribute => decide a.IsOwn) = fun a => (declaration? a).isNone := by
    funext a
    rw [Bool.eq_iff_iff, decide_eq_true_iff, Option.isNone_iff_eq_none, declaration?_eq_none]
  unfold ownAttributes
  rw [hown, List.forall₂_map_right_iff]
  exact List.forall₂_same.mpr fun a _ => ⟨resolves_qualify h false a.key, rfl⟩

def Token.start? : Token → Option (List Char)
  | .openTag tag => some tag
  | .emptyTag tag => some tag
  | _ => none

def Token.IsReadable : Token → Prop
  | .openTag tag => ∃ raw, tagAttributes tag = .ok raw
  | .emptyTag tag => ∃ raw, tagAttributes tag = .ok raw
  | .reference name => ∃ c, resolveReference name = .ok c
  | _ => True

theorem Token.IsReadable.tagAttributes {t : Token} {tag : List Char} (h : t.IsReadable)
    (hstart : t.start? = some tag) : ∃ raw, Markup.tagAttributes tag = .ok raw := by
  cases t <;> cases hstart <;> exact h

/-- Tokens in which every element that is opened is closed. -/
inductive Complete : List Placed → Prop
  | nil : Complete []
  | piece {t : Placed} (untagged : t.token.isTag = false) : Complete [t]
  | empty (tag : List Char) (offset : Nat) : Complete [⟨.emptyTag tag, offset⟩]
  | element {inner : List Placed} (tag : List Char) (start ending : Nat) (inside : Complete inner) :
      Complete (⟨.openTag tag, start⟩ :: (inner ++ [⟨.closeTag (tagName tag), ending⟩]))
  | append {tokens more : List Placed} (front : Complete tokens) (back : Complete more) :
      Complete (tokens ++ more)

/-- The start tags of the elements that are open after tokens, the innermost first. -/
inductive OpenTags : List (List Char) → List Placed → Prop
  | outside {tokens : List Placed} (complete : Complete tokens) : OpenTags [] tokens
  | inside {tags : List (List Char)} {tokens inner : List Placed} (tag : List Char) (offset : Nat)
      (before : OpenTags tags tokens) (complete : Complete inner) :
      OpenTags (tag :: tags) (tokens ++ ⟨.openTag tag, offset⟩ :: inner)

namespace OpenTags

variable {tags : List (List Char)} {tokens behind : List Placed} {tag : List Char}

/-- What has been closed leaves the open elements as they are. -/
theorem append (h : OpenTags tags tokens) (hclosed : Complete behind) :
    OpenTags tags (tokens ++ behind) := by
  cases h with
  | outside complete => exact .outside (complete.append hclosed)
  | inside tag offset before complete =>
    rw [List.append_assoc, List.cons_append]
    exact .inside tag offset before (complete.append hclosed)

theorem opened (h : OpenTags tags tokens) (tag : List Char) (offset : Nat) :
    OpenTags (tag :: tags) (tokens ++ [⟨.openTag tag, offset⟩]) :=
  .inside tag offset h .nil

theorem closed (h : OpenTags (tag :: tags) tokens) (offset : Nat) :
    OpenTags tags (tokens ++ [⟨.closeTag (tagName tag), offset⟩]) := by
  cases h with
  | inside tag start before complete =>
    rw [List.append_assoc, List.cons_append]
    exact before.append (.element tag start offset complete)

end OpenTags

def Token.nest (tags : List (List Char)) : Token → List (List Char)
  | .openTag tag => tag :: tags
  | .closeTag _ => tags.tail
  | _ => tags

def nest (tags : List (List Char)) (tokens : List Placed) : List (List Char) :=
  tokens.foldl (fun tags t => t.token.nest tags) tags

theorem Complete.nest_eq {tokens : List Placed} (h : Complete tokens) (tags : List (List Char)) :
    nest tags tokens = tags := by
  unfold nest
  induction h generalizing tags with
  | nil => rfl
  | @piece t untagged =>
    obtain ⟨token, offset⟩ := t
    cases token <;> first | rfl | cases untagged
  | empty => rfl
  | element tag start ending inside ih =>
    rw [List.foldl_cons, List.foldl_append, ih]
    rfl
  | append _ _ ihFront ihBack => rw [List.foldl_append, ihFront, ihBack]

theorem OpenTags.nest_eq {tags : List (List Char)} {tokens : List Placed}
    (h : OpenTags tags tokens) : nest [] tokens = tags := by
  induction h with
  | outside complete => exact complete.nest_eq []
  | inside tag offset before complete ih =>
    unfold nest at ih ⊢
    rw [List.foldl_append, List.foldl_cons, ih]
    exact complete.nest_eq _

namespace Assembler

variable {a b c : Assembler} {locate : Nat → Location} {t : Placed}
  {read tokens rest : List Placed} {told more events : List Event} {tags : List (List Char)}
  {tag : List Char} {fault : Option MarkupFault}

/-- A start tag gives its element what its names stand for inside the tags of the open elements. -/
theorem openTag_names {place : Location} {frame : Frame} {e : Event}
    (h : a.openTag tag place = .ok (frame, e)) (hframes : List.Forall₂ Frame.Of a.frames tags) :
    frame.Of tag ∧
      ∃ name attributes, e = .opened name attributes place ∧ Names tags tag name attributes := by
  obtain ⟨raw, hraw, hopened⟩ := exists_of_map_ok h
  obtain ⟨rfl, rfl⟩ := Prod.mk.inj hopened
  have hframe : Frame.Of ⟨tagName tag, declarations raw⟩ tag := ⟨rfl, raw, hraw, rfl⟩
  have hall := hframes.cons hframe
  exact ⟨hframe, _, _, rfl, resolves_qualify hall true _, raw, hraw, read_ownAttributes hall raw⟩

theorem exists_openTag {raw : List RawAttribute} (h : tagAttributes tag = .ok raw) (a : Assembler)
    (place : Location) : ∃ e, a.openTag tag place = .ok (⟨tagName tag, declarations raw⟩, e) := by
  unfold openTag
  rw [h]
  exact ⟨_, rfl⟩

/-- A start tag tells the text in front of it, its element and perhaps the end of that. -/
theorem step_start (hstart : t.token.start? = some tag) (locate : Nat → Location) (a : Assembler) :
    (∃ f, a.openTag tag (locate t.offset) = .error f ∧
      a.step locate t = ⟨a.flushed locate, .error f⟩) ∨
    ∃ frame e events next, a.openTag tag (locate t.offset) = .ok (frame, e) ∧
      a.step locate t = ⟨a.flushed locate ++ e :: events, .ok next⟩ ∧
      ∀ e ∈ events, e.isOpening = false := by
  obtain ⟨token, offset⟩ := t
  cases token with
  | openTag tag' =>
    cases hstart
    cases hopen : a.openTag tag (locate offset) with
    | error f => exact .inl ⟨f, rfl, by simp only [step, hopen]⟩
    | ok p => exact .inr ⟨p.1, p.2, [], _, rfl, step_openTag hopen, by simp⟩
  | emptyTag tag' =>
    cases hstart
    cases hopen : a.openTag tag (locate offset) with
    | error f => exact .inl ⟨f, rfl, by simp only [step, hopen]⟩
    | ok p =>
      exact .inr ⟨p.1, p.2, [_], _, rfl, step_emptyTag hopen, by simp [Event.isOpening]⟩
  | closeTag _ => cases hstart
  | text _ => cases hstart
  | literal _ => cases hstart
  | reference _ => cases hstart
  | skipped => cases hstart

theorem isOpening_flushed {e : Event} (h : e ∈ a.flushed locate) : e.isOpening = false := by
  unfold flushed at h
  split at h
  · cases h
  · cases List.mem_singleton.mp h
    rfl

theorem isOpening_step (hstart : t.token.start? = none) {e : Event}
    (h : e ∈ (a.step locate t).events) : e.isOpening = false := by
  obtain ⟨token, offset⟩ := t
  cases token with
  | openTag _ => cases hstart
  | emptyTag _ => cases hstart
  | closeTag tag =>
    simp only [step] at h
    split at h
    · cases h
    · split at h
      · rcases List.mem_append.mp h with h | h
        · exact isOpening_flushed h
        · cases List.mem_singleton.mp h
          rfl
      · cases h
  | text _ => cases h
  | literal _ => cases h
  | skipped => cases h
  | reference name =>
    simp only [step] at h
    split at h <;> cases h

theorem step_opened {name : QualifiedName} {attributes : List Attribute} {place : Location}
    (h : .opened name attributes place ∈ (a.step locate t).events)
    (hframes : List.Forall₂ Frame.Of a.frames tags) :
    ∃ tag, t.token.start? = some tag ∧ place = locate t.offset ∧
      Names tags tag name attributes := by
  cases hstart : t.token.start? with
  | none => cases isOpening_step hstart h
  | some tag =>
    rcases step_start hstart locate a with
      ⟨f, -, hstep⟩ | ⟨frame, e, events, next, hopen, hstep, hends⟩
    · rw [hstep] at h
      cases isOpening_flushed h
    · obtain ⟨-, name', attributes', rfl, hnames⟩ := openTag_names hopen hframes
      rw [hstep, List.mem_append, List.mem_cons] at h
      rcases h with h | h | h
      · cases isOpening_flushed h
      · cases h
        exact ⟨tag, rfl, rfl, hnames⟩
      · cases hends _ h

theorem exists_step_opened (locate : Nat → Location) (hstart : t.token.start? = some tag)
    (hread : ∃ raw, tagAttributes tag = .ok raw) (hframes : List.Forall₂ Frame.Of a.frames tags) :
    ∃ events b name attributes, a.step locate t = ⟨events, .ok b⟩ ∧
      .opened name attributes (locate t.offset) ∈ events ∧ Names tags tag name attributes := by
  obtain ⟨raw, hraw⟩ := hread
  obtain ⟨e, hopen⟩ := exists_openTag hraw a (locate t.offset)
  rcases step_start hstart locate a with ⟨f, hfault, -⟩ | ⟨frame, e', events, next, hopen', hstep, -⟩
  · cases hopen.symm.trans hfault
  · obtain ⟨-, name, attributes, rfl, hnames⟩ := openTag_names hopen' hframes
    exact ⟨_, next, name, attributes, hstep, by simp, hnames⟩

/-- A token opens and closes the elements that its tag says, and the frames are theirs. -/
theorem step_nest (h : a.step locate t = ⟨events, .ok b⟩) (hopen : OpenTags tags read)
    (hframes : List.Forall₂ Frame.Of a.frames tags) :
    OpenTags (t.token.nest tags) (read ++ [t]) ∧
      List.Forall₂ Frame.Of b.frames (t.token.nest tags) := by
  by_cases htag : t.token.isTag = false
  · obtain ⟨-, hsame, -⟩ := step_run htag h
    have hnest : t.token.nest tags = tags := (Complete.piece htag).nest_eq tags
    rw [hnest, hsame]
    exact ⟨hopen.append (.piece htag), hframes⟩
  · obtain ⟨token, offset⟩ := t
    cases token with
    | openTag tag =>
      cases hstart : a.openTag tag (locate offset) with
      | error f => simp [step, hstart] at h
      | ok p =>
        obtain ⟨frame, e⟩ := p
        simp only [step, hstart, Outcome.mk.injEq, Except.ok.injEq] at h
        obtain ⟨-, rfl⟩ := h
        exact ⟨hopen.opened tag offset, hframes.cons (openTag_names hstart hframes).1⟩
    | emptyTag tag =>
      cases hstart : a.openTag tag (locate offset) with
      | error f => simp [step, hstart] at h
      | ok p =>
        obtain ⟨frame, e⟩ := p
        simp only [step, hstart, Outcome.mk.injEq, Except.ok.injEq] at h
        obtain ⟨-, rfl⟩ := h
        exact ⟨hopen.append (.empty tag offset), hframes⟩
    | closeTag name =>
      simp only [step] at h
      split at h
      · cases h
      · rename_i frame frames hsome
        split at h
        · rename_i hname
          simp only [Outcome.mk.injEq, Except.ok.injEq] at h
          obtain ⟨-, rfl⟩ := h
          rw [hsome] at hframes
          cases hframes with
          | cons hframe houter =>
            refine ⟨?_, by simpa [closed, hsome, Token.nest] using houter⟩
            rw [← hname, hframe.name]
            exact hopen.closed offset
        · cases h
    | text _ => exact absurd rfl htag
    | literal _ => exact absurd rfl htag
    | skipped => exact absurd rfl htag
    | reference _ => exact absurd rfl htag

/-- At every moment the frames are those of the elements that are open. -/
theorem Tells.nest (h : Tells locate .initial read told a) :
    OpenTags (Markup.nest [] read) read ∧ List.Forall₂ Frame.Of a.frames (Markup.nest [] read) := by
  induction h with
  | start => exact ⟨.outside .nil, .nil⟩
  | token before step ih =>
    have hnest := step_nest step ih.1 ih.2
    rwa [Markup.nest, List.foldl_append]

theorem Tells.append (h : Tells locate a read told b) (h' : Tells locate b tokens more c) :
    Tells locate a (read ++ tokens) (told ++ more) c := by
  induction h' with
  | start => simpa using h
  | token before step ih =>
    rw [← List.append_assoc, ← List.append_assoc]
    exact ih.token step

theorem Tells.eventsFrom (h : Tells locate a read told b) (rest : List Placed) :
    a.eventsFrom locate fault (read ++ rest) = told ++ b.eventsFrom locate fault rest := by
  induction h generalizing rest with
  | start => rfl
  | token before step ih =>
    rw [List.append_assoc, ih, List.append_assoc, List.singleton_append,
      eventsFrom_cons (by rw [step]), step]

/-- An event that is told is brought by one of the tokens, or is that of the text behind them. -/
theorem exists_step {e : Event} (h : e ∈ a.eventsFrom locate fault tokens) :
    (∃ before t after told b, tokens = before ++ t :: after ∧ Tells locate a before told b ∧
      e ∈ (b.step locate t).events) ∨ e.isOpening = false := by
  induction tokens generalizing a with
  | nil =>
    cases fault with
    | some f => simp [Assembler.eventsFrom, signals, Signal.event?] at h
    | none =>
      right
      have hmem : e ∈ a.flushed locate := by
        simpa [Assembler.eventsFrom, signals, Signal.event?] using h
      exact isOpening_flushed hmem
  | cons t rest ih =>
    by_cases hhere : e ∈ (a.step locate t).events
    · exact .inl ⟨[], t, rest, [], a, rfl, .start, hhere⟩
    · rcases hstep : a.step locate t with ⟨events, f | b⟩
      · rw [hstep] at hhere
        simp [Assembler.eventsFrom, signals, hstep, Signal.event?, hhere] at h
      · rw [eventsFrom_cons (by rw [hstep]), List.mem_append] at h
        rcases ih (h.resolve_left hhere) with
          ⟨before, u, after, told, c, rfl, htells, hu⟩ | htext
        · have hfirst : Tells locate a ([] ++ [t]) ([] ++ events) b := .token .start hstep
          exact .inl ⟨t :: before, u, after, _, c, rfl, hfirst.append htells, hu⟩
        · exact .inr htext

theorem mem_eventsFrom {e : Event} :
    e ∈ a.eventsFrom locate fault tokens ↔ .event e ∈ a.signals locate fault tokens := by
  unfold Assembler.eventsFrom
  rw [List.mem_filterMap]
  constructor
  · rintro ⟨s, hs, he⟩
    cases s <;> cases he
    exact hs
  · intro h
    exact ⟨_, h, rfl⟩

theorem exists_piece (htag : t.token.isTag = false) (hread : t.token.IsReadable) :
    ∃ content, t.token.piece? = some content := by
  obtain ⟨token, offset⟩ := t
  cases token with
  | text content => exact ⟨content, rfl⟩
  | literal content => exact ⟨content, rfl⟩
  | skipped => exact ⟨[], rfl⟩
  | reference name =>
    obtain ⟨d, hd⟩ := hread
    exact ⟨[d], by simp [Token.piece?, hd, Except.toOption]⟩
  | openTag _ => cases htag
  | emptyTag _ => cases htag
  | closeTag _ => cases htag

/-- Tokens in which nothing is at fault and every element is closed are told. -/
theorem exists_tells_of_complete (locate : Nat → Location) (h : Complete tokens)
    (hread : ∀ t ∈ tokens, t.token.IsReadable) (a : Assembler) :
    ∃ told b, Tells locate a tokens told b ∧ b.frames = a.frames := by
  induction h generalizing a with
  | nil => exact ⟨[], a, .start, rfl⟩
  | @piece t untagged =>
    obtain ⟨content, hpiece⟩ := exists_piece untagged (hread t (by simp))
    obtain ⟨b, hstep, hframes, -⟩ := step_piece hpiece a locate
    exact ⟨_, b, .token .start hstep, hframes⟩
  | empty tag offset =>
    obtain ⟨raw, hraw⟩ := hread ⟨.emptyTag tag, offset⟩ (by simp)
    obtain ⟨e, hopen⟩ := exists_openTag hraw a (locate offset)
    exact ⟨_, _, .token .start (step_emptyTag hopen), rfl⟩
  | @element inner tag start ending inside ih =>
    obtain ⟨raw, hraw⟩ := hread ⟨.openTag tag, start⟩ (by simp)
    obtain ⟨e, hopen⟩ := exists_openTag hraw a (locate start)
    have hfirst : Tells locate a [⟨.openTag tag, start⟩] _ _ := .token .start (step_openTag hopen)
    obtain ⟨told, b, htells, hframes⟩ := ih (fun t ht => hread t (by simp [ht]))
      (a.opened ⟨tagName tag, declarations raw⟩)
    have hclosed : b.closed.frames = a.frames := by
      rw [closed, hframes]
      rfl
    exact ⟨_, b.closed, hfirst.append (htells.token (step_closeTag hframes)), hclosed⟩
  | append _ _ ihFront ihBack =>
    obtain ⟨told, b, hfront, hframes⟩ := ihFront (fun t ht => hread t (by simp [ht])) a
    obtain ⟨more, c, hback, hframes'⟩ := ihBack (fun t ht => hread t (by simp [ht])) b
    exact ⟨_, c, hfront.append hback, hframes'.trans hframes⟩

theorem exists_tells_of_openTags (locate : Nat → Location) (h : OpenTags tags tokens)
    (hread : ∀ t ∈ tokens, t.token.IsReadable) (a : Assembler) :
    ∃ told b, Tells locate a tokens told b := by
  induction h with
  | outside complete =>
    obtain ⟨told, b, htells, -⟩ := exists_tells_of_complete locate complete hread a
    exact ⟨told, b, htells⟩
  | @inside tags tokens inner tag offset before complete ih =>
    obtain ⟨told, b, hbefore⟩ := ih fun t ht => hread t (by simp [ht])
    obtain ⟨raw, hraw⟩ := hread ⟨.openTag tag, offset⟩ (by simp)
    obtain ⟨e, hopen⟩ := exists_openTag hraw b (locate offset)
    obtain ⟨more, c, hinner, -⟩ := exists_tells_of_complete locate complete
      (fun t ht => hread t (by simp [ht])) (b.opened ⟨tagName tag, declarations raw⟩)
    have hall := (hbefore.token (step_openTag hopen)).append hinner
    rw [List.append_assoc] at hall
    exact ⟨_, c, hall⟩

end Assembler

open Assembler

/-- Every element that is told of a source has the name and the attributes of a start tag in it, as
these stand for inside the start tags of the elements around. -/
theorem names_of_opened {source : List Char} {name : QualifiedName} {attributes : List Attribute}
    {place : Location} (h : .event (.opened name attributes place) ∈ signals source) :
    ∃ before t after tag, (scan source).tokens = before ++ t :: after ∧
      t.token.start? = some tag ∧ place = Location.ofOffset source t.offset ∧
      OpenTags (nest [] before) before ∧ Names (nest [] before) tag name attributes := by
  rcases exists_step (mem_eventsFrom.mpr h) with ⟨before, t, after, told, b, hall, htells, he⟩ | h
  · obtain ⟨hopen, hframes⟩ := htells.nest
    obtain ⟨tag, hstart, hplace, hnames⟩ := step_opened he hframes
    exact ⟨before, t, after, tag, hall, hstart, hplace, hopen, hnames⟩
  · cases h

/-- Every start tag behind well nested tokens has its element told. -/
theorem opened_of_names {source : List Char} {before after : List Placed} {t : Placed}
    {tag : List Char} {tags : List (List Char)} (hall : (scan source).tokens = before ++ t :: after)
    (hread : ∀ u ∈ before ++ [t], u.token.IsReadable) (hstart : t.token.start? = some tag)
    (hopen : OpenTags tags before) :
    ∃ name attributes, Names tags tag name attributes ∧
      .event (.opened name attributes (Location.ofOffset source t.offset)) ∈ signals source := by
  obtain ⟨told, b, htells⟩ := exists_tells_of_openTags (Location.ofOffset source) hopen
    (fun u hu => hread u (by simp [hu])) .initial
  have hframes := htells.nest.2
  rw [hopen.nest_eq] at hframes
  obtain ⟨events, c, name, attributes, hstep, he, hnames⟩ :=
    exists_step_opened (Location.ofOffset source) hstart
      ((hread t (by simp)).tagAttributes hstart) hframes
  refine ⟨name, attributes, hnames, mem_eventsFrom.mp ?_⟩
  rw [hall, htells.eventsFrom, eventsFrom_cons (by rw [hstep]), hstep]
  simp [he]

/-- The names of the elements told of a source, and of their attributes, stand for what the start tag
and those of the open elements around it declare, the nearest one first; and every start tag behind
well nested tokens is told so. A qualifier has one namespace or none inside given tags. Neither what
has been closed nor the order of attributes matters. -/
theorem names_resolved_lexically (source : List Char) :
    (∀ name attributes place, .event (.opened name attributes place) ∈ signals source →
      ∃ before t after tag, (scan source).tokens = before ++ t :: after ∧
        t.token.start? = some tag ∧ place = Location.ofOffset source t.offset ∧
        (∃ tags, OpenTags tags before) ∧
        ∀ tags, OpenTags tags before → Names tags tag name attributes) ∧
    (∀ before t after tag tags, (scan source).tokens = before ++ t :: after →
      (∀ u ∈ before ++ [t], u.token.IsReadable) → t.token.start? = some tag →
      OpenTags tags before →
      ∃ name attributes, Names tags tag name attributes ∧
        .event (.opened name attributes (Location.ofOffset source t.offset)) ∈ signals source) ∧
    (∀ qualifier tags, ∃! space, Nearest qualifier tags space) ∧
    (∀ tags before behind, OpenTags tags before → Complete behind →
      OpenTags tags (before ++ behind)) ∧
    ∀ tags tags' tag tag' name attributes,
      List.Forall₂ Reordered (tag :: tags) (tag' :: tags') → Names tags tag name attributes →
      ∃ attributes', attributes.Perm attributes' ∧ Names tags' tag' name attributes' := by
  refine ⟨fun name attributes place h => ?_, fun _ _ _ _ _ => opened_of_names,
    existsUnique_nearest, fun _ _ _ h hbehind => h.append hbehind,
    fun _ _ _ _ _ _ hsame h => h.reorder hsame⟩
  obtain ⟨before, t, after, tag, hall, hstart, hplace, hopen, hnames⟩ := names_of_opened h
  refine ⟨before, t, after, tag, hall, hstart, hplace, ⟨_, hopen⟩, fun tags htags => ?_⟩
  rw [← htags.nest_eq]
  exact hnames

/-- The default namespace of an element that has been closed is not that of the next one. -/
theorem names_resolved_lexically_behind :
    let source := "<a x='1' xmlns='u'><b xmlns='w'/><c/></a>".toList
    let outer := "a x='1' xmlns='u'".toList
    let before : List Placed := [⟨.openTag outer, 0⟩] ++ [⟨.emptyTag "b xmlns='w'".toList, 19⟩]
    let c : QualifiedName := ⟨none, "c", some "u"⟩
    OpenTags [outer] before ∧
      (∃ before t after tag, (scan source).tokens = before ++ t :: after ∧
        t.token.start? = some tag ∧ ⟨1, 34⟩ = Location.ofOffset source t.offset ∧
        (∃ tags, OpenTags tags before) ∧ ∀ tags, OpenTags tags before → Names tags tag c []) ∧
      ∃ name attributes, Names [outer] ['c'] name attributes ∧
        .event (.opened name attributes ⟨1, 34⟩) ∈ signals source ∧
        ∃ attributes', attributes.Perm attributes' ∧
          Names ["a xmlns='u' x='1'".toList] ['c'] name attributes' := by
  intro source outer before c
  obtain ⟨hnames, hopened, -, hbehind, hreorder⟩ := names_resolved_lexically source
  have hfirst : OpenTags [outer] ([] ++ [⟨.openTag outer, 0⟩]) :=
    .inside outer 0 (.outside .nil) .nil
  have hopen : OpenTags [outer] before := hbehind _ _ _ hfirst (.empty _ 19)
  have houter : tagAttributes outer = .ok [⟨['x'], ['1']⟩, ⟨"xmlns".toList, ['u']⟩] := by
    decide +kernel
  have houter' : tagAttributes "a xmlns='u' x='1'".toList =
      .ok [⟨"xmlns".toList, ['u']⟩, ⟨['x'], ['1']⟩] := by
    decide +kernel
  have hinner : tagAttributes "b xmlns='w'".toList = .ok [⟨"xmlns".toList, ['w']⟩] := by
    decide +kernel
  have hplain : tagAttributes ['c'] = .ok [] := by decide +kernel
  have hread : ∀ u ∈ before ++ [⟨.emptyTag ['c'], 33⟩], u.token.IsReadable := by
    simp only [before, List.mem_append, List.mem_singleton]
    rintro u ((rfl | rfl) | rfl)
    · exact ⟨_, houter⟩
    · exact ⟨_, hinner⟩
    · exact ⟨_, hplain⟩
  have hsame : List.Forall₂ Reordered [['c'], outer] [['c'], "a xmlns='u' x='1'".toList] :=
    .cons ⟨rfl, _, _, hplain, hplain, .refl _⟩
      (.cons ⟨by decide +kernel, _, _, houter, houter', .swap _ _ _⟩ .nil)
  have htold : .event (.opened c [] ⟨1, 34⟩) ∈ signals source := by decide +kernel
  have htokens : (scan source).tokens =
      before ++ ⟨.emptyTag ['c'], 33⟩ :: [⟨.closeTag ['a'], 37⟩] := by decide +kernel
  have hplace : Location.ofOffset source 33 = ⟨1, 34⟩ := by decide +kernel
  obtain ⟨name, attributes, hname, hmem⟩ := hopened _ _ _ _ _ htokens hread rfl hopen
  rw [hplace] at hmem
  exact ⟨hopen, hnames _ _ _ htold, name, attributes, hname, hmem,
    hreorder _ _ _ _ _ _ hsame hname⟩

end ObjectMarkup.Markup
