import Mathlib.Logic.Relation
import ObjectMarkup.Proofs.Document.IncludePath
import ObjectMarkup.Proofs.Document.NameTimeline
import ObjectMarkup.Proofs.Path.Directory

namespace ObjectMarkup

open Markup

namespace Path

/-- A relative location in shortest form that is not empty. -/
structure IsPlace (path : String) : Prop where
  normal : normalize path = path
  relative : isAbsolute path = false
  ne_empty : path ≠ ""

/-- The place of a location below a directory. -/
def under (directory location : String) : String :=
  if location = "" then directory else directory ++ "/" ++ location

/-- Whether the way along the segments, with some kept already, never goes up with none kept. -/
def staysInside (kept : List (List Char)) : List (List Char) → Bool
  | [] => true
  | segment :: rest =>
    (segment != ['.', '.'] || !kept.isEmpty) && staysInside (visit kept segment) rest

/-- The reference is relative, and in a document at `base` it leads nowhere above the root. -/
structure StaysBelow (base href : String) : Prop where
  relative : isSelfContained href = false
  inside : staysInside (walk (segments (directory base))) (segments href) = true

theorem visit_append {kept : List (List Char)} {segment : List Char}
    (h : segment = ['.', '.'] → kept ≠ []) (top : List (List Char)) :
    visit (top ++ kept) segment = top ++ visit kept segment := by
  unfold visit
  split
  · rfl
  · split
    · rename_i hdots
      exact List.dropLast_append_of_ne_nil (h hdots)
    · exact List.append_assoc top kept [segment]

/-- A way that stays inside takes the same turns below any other names. -/
theorem foldl_visit_append {kept segments : List (List Char)}
    (h : staysInside kept segments = true) (top : List (List Char)) :
    segments.foldl visit (top ++ kept) = top ++ segments.foldl visit kept := by
  induction segments generalizing kept with
  | nil => rfl
  | cons segment rest ih =>
    simp only [staysInside, Bool.and_eq_true, Bool.or_eq_true, bne_iff_ne, Bool.not_eq_true',
      List.isEmpty_eq_false_iff] at h
    have hstep : visit (top ++ kept) segment = top ++ visit kept segment :=
      visit_append (fun hdots => h.1.resolve_left fun hne => hne hdots) top
    rw [List.foldl_cons, hstep, ih h.2, List.foldl_cons]

theorem intercalate_append {top names : List (List Char)} (htop : top ≠ []) (hnames : names ≠ []) :
    List.intercalate ['/'] (top ++ names) =
      List.intercalate ['/'] top ++ '/' :: List.intercalate ['/'] names := by
  induction top with
  | nil => exact absurd rfl htop
  | cons p rest ih =>
    cases rest with
    | nil => simp [List.intercalate_cons_of_ne_nil hnames]
    | cons q rest =>
      have hcons : q :: rest ++ names ≠ [] := by simp
      rw [List.cons_append, List.intercalate_cons_of_ne_nil hcons, ih (by simp)]
      simp

theorem ofParts_eq_empty {names : List (List Char)} (h : ∀ p ∈ names, IsName p) :
    ofParts false names = "" ↔ names = [] := by
  constructor
  · intro hempty
    have hparts := parts_ofParts false h
    rw [hempty] at hparts
    exact hparts.symm
  · rintro rfl
    rfl

/-- Names below names spell the place of the one location below the other. -/
theorem ofParts_append {top names : List (List Char)} (htop : top ≠ [])
    (h : ∀ p ∈ names, IsName p) :
    ofParts false (top ++ names) = under (ofParts false top) (ofParts false names) := by
  unfold under
  by_cases hnil : names = []
  · rw [if_pos ((ofParts_eq_empty h).mpr hnil), hnil, List.append_nil]
  · rw [if_neg (mt (ofParts_eq_empty h).mp hnil)]
    apply String.toList_inj.mp
    rw [String.toList_append, String.toList_append, toList_ofParts, toList_ofParts, toList_ofParts]
    simp [intercalate_append htop hnil]

namespace IsPlace

variable {path d b : String}

theorem collapse_parts (h : IsPlace path) : collapse (parts path) = parts path := by
  rw [← parts_normalize, h.normal]

theorem names (h : IsPlace path) : ∀ p ∈ parts path, IsName p :=
  fun _ hp => isName_of_mem_collapse (h.collapse_parts.symm ▸ hp)

theorem eq_ofParts (h : IsPlace path) : path = ofParts false (parts path) := by
  have hnormal := h.normal
  rw [normalize, h.relative, h.collapse_parts] at hnormal
  exact hnormal.symm

theorem parts_ne_nil (h : IsPlace path) : parts path ≠ [] := by
  intro hnil
  have hpath := h.eq_ofParts
  rw [hnil] at hpath
  exact h.ne_empty hpath

/-- The segments that are kept on the way to the directory of a place. -/
theorem walk_directory (h : IsPlace path) :
    walk (segments (directory path)) = (parts path).dropLast := by
  have hnames : ∀ p ∈ (parts path).dropLast, IsName p :=
    fun p hp => h.names p (List.dropLast_subset _ hp)
  rw [← Path.collapse_parts, (directory_spec path).1, collapse_names hnames]

theorem under (hd : IsPlace d) (hb : IsPlace b) : IsPlace (under d b) := by
  have hnames : ∀ p ∈ parts d ++ parts b, IsName p := by
    intro p hp
    exact (List.mem_append.mp hp).elim (hd.names p) (hb.names p)
  have hunder : Path.under d b = ofParts false (parts d ++ parts b) := by
    rw [ofParts_append hd.parts_ne_nil hb.names, ← hd.eq_ofParts, ← hb.eq_ofParts]
  rw [hunder]
  refine ⟨normalize_ofParts _ hnames, isAbsolute_ofParts _ hnames, ?_⟩
  intro hempty
  exact hd.parts_ne_nil (List.append_eq_nil_iff.mp ((ofParts_eq_empty hnames).mp hempty)).1

theorem parts_under (hd : IsPlace d) (hb : IsPlace b) :
    parts (Path.under d b) = parts d ++ parts b := by
  have hnames : ∀ p ∈ parts d ++ parts b, IsName p := by
    intro p hp
    exact (List.mem_append.mp hp).elim (hd.names p) (hb.names p)
  rw [← parts_ofParts false hnames, ofParts_append hd.parts_ne_nil hb.names, ← hd.eq_ofParts,
    ← hb.eq_ofParts]

theorem under_eq (hb : IsPlace b) (d : String) : Path.under d b = d ++ "/" ++ b :=
  if_neg hb.ne_empty

end IsPlace

/-- The segments that are kept on the way along a reference are names. -/
theorem isName_of_reference {base href : String} {p : List Char}
    (hp : p ∈ walk (segments (directory base) ++ segments href)) : IsName p := by
  refine isName_of_mem_walk (fun s hs => ?_) hp
  exact (List.mem_append.mp hs).elim slash_not_mem slash_not_mem

theorem resolve_relative {base href : String} (hbase : isAbsolute base = false)
    (hhref : isSelfContained href = false) :
    resolve href (some base) = ofParts false (walk (segments (directory base) ++ segments href)) := by
  rw [resolve_eq_walk hhref, (directory_spec base).2, hbase, Bool.false_and]

theorem IsPlace.walk_reference {base : String} (hbase : IsPlace base) (href : String) :
    walk (segments (directory base) ++ segments href) =
      (segments href).foldl visit (parts base).dropLast := by
  rw [walk, List.foldl_append, ← walk, hbase.walk_directory]

/-- A relative reference from a place leads to a place, unless it leads to the root. -/
theorem isPlace_resolve {base href : String} (hbase : IsPlace base)
    (hhref : isSelfContained href = false) (hne : resolve href (some base) ≠ "") :
    IsPlace (resolve href (some base)) := by
  refine ⟨?_, ?_, hne⟩
  · rw [resolve_relative hbase.relative hhref, normalize_ofParts _ fun _ => isName_of_reference]
  · rw [resolve_relative hbase.relative hhref, isAbsolute_ofParts _ fun _ => isName_of_reference]

/-- A reference that stays inside leads to the moved place from the moved document. -/
theorem resolve_under {d base href : String} (hd : IsPlace d) (hbase : IsPlace base)
    (hhref : StaysBelow base href) :
    resolve href (some (under d base)) = under d (resolve href (some base)) := by
  have hinside : staysInside (parts base).dropLast (segments href) = true :=
    hbase.walk_directory ▸ hhref.inside
  have hwalk : walk (segments (directory (under d base)) ++ segments href) =
      parts d ++ walk (segments (directory base) ++ segments href) := by
    rw [(hd.under hbase).walk_reference, hd.parts_under hbase,
      List.dropLast_append_of_ne_nil hbase.parts_ne_nil, foldl_visit_append hinside,
      hbase.walk_reference]
  rw [resolve_relative (hd.under hbase).relative hhref.relative, hwalk,
    ofParts_append hd.parts_ne_nil fun _ => isName_of_reference, ← hd.eq_ofParts,
    resolve_relative hbase.relative hhref.relative]

end Path

open ObjectMarkup.Path

/-- Every inclusion of the document at a location stays inside, and leads to a document that is not
at the root itself. -/
def InclusionsStayBelow (text : Option String → Option (List Char)) (l : String) : Prop :=
  ∀ source e i, text (some l) = some source → e ∈ documentEvents (Text.dropMark source) →
    e.inclusion? = some i → StaysBelow l i.source ∧ i.path (some l) ≠ ""

variable {text text' : Option String → Option (List Char)} {d l : String}

/-- A moved document includes what it included, moved. -/
theorem leads_under (hd : IsPlace d) (hl : IsPlace l) (hsame : text' (some (under d l)) = text (some l))
    (hstay : InclusionsStayBelow text l) (q : Option String) :
    Leads text' (some (under d l)) q ↔
      ∃ l', Leads text (some l) (some l') ∧ IsPlace l' ∧ q = some (under d l') := by
  constructor
  · rintro ⟨source, e, i, hsource, he, hi, rfl⟩
    rw [hsame] at hsource
    obtain ⟨hbelow, hne⟩ := hstay source e i hsource he hi
    exact ⟨i.path (some l), ⟨source, e, i, hsource, he, hi, rfl⟩,
      isPlace_resolve hl hbelow.relative hne, congrArg some (resolve_under hd hl hbelow)⟩
  · rintro ⟨l', ⟨source, e, i, hsource, he, hi, hl'⟩, -, rfl⟩
    obtain ⟨hbelow, -⟩ := hstay source e i hsource he hi
    cases hl'
    exact ⟨source, e, i, hsame.trans hsource, he, hi,
      congrArg some (resolve_under hd hl hbelow).symm⟩

open Relation in
theorem exists_place (hl : IsPlace l)
    (hstay : ∀ p, ReflTransGen (Leads text) (some l) (some p) → InclusionsStayBelow text p)
    {q : Option String} (h : ReflTransGen (Leads text) (some l) q) : ∃ p, q = some p ∧ IsPlace p := by
  induction h with
  | refl => exact ⟨l, rfl, hl⟩
  | tail hreached hstep ih =>
    obtain ⟨p, rfl, hp⟩ := ih
    obtain ⟨source, e, i, hsource, he, hi, rfl⟩ := hstep
    obtain ⟨hbelow, hne⟩ := hstay p hreached source e i hsource he hi
    exact ⟨_, rfl, isPlace_resolve hp hbelow.relative hne⟩

open Relation in
/-- The documents that a moved document includes, at any depth, are those that it included, moved. -/
theorem reaches_under (hd : IsPlace d) (hl : IsPlace l)
    (hsame : ∀ p, IsPlace p → text' (some (under d p)) = text (some p))
    (hstay : ∀ p, ReflTransGen (Leads text) (some l) (some p) → InclusionsStayBelow text p)
    (q : Option String) :
    ReflTransGen (Leads text') (some (under d l)) q ↔
      ∃ p, ReflTransGen (Leads text) (some l) (some p) ∧ IsPlace p ∧ q = some (under d p) := by
  constructor
  · intro h
    induction h with
    | refl => exact ⟨l, .refl, hl, rfl⟩
    | tail _ hstep ih =>
      obtain ⟨p, hp, hplace, rfl⟩ := ih
      obtain ⟨p', hleads, hplace', rfl⟩ :=
        (leads_under hd hplace (hsame p hplace) (hstay p hp) _).mp hstep
      exact ⟨p', hp.tail hleads, hplace', rfl⟩
  · rintro ⟨p, h, -, rfl⟩
    have hmoved : ∀ q, ReflTransGen (Leads text) (some l) q →
        ReflTransGen (Leads text') (some (under d l)) (q.map (under d)) := by
      intro q hq
      induction hq with
      | refl => exact .refl
      | tail hreached hstep ih =>
        obtain ⟨p, rfl, hplace⟩ := exists_place hl hstay hreached
        obtain ⟨p', rfl, hplace'⟩ := exists_place hl hstay (hreached.tail hstep)
        exact ih.tail ((leads_under hd hplace (hsame p hplace) (hstay p hreached) _).mpr
          ⟨p', hstep, hplace', rfl⟩)
    exact hmoved (some p) h

def Builder.runScriptAt (c : Builder) (path : String) (language : Option String) :
    Reading Builder := do
  let key ←
    match language.orElse fun _ => Path.extension? path with
    | some key => pure key
    | none => .fail (.noScriptEngine path)
  let bytes ← .lift .resource (c.reader.environment.documents.load path)
  let body ← .lift .notText (Text.decode bytes)
  c.runScript key (String.ofList body)

theorem Builder.runScriptFile_eq (c : Builder) (source : String) (language : Option String) :
    c.runScriptFile source language =
      c.runScriptAt (resolve source c.location) language :=
  rfl

theorem Context.resolve_address {c : Context} {target : Option ValueType} {href : String}
    (htarget : ∀ type, target = some type → type.isPrimitive = false) (hne : href ≠ "")
    (hsingle : href.toList.head? ≠ some '@') (hlocation : c.location = some l) :
    c.resolve ("@" ++ href) target = .ok (.url (Path.resolve href (some l))) := by
  rw [c.resolve_sigil (String.toList_append ..) rfl hne hsingle htarget]
  simp [dereference, hlocation]

open Relation in
/-- When documents move into another directory, all that their references lead to moves with them,
as long as these stay inside: the documents they include, at any depth, their scripts, and the
addresses in their attributes. -/
theorem references_moved {d b : String} (hd : IsPlace d) (hb : IsPlace b) :
    (∀ href, StaysBelow b href →
      let result := resolve href (some b)
      resolve href (some (d ++ "/" ++ b)) = under d result ∧
      (∀ i : Inclusion, i.source = href →
        i.path (some b) = result ∧ i.path (some (d ++ "/" ++ b)) = under d result) ∧
      (∀ (c : Builder) language,
        (c.location = some b → c.runScriptFile href language = c.runScriptAt result language) ∧
        (c.location = some (d ++ "/" ++ b) →
          c.runScriptFile href language = c.runScriptAt (under d result) language)) ∧
      ∀ (c : Context) target, (∀ type, target = some type → type.isPrimitive = false) →
        href ≠ "" → href.toList.head? ≠ some '@' →
        (c.location = some b → c.resolve ("@" ++ href) target = .ok (.url result)) ∧
        (c.location = some (d ++ "/" ++ b) →
          c.resolve ("@" ++ href) target = .ok (.url (under d result)))) ∧
    ∀ text text' : Option String → Option (List Char),
      (∀ p, IsPlace p → text' (some (under d p)) = text (some p)) →
      (∀ p, ReflTransGen (Leads text) (some b) (some p) → InclusionsStayBelow text p) →
      ∀ q, ReflTransGen (Leads text') (some (d ++ "/" ++ b)) q ↔
        ∃ p, ReflTransGen (Leads text) (some b) (some p) ∧ IsPlace p ∧ q = some (under d p) := by
  rw [← hb.under_eq d]
  constructor
  · intro href hstays result
    have hresult : resolve href (some (under d b)) = under d result := resolve_under hd hb hstays
    refine ⟨hresult, ?_, ?_, ?_⟩
    · rintro i rfl
      exact ⟨rfl, hresult⟩
    · intro c language
      refine ⟨fun hc => ?_, fun hc => ?_⟩
      · rw [c.runScriptFile_eq, hc]
      · rw [c.runScriptFile_eq, hc, hresult]
    · intro c target htarget hne hsingle
      refine ⟨Context.resolve_address htarget hne hsingle, fun hc => ?_⟩
      rw [Context.resolve_address htarget hne hsingle hc, hresult]
  · intro text text' hsame hstay q
    exact reaches_under hd hb hsame hstay q

open Relation in
/-- A document whose inclusion climbs two directories, and both moved two directories down. -/
theorem references_moved_of_climb :
    let source := "<wtkx:include xmlns:wtkx='urn:wtkx' src='../../b'/>".toList
    let text := fun p => if p = some "forms/rows/a" then some source else none
    let text' := fun p => text (p.map fun l => String.ofList (l.toList.drop "demo/ui/".length))
    IsPlace "demo/ui" ∧ IsPlace "forms/rows/a" ∧ StaysBelow "forms/rows/a" "../../b" ∧
      resolve "../../b" (some "demo/ui/forms/rows/a") = "demo/ui/b" ∧
      ReflTransGen (Leads text') (some "demo/ui/forms/rows/a") (some "demo/ui/b") := by
  intro source text text'
  have hd : IsPlace "demo/ui" := ⟨by decide +kernel, by decide +kernel, by decide +kernel⟩
  have ha : IsPlace "forms/rows/a" := ⟨by decide +kernel, by decide +kernel, by decide +kernel⟩
  have hb : IsPlace "b" := ⟨by decide +kernel, by decide +kernel, by decide +kernel⟩
  have hstays : StaysBelow "forms/rows/a" "../../b" := ⟨by decide +kernel, by decide +kernel⟩
  have hresult : resolve "../../b" (some "forms/rows/a") = "b" := by decide +kernel
  have hinclusions : (documentEvents (Text.dropMark source)).filterMap Event.inclusion? =
      [⟨"../../b", none⟩] := by
    decide +kernel
  obtain ⟨hreferences, htrees⟩ := references_moved hd ha
  have hmoved := (hreferences "../../b" hstays).1
  rw [hresult, hb.under_eq] at hmoved
  refine ⟨hd, ha, hstays, hmoved, ?_⟩
  have hsame : ∀ p, IsPlace p → text' (some (under "demo/ui" p)) = text (some p) := by
    intro p hp
    have hlength : "demo/ui/".length = 8 := rfl
    simp [text', hp.under_eq, hlength]
  have hinside : ∀ p, InclusionsStayBelow text p := by
    intro p source' e i hsource he hi
    simp only [text, Option.some.injEq] at hsource
    split at hsource
    · rename_i hp
      subst hp
      cases hsource
      have hmem : i ∈ (documentEvents (Text.dropMark source)).filterMap Event.inclusion? :=
        List.mem_filterMap.mpr ⟨e, he, hi⟩
      rw [hinclusions, List.mem_singleton] at hmem
      subst hmem
      exact ⟨hstays, by rw [Inclusion.path, hresult]; decide⟩
    · cases hsource
  have hleads : Leads text (some "forms/rows/a") (some "b") := by
    have hmem : (⟨"../../b", none⟩ : Inclusion) ∈
        (documentEvents (Text.dropMark source)).filterMap Event.inclusion? := by
      simp [hinclusions]
    obtain ⟨e, he, hi⟩ := List.mem_filterMap.mp hmem
    exact ⟨source, e, _, by simp [text], he, hi, by rw [Inclusion.path, hresult]⟩
  refine (htrees text text' hsame (fun p _ => hinside p) _).mpr ⟨"b", .single hleads, hb, ?_⟩
  rw [hb.under_eq]
  rfl

end ObjectMarkup
