import Mathlib.Data.List.TakeWhile
import ObjectMarkup.Path

namespace ObjectMarkup

namespace Text

variable {sep : Char}

/-- A text is cut at each separator in it, whatever stands before it. -/
theorem pieces_append_sep (sep : Char) (a b : List Char) :
    pieces sep (a ++ sep :: b) = pieces sep a ++ pieces sep b := by
  induction a with
  | nil => simp [pieces]
  | cons c a ih =>
    by_cases hc : c = sep
    · simp [pieces, hc, ih]
    · obtain ⟨p, ps, hp⟩ := List.exists_cons_of_ne_nil (pieces_ne_nil sep a)
      simp [pieces, hc, ih, hp]

/-- Pieces without the separator are the pieces of the text that they are joined to. -/
theorem pieces_intercalate {ps : List (List Char)} (hne : ps ≠ []) (h : ∀ p ∈ ps, sep ∉ p) :
    pieces sep (List.intercalate [sep] ps) = ps := by
  induction ps with
  | nil => exact absurd rfl hne
  | cons p ps ih =>
    obtain ⟨hp, hps⟩ := List.forall_mem_cons.mp h
    cases ps with
    | nil => simp [List.intercalate, pieces_of_not_mem hp]
    | cons q qs =>
      have hcut : List.intercalate [sep] (p :: q :: qs) =
          p ++ sep :: List.intercalate [sep] (q :: qs) := by
        simp [List.intercalate]
      rw [hcut, pieces_append hp, ih (by simp) hps]

end Text

namespace Path

/-- What stands between the slashes of a location, the empty text included. -/
def segments (path : String) : List (List Char) := Text.pieces '/' path.toList

/-- Whether a segment leads nowhere else: it is empty or a single dot. -/
def isIdle (segment : List Char) : Bool := segment = [] ∨ segment = ['.']

def visit (kept : List (List Char)) (segment : List Char) : List (List Char) :=
  if isIdle segment then kept
  else if segment = ['.', '.'] then kept.dropLast
  else kept ++ [segment]

def walk (segments : List (List Char)) : List (List Char) := segments.foldl visit []

/-- What a kept segment is: a name that stands for itself wherever it stands. -/
def IsName (segment : List Char) : Prop :=
  isIdle segment = false ∧ segment ≠ ['.', '.'] ∧ '/' ∉ segment

theorem parts_eq (path : String) : parts path = (segments path).filter fun p => !isIdle p := by
  unfold parts segments
  congr 1
  funext p
  simp [isIdle, Bool.decide_or]

theorem slash_not_mem {path : String} {p : List Char} (h : p ∈ segments path) : '/' ∉ p :=
  Text.not_mem_of_mem_pieces h

/-- Collapsing the parts that count is walking all segments. -/
theorem collapseOnto_filter (segments kept : List (List Char)) :
    collapseOnto kept (segments.filter fun p => !isIdle p) = segments.foldl visit kept.reverse := by
  induction segments generalizing kept with
  | nil => rfl
  | cons p rest ih =>
    cases hidle : isIdle p with
    | true => simp [visit, hidle, ih]
    | false =>
      by_cases hdots : p = ['.', '.']
      · subst hdots
        simp only [hidle, Bool.not_false, List.filter_cons_of_pos, collapseOnto, if_true, ih,
          List.foldl_cons, visit, Bool.false_eq_true, if_false]
        rw [List.drop_one, List.dropLast_reverse]
      · simp [collapseOnto, hidle, hdots, ih, visit]

theorem collapse_filter (segments : List (List Char)) :
    collapse (segments.filter fun p => !isIdle p) = walk segments :=
  collapseOnto_filter segments []

theorem collapse_parts (path : String) : collapse (parts path) = walk (segments path) := by
  rw [parts_eq, collapse_filter]

theorem isName_of_mem_visit {kept : List (List Char)} {segment p : List Char}
    (hkept : ∀ p ∈ kept, IsName p) (hslash : '/' ∉ segment) (h : p ∈ visit kept segment) :
    IsName p := by
  unfold visit at h
  split at h
  · exact hkept p h
  · rename_i hidle
    split at h
    · exact hkept p (List.dropLast_subset _ h)
    · rename_i hdots
      rcases List.mem_append.mp h with h | h
      · exact hkept p h
      · cases List.mem_singleton.mp h
        exact ⟨by simpa using hidle, hdots, hslash⟩

theorem isName_of_mem_walk {segments : List (List Char)} (hslash : ∀ p ∈ segments, '/' ∉ p)
    {p : List Char} (h : p ∈ walk segments) : IsName p := by
  have hall : ∀ kept : List (List Char), (∀ p ∈ kept, IsName p) →
      ∀ p ∈ segments.foldl visit kept, IsName p := by
    clear h
    induction segments with
    | nil => exact fun kept hkept => hkept
    | cons s rest ih =>
      intro kept hkept
      obtain ⟨hs, hrest⟩ := List.forall_mem_cons.mp hslash
      exact ih hrest _ fun p hp => isName_of_mem_visit hkept hs hp
  exact hall [] (by simp) p h

theorem filter_names {names : List (List Char)} (h : ∀ p ∈ names, IsName p) :
    names.filter (fun p => !isIdle p) = names :=
  List.filter_eq_self.mpr fun p hp => by simp [(h p hp).1]

theorem foldl_visit_names {names : List (List Char)} (h : ∀ p ∈ names, IsName p)
    (kept : List (List Char)) : names.foldl visit kept = kept ++ names := by
  induction names generalizing kept with
  | nil => simp
  | cons p rest ih =>
    obtain ⟨⟨hidle, hdots, -⟩, hrest⟩ := List.forall_mem_cons.mp h
    rw [List.foldl_cons, ih hrest]
    simp [visit, hidle, hdots]

theorem toList_ofParts (absolute : Bool) (names : List (List Char)) :
    (ofParts absolute names).toList =
      (if absolute then ['/'] else []) ++ List.intercalate ['/'] names := by
  simp [ofParts]

/-- What names joined by slashes begin with is the beginning of a name. -/
theorem head?_intercalate_ne {names : List (List Char)} (h : ∀ p ∈ names, IsName p) :
    (List.intercalate ['/'] names).head? ≠ some '/' := by
  cases names with
  | nil => simp [List.intercalate]
  | cons p rest =>
    obtain ⟨⟨hidle, -, hslash⟩, -⟩ := List.forall_mem_cons.mp h
    cases p with
    | nil => simp [isIdle] at hidle
    | cons c cs =>
      have hhead : (List.intercalate ['/'] ((c :: cs) :: rest)).head? = some c := by
        cases rest <;> simp [List.intercalate]
      rw [hhead]
      intro heq
      cases heq
      simp at hslash

theorem isAbsolute_ofParts (absolute : Bool) {names : List (List Char)}
    (h : ∀ p ∈ names, IsName p) : isAbsolute (ofParts absolute names) = absolute := by
  cases absolute with
  | true => simp [isAbsolute, toList_ofParts]
  | false => simpa [isAbsolute, toList_ofParts] using head?_intercalate_ne h

/-- The segments of a location in shortest form are its names, after an empty one for the root. Only
where there are no names is the last segment empty. -/
theorem segments_ofParts (absolute : Bool) {names : List (List Char)} (h : ∀ p ∈ names, IsName p) :
    segments (ofParts absolute names) =
      (if absolute then [[]] else []) ++ (if names = [] then [[]] else names) := by
  have hnames : Text.pieces '/' (List.intercalate ['/'] names) =
      if names = [] then [[]] else names := by
    split
    · rename_i hnil
      simp [hnil, List.intercalate, Text.pieces]
    · rename_i hne
      exact Text.pieces_intercalate hne fun p hp => (h p hp).2.2
  rw [segments, toList_ofParts]
  cases absolute with
  | true =>
    rw [if_pos rfl, List.singleton_append, ← List.nil_append ('/' :: _), Text.pieces_append_sep,
      hnames]
    rfl
  | false => simpa using hnames

theorem parts_ofParts (absolute : Bool) {names : List (List Char)} (h : ∀ p ∈ names, IsName p) :
    parts (ofParts absolute names) = names := by
  have hidle : isIdle [] = true := rfl
  rw [parts_eq, segments_ofParts absolute h, List.filter_append]
  cases absolute <;> by_cases hnil : names = [] <;> simp [hnil, filter_names h, hidle]

/-- A location in shortest form tells whether it is absolute, and its names. -/
theorem ofParts_injective {absolute absolute' : Bool} {names names' : List (List Char)}
    (h : ∀ p ∈ names, IsName p) (h' : ∀ p ∈ names', IsName p)
    (heq : ofParts absolute names = ofParts absolute' names') :
    absolute = absolute' ∧ names = names' := by
  constructor
  · rw [← isAbsolute_ofParts absolute h, heq, isAbsolute_ofParts absolute' h']
  · rw [← parts_ofParts absolute h, heq, parts_ofParts absolute' h']

theorem isName_of_mem_collapse {path : String} {p : List Char} (h : p ∈ collapse (parts path)) :
    IsName p := by
  rw [collapse_parts] at h
  exact isName_of_mem_walk (fun _ => slash_not_mem) h

theorem collapse_names {names : List (List Char)} (h : ∀ p ∈ names, IsName p) :
    collapse names = names := by
  rw [← filter_names h, collapse_filter, filter_names h, walk, foldl_visit_names h,
    List.nil_append]

/-- A location in shortest form is its own shortest form. -/
theorem normalize_ofParts (absolute : Bool) {names : List (List Char)} (h : ∀ p ∈ names, IsName p) :
    normalize (ofParts absolute names) = ofParts absolute names := by
  rw [normalize, isAbsolute_ofParts absolute h, parts_ofParts absolute h, collapse_names h]

theorem parts_normalize (path : String) : parts (normalize path) = collapse (parts path) :=
  parts_ofParts _ fun _ => isName_of_mem_collapse

/-- Locations have one shortest form exactly when both or neither are absolute, and the same
segments are kept on the way. -/
theorem normalize_eq_iff {path path' : String} :
    normalize path = normalize path' ↔
      isAbsolute path = isAbsolute path' ∧ walk (segments path) = walk (segments path') := by
  rw [← collapse_parts, ← collapse_parts]
  constructor
  · exact ofParts_injective (fun _ => isName_of_mem_collapse) fun _ => isName_of_mem_collapse
  · rintro ⟨habsolute, hkept⟩
    rw [normalize, normalize, habsolute, hkept]

theorem parts_of_append_slash (a b : List Char) :
    parts (String.ofList (a ++ '/' :: b)) = parts (String.ofList a) ++ parts (String.ofList b) := by
  simp only [parts, String.toList_ofList, Text.pieces_append_sep, List.filter_append]

/-- The parts of a joined location are those of the two that are joined. -/
theorem parts_join (root relative : String) :
    parts (join root relative) = parts root ++ parts relative := by
  unfold join
  split
  · rename_i hlast
    have hroot : root = "" := by simpa using hlast
    subst hroot
    rfl
  · rename_i c hlast
    obtain ⟨front, hfront⟩ := List.getLast?_eq_some_iff.mp hlast
    split
    · rename_i hc
      subst hc
      have hroot : root = String.ofList (front ++ '/' :: []) := by rw [← hfront, String.ofList_toList]
      have hjoin : root ++ relative = String.ofList (front ++ '/' :: relative.toList) := by
        apply String.toList_inj.mp
        simp [hfront]
      have hempty : parts (String.ofList []) = [] := rfl
      rw [hjoin, hroot, parts_of_append_slash, parts_of_append_slash, hempty, List.append_nil,
        String.ofList_toList]
    · have hjoin : root ++ "/" ++ relative =
          String.ofList (root.toList ++ '/' :: relative.toList) := by
        apply String.toList_inj.mp
        simp
      rw [hjoin, parts_of_append_slash, String.ofList_toList, String.ofList_toList]

/-- From any directory, names lead further down only. -/
theorem isBelow_join_names (root : String) (absolute : Bool) {names : List (List Char)}
    (h : ∀ p ∈ names, IsName p) :
    isBelow (normalize root) (normalize (join root (ofParts absolute names))) = true := by
  have hdown : collapse (parts root ++ names) = collapse (parts root) ++ names := by
    have hall : parts root ++ names = (segments root ++ names).filter fun p => !isIdle p := by
      rw [List.filter_append, ← parts_eq, filter_names h]
    rw [hall, collapse_filter, collapse_parts, walk, walk, List.foldl_append, foldl_visit_names h]
  rw [isBelow, parts_normalize, parts_normalize, parts_join, parts_ofParts absolute h, hdown]
  exact List.isPrefixOf_iff_prefix.mpr (List.prefix_append _ _)

end Path

end ObjectMarkup
