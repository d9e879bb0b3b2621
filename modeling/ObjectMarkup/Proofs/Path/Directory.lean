import ObjectMarkup.Proofs.Document.Stepwise
import ObjectMarkup.Proofs.Path.Shortest

namespace ObjectMarkup

namespace Path

/-- The location with the given segments, of which the first one is empty if it is absolute. -/
def ofSegments (first : List Char) (others : List (List Char)) : String :=
  String.ofList (if first = [] ∧ others = [] then ['/'] else List.intercalate ['/'] (first :: others))

/-- The location without its last component. The root and the empty location have none. What leads
nowhere is left out at the end, but neither the root nor a dot at the start is. -/
def parent? (path : String) : Option String :=
  match segments path with
  | [] => none
  | first :: others =>
    match others.reverse.dropWhile isIdle with
    | _ :: above => some (ofSegments first (above.dropWhile isIdle).reverse)
    | [] => if first = [] then none else some ""

/-- The directory of a location; the empty location where it has none. -/
def directory (path : String) : String := (parent? path).getD ""

theorem segments_ne_nil (path : String) : segments path ≠ [] := Text.pieces_ne_nil '/' _

/-- A location is absolute when its first segment is empty and not its only one. -/
theorem isAbsolute_of_segments {path : String} {first : List Char} {others : List (List Char)}
    (h : segments path = first :: others) :
    isAbsolute path = decide (first = [] ∧ others ≠ []) := by
  unfold segments at h
  unfold isAbsolute
  cases hpath : path.toList with
  | nil =>
    rw [hpath] at h
    cases h
    rfl
  | cons c cs =>
    obtain ⟨p, ps, hp⟩ := List.exists_cons_of_ne_nil (Text.pieces_ne_nil '/' cs)
    rw [hpath, Text.pieces, hp] at h
    by_cases hc : c = '/'
    · rw [if_pos hc] at h
      cases h
      simp [hc]
    · rw [if_neg hc] at h
      cases h
      simp [hc]

theorem segments_ofSegments {first : List Char} {others : List (List Char)} (hfirst : '/' ∉ first)
    (hothers : ∀ p ∈ others, '/' ∉ p) :
    segments (ofSegments first others) =
      if first = [] ∧ others = [] then [[], []] else first :: others := by
  unfold ofSegments segments
  rw [String.toList_ofList]
  split
  · rfl
  · exact Text.pieces_intercalate (by simp) (List.forall_mem_cons.mpr ⟨hfirst, hothers⟩)

theorem parts_ofSegments {first : List Char} {others : List (List Char)} (hfirst : '/' ∉ first)
    (hothers : ∀ p ∈ others, '/' ∉ p) :
    parts (ofSegments first others) = (first :: others).filter fun p => !isIdle p := by
  rw [parts_eq, segments_ofSegments hfirst hothers]
  split
  · rename_i hroot
    rw [hroot.1, hroot.2]
    rfl
  · rfl

theorem isAbsolute_ofSegments {first : List Char} {others : List (List Char)} (hfirst : '/' ∉ first)
    (hothers : ∀ p ∈ others, '/' ∉ p) :
    isAbsolute (ofSegments first others) = decide (first = []) := by
  have hsegments := segments_ofSegments hfirst hothers
  split at hsegments
  · rename_i hroot
    rw [isAbsolute_of_segments hsegments, hroot.1]
    rfl
  · rename_i hroot
    rw [isAbsolute_of_segments hsegments]
    by_cases hnil : first = [] <;> simp_all

theorem filter_dropWhile (segments : List (List Char)) :
    (segments.dropWhile isIdle).filter (fun p => !isIdle p) =
      segments.filter fun p => !isIdle p := by
  have hidle : (segments.takeWhile isIdle).filter (fun p => !isIdle p) = [] :=
    List.filter_eq_nil_iff.mpr fun p hp => by simpa using List.mem_takeWhile_imp hp
  have hall : (segments.takeWhile isIdle ++ segments.dropWhile isIdle).filter (fun p => !isIdle p) =
      segments.filter fun p => !isIdle p := by
    rw [List.takeWhile_append_dropWhile]
  rwa [List.filter_append, hidle, List.nil_append] at hall

/-- The segments that count are those in front of the last one that does, if there is one. -/
theorem filter_eq_of_dropWhile {others above : List (List Char)} {last : List Char}
    (h : others.reverse.dropWhile isIdle = last :: above) :
    others.filter (fun p => !isIdle p) = (above.reverse.filter fun p => !isIdle p) ++ [last] := by
  have hlast : isIdle last = false := by
    have hhead := List.head?_dropWhile_not isIdle others.reverse
    rw [h] at hhead
    simpa using hhead
  have hreverse := filter_dropWhile others.reverse
  rw [h, List.filter_cons_of_pos (by simp [hlast]), List.filter_reverse] at hreverse
  rw [← List.reverse_reverse (others.filter _), ← hreverse, List.reverse_cons,
    List.filter_reverse]

/-- The directory has the parts of the location but the last, and is absolute where the location is
and has a part. -/
theorem directory_spec (path : String) :
    parts (directory path) = (parts path).dropLast ∧
      isAbsolute (directory path) = (isAbsolute path && !(parts path).isEmpty) := by
  obtain ⟨first, others, hpath⟩ := List.exists_cons_of_ne_nil (segments_ne_nil path)
  have hslash : ∀ p ∈ first :: others, '/' ∉ p := fun p hp => slash_not_mem (hpath ▸ hp)
  obtain ⟨hfirst, hothers⟩ := List.forall_mem_cons.mp hslash
  rw [isAbsolute_of_segments hpath, parts_eq path, hpath]
  cases habove : others.reverse.dropWhile isIdle with
  | nil =>
    -- Nothing but the first segment can count, so that the directory is empty.
    have hidle : others.filter (fun p => !isIdle p) = [] := by
      rw [← List.reverse_eq_nil_iff, ← List.filter_reverse, ← filter_dropWhile, habove]
      rfl
    have hempty : directory path = "" := by
      unfold directory parent?
      rw [hpath]
      simp only [habove]
      split <;> rfl
    rw [hempty, List.filter_cons, hidle]
    refine ⟨by split <;> rfl, ?_⟩
    by_cases hnil : first = []
    · subst hnil
      simp [isIdle, isAbsolute]
    · simp [hnil, isAbsolute]
  | cons last above =>
    have hdirectory : directory path = ofSegments first (above.dropWhile isIdle).reverse := by
      unfold directory parent?
      rw [hpath]
      simp only [habove]
      rfl
    have hrest : ∀ p ∈ (above.dropWhile isIdle).reverse, '/' ∉ p := by
      intro p hp
      have hmem : p ∈ others.reverse.dropWhile isIdle :=
        habove ▸ List.mem_cons_of_mem _ ((List.dropWhile_sublist _).subset (List.mem_reverse.mp hp))
      exact hothers p (List.mem_reverse.mp ((List.dropWhile_sublist _).subset hmem))
    have hcount : (first :: others).filter (fun p => !isIdle p) =
        ((first :: above.reverse).filter fun p => !isIdle p) ++ [last] := by
      rw [← List.singleton_append, List.filter_append, filter_eq_of_dropWhile habove,
        ← List.append_assoc, ← List.filter_append, List.singleton_append]
    have hkept : (first :: (above.dropWhile isIdle).reverse).filter (fun p => !isIdle p) =
        (first :: above.reverse).filter fun p => !isIdle p := by
      rw [List.filter_cons, List.filter_cons, List.filter_reverse, filter_dropWhile,
        List.filter_reverse]
    have hsome : others ≠ [] := by
      rintro rfl
      cases habove
    rw [hdirectory, parts_ofSegments hfirst hrest, isAbsolute_ofSegments hfirst hrest, hcount, hkept,
      List.dropLast_concat]
    refine ⟨rfl, ?_⟩
    by_cases hnil : first = [] <;> simp [hnil, hsome]

example : parent? "a/./b//." = some "a" ∧ parent? "./a" = some "." ∧ parent? "/a" = some "/" ∧
    parent? "a/" = some "" ∧ parent? "/." = none := by
  decide +kernel

/-- What is joined to a location is absolute where the location is, unless that is empty. -/
theorem isAbsolute_join {root : String} (hroot : root ≠ "") (relative : String) :
    isAbsolute (join root relative) = isAbsolute root := by
  have hne : root.toList ≠ [] := by simpa using hroot
  obtain ⟨c, cs, hcs⟩ := List.exists_cons_of_ne_nil hne
  unfold join isAbsolute
  split
  · rename_i hlast
    exact absurd (List.getLast?_eq_none_iff.mp hlast) hne
  · split <;> simp [hcs]

/-- A relative reference is walked from the directory of its base. -/
theorem resolve_eq_walk {href : String} (h : isSelfContained href = false) (base : String) :
    resolve href (some base) = ofParts (isAbsolute (directory base))
      (walk (segments (directory base) ++ segments href)) := by
  obtain ⟨hparts, habsolute⟩ := directory_spec base
  have hall : (parts base).dropLast ++ parts href =
      (segments (directory base) ++ segments href).filter fun p => !isIdle p := by
    rw [List.filter_append, ← parts_eq, ← parts_eq, hparts]
  simp only [resolve, h, Bool.false_eq_true, if_false, habsolute, hall, collapse_filter]

/-- The reference is joined to the directory, and the result is brought into shortest form. -/
theorem resolve_eq_normalize {href : String} (h : isSelfContained href = false) (base : String) :
    resolve href (some base) = normalize (join (directory base) href) := by
  have hhref : isAbsolute href = false := by
    unfold isSelfContained at h
    exact (Bool.or_eq_false_iff.mp h).1
  have habsolute : isAbsolute (join (directory base) href) = isAbsolute (directory base) := by
    by_cases hempty : directory base = ""
    · rw [hempty]
      exact hhref
    · exact isAbsolute_join hempty href
  have hall : parts (directory base) ++ parts href =
      (segments (directory base) ++ segments href).filter fun p => !isIdle p := by
    rw [List.filter_append, ← parts_eq, ← parts_eq]
  rw [resolve_eq_walk h, normalize, habsolute, parts_join, hall, collapse_filter]

/-- Of the base nothing but the shortest form of its directory matters. -/
theorem resolve_congr {href : String} (h : isSelfContained href = false) {base other : String}
    (hsame : normalize (directory other) = normalize (directory base)) :
    resolve href (some other) = resolve href (some base) := by
  obtain ⟨habsolute, hkept⟩ := normalize_eq_iff.mp hsame
  rw [resolve_eq_walk h, resolve_eq_walk h, habsolute, walk, walk, List.foldl_append,
    List.foldl_append, ← walk, hkept, ← walk]

end Path

open ObjectMarkup.Path in
/-- A relative reference leads to where the segments of the directory of its base and then its own
lead on from the root. It is in shortest form, and so leads from any directory further down only.
Documents whose directories have the same shortest form include the same document by it. -/
theorem relative_reference_walked {href : String} (h : isSelfContained href = false)
    (base : String) :
    let names := walk (segments (directory base) ++ segments href)
    let result := resolve href (some base)
    result = ofParts (isAbsolute (directory base)) names ∧
    result = normalize (join (directory base) href) ∧
    isAbsolute result = isAbsolute (directory base) ∧
    segments result = (if isAbsolute (directory base) then [[]] else []) ++
      (if names = [] then [[]] else names) ∧
    (∀ p ∈ names, p ≠ [] ∧ p ≠ ['.'] ∧ p ≠ ['.', '.']) ∧
    normalize result = result ∧ resolve result none = result ∧
    (∀ root, isBelow (normalize root) (normalize (join root result)) = true) ∧
    ∀ other, normalize (directory other) = normalize (directory base) →
      resolve href (some other) = result ∧
      ∀ (nested : Reader → String → Reading Document) (r : Reader) resources,
        r.readIncluded nested (some other) ⟨href, resources⟩ =
          r.readIncluded nested (some base) ⟨href, resources⟩ := by
  intro names result
  have hnames : ∀ p ∈ names, IsName p := by
    intro p hp
    refine isName_of_mem_walk (fun s hs => ?_) hp
    rcases List.mem_append.mp hs with hs | hs
    · exact slash_not_mem hs
    · exact slash_not_mem hs
  have hresult : result = ofParts (isAbsolute (directory base)) names := resolve_eq_walk h base
  have hnormal : normalize result = result := hresult ▸ normalize_ofParts _ hnames
  refine ⟨hresult, resolve_eq_normalize h base, hresult ▸ isAbsolute_ofParts _ hnames,
    hresult ▸ segments_ofParts _ hnames, ?_, hnormal, ?_, ?_, ?_⟩
  · intro p hp
    obtain ⟨hidle, hdots, -⟩ := hnames p hp
    simp only [isIdle, decide_eq_false_iff_not, not_or] at hidle
    exact ⟨hidle.1, hidle.2, hdots⟩
  · simp only [resolve, hnormal, ite_self]
  · intro root
    exact hresult ▸ isBelow_join_names root _ hnames
  · intro other hsame
    have hother := resolve_congr h hsame
    refine ⟨hother, fun nested r resources => ?_⟩
    simp only [Reader.readIncluded, Reader.forInclusion, Inclusion.path]
    rw [hother]

/-- A reference that climbs, in a directory that is spelled with idle segments. -/
theorem relative_reference_walked_of_climb :
    Path.isSelfContained "../b" = false ∧ Path.directory "/ui//./forms/a" = "/ui//./forms" ∧
      Path.resolve "../b" (some "/ui//./forms/a") = "/ui/b" ∧
      Path.resolve "../b" (some "/ui/x/../forms/./z/") = "/ui/b" := by
  have hrelative : Path.isSelfContained "../b" = false := by decide +kernel
  have hsame : Path.normalize (Path.directory "/ui/x/../forms/./z/") =
      Path.normalize (Path.directory "/ui//./forms/a") := by
    decide +kernel
  obtain ⟨hwalk, -, -, -, -, -, -, -, hother⟩ :=
    relative_reference_walked hrelative "/ui//./forms/a"
  have hresult : Path.resolve "../b" (some "/ui//./forms/a") = "/ui/b" :=
    hwalk.trans (by decide +kernel)
  exact ⟨hrelative, by decide +kernel, hresult, (hother _ hsame).1.trans hresult⟩

end ObjectMarkup
