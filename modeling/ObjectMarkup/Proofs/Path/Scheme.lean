import ObjectMarkup.Proofs.Path.Relocation

namespace ObjectMarkup

namespace Text

theorem occursIn_iff {part cs : List Char} : occursIn part cs = true ↔ part <:+: cs := by
  induction cs with
  | nil => simp [occursIn]
  | cons c rest ih =>
    rw [occursIn, Bool.or_eq_true, List.isPrefixOf_iff_prefix, ih, List.infix_cons_iff]

end Text

namespace Path

theorem slashes_not_infix {names : List (List Char)} (h : ∀ p ∈ names, IsName p) :
    ¬['/', '/'] <:+: (ofParts false names).toList := by
  rintro ⟨front, back, heq⟩
  have htext : (ofParts false names).toList = front ++ '/' :: '/' :: back := by simp [← heq]
  -- The text between the two slashes would be a segment, with one in front of it.
  have hcut : segments (ofParts false names) =
      Text.pieces '/' front ++ [] :: Text.pieces '/' back := by
    rw [segments, htext, Text.pieces_append_sep]
    rfl
  rw [segments_ofParts false h] at hcut
  by_cases hnil : names = []
  · obtain ⟨p, ps, hp⟩ := List.exists_cons_of_ne_nil (Text.pieces_ne_nil '/' front)
    simp [hnil, hp] at hcut
  · have hempty : ([] : List Char) ∈ names := by
      simp only [Bool.false_eq_true, if_false, if_neg hnil, List.nil_append] at hcut
      simp [hcut]
    exact absurd (h [] hempty).1 (by decide)

theorem not_isSelfContained_ofParts {names : List (List Char)} (h : ∀ p ∈ names, IsName p) :
    isSelfContained (ofParts false names) = false := by
  rw [isSelfContained, isAbsolute_ofParts false h, Bool.false_or, Bool.eq_false_iff]
  intro hoccurs
  have hinside : ['/', '/'] <:+: "://".toList := ⟨[':'], [], rfl⟩
  exact slashes_not_infix h (hinside.trans (Text.occursIn_iff.mp hoccurs))

/-- Of the base nothing matters but its parts, and whether it is absolute. -/
theorem resolve_congr_parts {href base other : String} (hparts : parts other = parts base)
    (habsolute : isAbsolute other = isAbsolute base) :
    resolve href (some other) = resolve href (some base) := by
  simp only [resolve, hparts, habsolute]

theorem parts_slash_slash (a b : List Char) :
    parts (String.ofList (a ++ '/' :: '/' :: b)) = parts (String.ofList (a ++ '/' :: b)) := by
  have hskip : parts (String.ofList ('/' :: b)) = parts (String.ofList b) := by
    have hempty : parts (String.ofList []) = [] := rfl
    simpa [hempty] using parts_of_append_slash [] b
  rw [parts_of_append_slash, hskip, ← parts_of_append_slash]

theorem parts_of_isName {name : String} (h : IsName name.toList) : parts name = [name.toList] := by
  rw [parts_eq, segments, Text.pieces_of_not_mem h.2.2]
  exact filter_names (by simpa using h)

theorem walk_congr {way way' : List (List Char)}
    (h : (way.filter fun p => !isIdle p) = way'.filter fun p => !isIdle p) : walk way = walk way' := by
  rw [← collapse_filter, h, collapse_filter]

section Locator

variable {scheme : String}

theorem isName_scheme (hscheme : '/' ∉ scheme.toList) : IsName (scheme ++ ":").toList := by
  have hcolon : ':' ∈ (scheme ++ ":").toList := by simp
  refine ⟨?_, ?_, by simpa using hscheme⟩
  · rw [isIdle, decide_eq_false_iff_not]
    rintro (hnil | hdot)
    · simp [hnil] at hcolon
    · simp [hdot] at hcolon
  · intro hdots
    simp [hdots] at hcolon

/-- A location with a scheme is relative, and has the parts of the one with a single slash. -/
theorem locator_spec (authority rest : String) (hscheme : '/' ∉ scheme.toList) :
    isAbsolute (scheme ++ "://" ++ authority ++ "/" ++ rest) = false ∧
      isAbsolute (scheme ++ ":/" ++ authority ++ "/" ++ rest) = false ∧
      parts (scheme ++ "://" ++ authority ++ "/" ++ rest) =
        parts (scheme ++ ":/" ++ authority ++ "/" ++ rest) ∧
      parts (scheme ++ ":/" ++ authority ++ "/" ++ rest) =
        (scheme ++ ":").toList :: (parts authority ++ parts rest) := by
  have hurl : scheme ++ "://" ++ authority ++ "/" ++ rest = String.ofList
      ((scheme ++ ":").toList ++ '/' :: '/' :: (authority.toList ++ '/' :: rest.toList)) := by
    apply String.toList_inj.mp
    simp
  have hflat : scheme ++ ":/" ++ authority ++ "/" ++ rest = String.ofList
      ((scheme ++ ":").toList ++ '/' :: (authority.toList ++ '/' :: rest.toList)) := by
    apply String.toList_inj.mp
    simp
  have hhead : ∀ back, isAbsolute (String.ofList ((scheme ++ ":").toList ++ back)) = false := by
    intro back
    obtain ⟨c, cs, hcs⟩ := List.exists_cons_of_ne_nil (l := (scheme ++ ":").toList) (by simp)
    have hslash := (isName_scheme hscheme).2.2
    rw [hcs, List.mem_cons, not_or] at hslash
    simpa [isAbsolute, hcs] using Ne.symm hslash.1
  refine ⟨hurl ▸ hhead _, hflat ▸ hhead _, ?_, ?_⟩
  · rw [hurl, hflat, parts_slash_slash]
  · rw [hflat, parts_of_append_slash, parts_of_append_slash]
    simp only [String.ofList_toList, parts_of_isName (isName_scheme hscheme),
      List.singleton_append]

end Locator

end Path

open ObjectMarkup.Path

/-- A location with a scheme stands for itself where a document is named by it. A relative reference
in that document leads to what it would lead to if there were one slash behind the scheme. So what it
leads to never begins with the scheme and the authority, and is a relative location itself. Where the
reference does not climb to the authority, it leads below the scheme, the one slash and the
authority. -/
theorem scheme_flattened {scheme href : String} (authority rest : String)
    (hscheme : '/' ∉ scheme.toList) (hhref : isSelfContained href = false) :
    let base := scheme ++ "://" ++ authority ++ "/" ++ rest
    let way := segments (directory rest) ++ segments href
    let result := resolve href (some base)
    (∀ location, resolve base location = base) ∧
    result = resolve href (some (scheme ++ ":/" ++ authority ++ "/" ++ rest)) ∧
    ¬(scheme ++ "://" ++ authority).toList <+: result.toList ∧
    isSelfContained result = false ∧
    (IsName authority.toList → parts rest ≠ [] → staysInside [] way = true →
      result = under (scheme ++ ":/" ++ authority) (ofParts false (walk way))) := by
  intro base way result
  obtain ⟨hrelative, hflat, hsame, hparts⟩ := locator_spec authority rest hscheme
  have hresult : result = ofParts false (walk (segments (directory base) ++ segments href)) :=
    resolve_relative hrelative hhref
  have hmark : ['/', '/'] <:+: "://".toList := ⟨[':'], [], rfl⟩
  refine ⟨fun location => ?_, resolve_congr_parts hsame.symm (hflat.trans hrelative.symm) |>.symm,
    ?_, ?_, ?_⟩
  · have hbase : isSelfContained base = true := by
      have hoccurs : "://".toList <:+: base.toList :=
        ⟨scheme.toList, authority.toList ++ '/' :: rest.toList, by simp [base]⟩
      rw [isSelfContained, Text.occursIn_iff.mpr hoccurs, Bool.or_true]
    simp only [resolve, hbase, if_true]
  · intro hprefix
    have hinside : "://".toList <:+: (scheme ++ "://" ++ authority).toList :=
      ⟨scheme.toList, authority.toList, by simp⟩
    rw [hresult] at hprefix
    exact slashes_not_infix (fun _ => isName_of_reference)
      (hmark.trans (hinside.trans hprefix.isInfix))
  · rw [hresult]
    exact not_isSelfContained_ofParts fun _ => isName_of_reference
  · intro hauthority hrest hstays
    let front := [(scheme ++ ":").toList, authority.toList]
    have hnames : ∀ p ∈ front, IsName p :=
      List.forall_mem_cons.mpr ⟨isName_scheme hscheme, by simpa using hauthority⟩
    have hdirectory : parts (directory base) = front ++ parts (directory rest) := by
      rw [(directory_spec base).1, (directory_spec rest).1, hsame, hparts,
        parts_of_isName hauthority, ← List.dropLast_append_of_ne_nil hrest]
      rfl
    have hwalk : walk (segments (directory base) ++ segments href) = front ++ walk way := by
      have hfilter : walk (segments (directory base) ++ segments href) = walk (front ++ way) := by
        apply walk_congr
        rw [List.filter_append, ← parts_eq, hdirectory, List.filter_append, List.filter_append,
          filter_names hnames, ← parts_eq, ← parts_eq, List.append_assoc]
      rw [hfilter, walk, List.foldl_append, foldl_visit_names hnames, List.nil_append,
        ← List.append_nil front, foldl_visit_append hstays, List.append_nil, ← walk]
    have hflatten : ofParts false front = scheme ++ ":/" ++ authority := by
      apply String.toList_inj.mp
      simp [toList_ofParts, front]
    have hway : ∀ p ∈ walk way, IsName p := fun _ => isName_of_reference
    rw [hresult, hwalk, ofParts_append (by simp [front]) hway, hflatten]

/-- A document beside another with a URL, two directories below the host. -/
theorem scheme_flattened_of_url :
    '/' ∉ "http".toList ∧ isSelfContained "../b" = false ∧ IsName "host".toList ∧
      parts "ui/forms/a" ≠ [] ∧
      staysInside [] (segments (directory "ui/forms/a") ++ segments "../b") = true ∧
      resolve "../b" (some "http://host/ui/forms/a") = "http:/host/ui/b" := by
  have hscheme : '/' ∉ "http".toList := by decide
  have hhref : isSelfContained "../b" = false := by decide +kernel
  have hhost : IsName "host".toList := ⟨by decide, by decide, by decide⟩
  have hrest : parts "ui/forms/a" ≠ [] := by decide +kernel
  have hstays : staysInside [] (segments (directory "ui/forms/a") ++ segments "../b") = true := by
    decide +kernel
  obtain ⟨-, -, -, -, hbelow⟩ :=
    scheme_flattened "host" "ui/forms/a" hscheme hhref
  exact ⟨hscheme, hhref, hhost, hrest, hstays,
    (hbelow hhost hrest hstays).trans (by decide +kernel)⟩

/-- Not every reference in a document with a scheme and an authority stays on them. -/
theorem scheme_lost :
    ¬∀ scheme authority rest href : String, scheme ≠ "" → authority ≠ "" → '/' ∉ scheme.toList →
      '/' ∉ authority.toList → isSelfContained href = false →
      (scheme ++ "://" ++ authority).toList <+:
        (resolve href (some (scheme ++ "://" ++ authority ++ "/" ++ rest))).toList := by
  intro hall
  have hprefix := hall "http" "h" "a" "b" (by decide) (by decide) (by decide) (by decide)
    (by decide +kernel)
  have hresult : resolve "b" (some ("http" ++ "://" ++ "h" ++ "/" ++ "a")) = "http:/h/b" := by
    decide +kernel
  rw [hresult] at hprefix
  exact absurd hprefix (by decide)

end ObjectMarkup
