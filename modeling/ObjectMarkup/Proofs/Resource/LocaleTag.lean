import ObjectMarkup.Proofs.Unicode.Ascii
import ObjectMarkup.Resource.JsonBundle

namespace ObjectMarkup

open Unicode (isAscii isWhiteSpace lowercase upcase upperOf)

namespace Locale

def isSeparator (c : Char) : Bool := c == '_' || c == '-'

/-- The text, with no white space around it, is a tag with the language and the country; without a
country, that is empty. -/
inductive Spells : List Char → List Char → List Char → Prop
  | language {language : List Char} (nonempty : language ≠ [])
      (letters : ∀ c ∈ language, c.isAlpha = true) : Spells language language []
  | country {language country : List Char} {separator : Char} (nonempty : language ≠ [])
      (letters : ∀ c ∈ language, c.isAlpha = true) (separates : isSeparator separator = true)
      (plain : ∀ c ∈ country, isSeparator c = false) :
      Spells (language ++ separator :: country) language country

/-- Two characters of tags that make no difference: separators, or letters up to the case of ASCII. -/
def Alike (c d : Char) : Prop :=
  (isSeparator c = true ∧ isSeparator d = true) ∨ c.toLower = d.toLower

instance : DecidableRel Alike := fun _ _ => inferInstanceAs (Decidable (_ ∨ _))

/-- The files that a tag selects for a bundle, in the order in which they are laid over one
another. -/
def files (baseName tag : String) : Except PropertyError (List String) :=
  (parse tag).map fun l => JsonBundle.layerPaths baseName (some l)

variable {c d : Char} {cs ds language country : List Char} {tag : String} {l : Locale}

theorem isSeparator_iff : isSeparator c = true ↔ c = '_' ∨ c = '-' := by
  simp [isSeparator]

theorem isSeparator_of_isAlpha (h : c.isAlpha = true) : isSeparator c = false := by
  rw [Bool.eq_false_iff, ne_eq, isSeparator_iff]
  rintro (rfl | rfl)
  · cases h
  · cases h

theorem written_of_plain (h : ∀ c ∈ cs, isSeparator c = false) :
    (cs.map fun c => if c = '-' then '_' else c) = cs ∧ '_' ∉ cs := by
  constructor
  · rw [List.map_congr_left fun c hc => if_neg (by rintro rfl; cases h _ hc), List.map_id']
  · intro hmem
    cases h _ hmem

theorem tagParts_of_plain (h : ∀ c ∈ cs, isSeparator c = false) : tagParts cs = [cs] := by
  rw [tagParts, (written_of_plain h).1, Text.pieces_of_not_mem (written_of_plain h).2]

theorem tagParts_append (hcs : ∀ c ∈ cs, isSeparator c = false) (hc : isSeparator c = true)
    (ds : List Char) : tagParts (cs ++ c :: ds) = cs :: tagParts ds := by
  have hsep : (if c = '-' then '_' else c) = '_' := by
    rcases isSeparator_iff.mp hc with rfl | rfl
    · rfl
    · rfl
  rw [tagParts, List.map_append, List.map_cons, hsep, (written_of_plain hcs).1,
    Text.pieces_append (written_of_plain hcs).2]
  rfl

/-- A text is its first part, or its first part with a separator and a text of the other parts. -/
theorem tagParts_cons {part : List Char} {parts : List (List Char)}
    (h : tagParts cs = part :: parts) :
    (∀ c ∈ part, isSeparator c = false) ∧
      ((cs = part ∧ parts = []) ∨
        ∃ separator rest, isSeparator separator = true ∧ cs = part ++ separator :: rest ∧
          tagParts rest = parts) := by
  induction cs generalizing part with
  | nil =>
    obtain ⟨rfl, rfl⟩ := List.cons.inj (show [[]] = part :: parts from h)
    exact ⟨fun _ hc => absurd hc List.not_mem_nil, .inl ⟨rfl, rfl⟩⟩
  | cons c cs ih =>
    obtain ⟨first, others, hparts⟩ := List.exists_cons_of_ne_nil (Text.pieces_ne_nil '_'
      (cs.map fun c => if c = '-' then '_' else c))
    cases hc : isSeparator c with
    | true =>
      have hnil : ∀ d ∈ ([] : List Char), isSeparator d = false :=
        fun _ hd => absurd hd List.not_mem_nil
      rw [← List.nil_append (c :: cs), tagParts_append hnil hc] at h
      obtain ⟨rfl, rfl⟩ := List.cons.inj h
      exact ⟨hnil, .inr ⟨c, cs, hc, rfl, rfl⟩⟩
    | false =>
      obtain ⟨hhyphen, hunderscore⟩ : c ≠ '-' ∧ c ≠ '_' := by
        constructor
        · rintro rfl
          cases hc
        · rintro rfl
          cases hc
      have htail : tagParts cs = first :: others := hparts
      rw [tagParts, List.map_cons, if_neg hhyphen, Text.pieces, if_neg hunderscore, hparts] at h
      obtain ⟨rfl, rfl⟩ := List.cons.inj h
      obtain ⟨hplain, hrest⟩ := ih htail
      refine ⟨fun d hd => ?_, ?_⟩
      · rcases List.mem_cons.mp hd with rfl | hd
        · exact hc
        · exact hplain d hd
      · rcases hrest with ⟨rfl, hnil⟩ | ⟨separator, rest, hsep, rfl, hothers⟩
        · exact .inl ⟨rfl, hnil⟩
        · exact .inr ⟨separator, rest, hsep, rfl, hothers⟩

theorem tagParts_ne_nil (cs : List Char) : tagParts cs ≠ [] := Text.pieces_ne_nil _ _

theorem eq_of_tagParts_singleton {part : List Char} (h : tagParts cs = [part]) :
    cs = part ∧ ∀ c ∈ part, isSeparator c = false := by
  obtain ⟨hplain, ⟨rfl, -⟩ | ⟨separator, rest, -, -, hrest⟩⟩ := tagParts_cons h
  · exact ⟨rfl, hplain⟩
  · exact absurd hrest (tagParts_ne_nil rest)

/-- What is read from a tag is what it spells, and nothing else is a tag. -/
theorem parse_eq_ok :
    parse tag = .ok l ↔ ∃ language country, Spells (Text.trim tag.toList) language country ∧
      l = make (.ofList language) (if country.isEmpty then none else some (.ofList country)) := by
  unfold parse
  constructor
  · intro h
    split at h
    · rename_i language rest hparts
      split at h
      · cases h
      · rename_i hlanguage
        simp only [Bool.or_eq_true, Bool.not_eq_eq_eq_not, not_or, List.isEmpty_iff,
          Bool.not_true, Bool.not_eq_false, List.all_eq_true] at hlanguage
        obtain ⟨hnonempty, hletters⟩ := hlanguage
        split at h
        · obtain ⟨htrim, -⟩ := eq_of_tagParts_singleton hparts
          rw [htrim]
          exact ⟨language, [], .language hnonempty hletters, (Except.ok.inj h).symm⟩
        · rename_i country
          obtain ⟨-, ⟨-, hnil⟩ | ⟨separator, tail, hsep, htrim, htail⟩⟩ := tagParts_cons hparts
          · cases hnil
          · obtain ⟨rfl, hplain⟩ := eq_of_tagParts_singleton htail
            rw [htrim]
            exact ⟨language, tail, .country hnonempty hletters hsep hplain,
              (Except.ok.inj h).symm⟩
        · cases h
    · cases h
  · rintro ⟨language, country, hspells, rfl⟩
    generalize Text.trim tag.toList = cs at hspells
    cases hspells with
    | language nonempty letters =>
      rw [tagParts_of_plain fun c hc => isSeparator_of_isAlpha (letters c hc)]
      simp [nonempty, List.all_eq_true.mpr letters]
    | country nonempty letters separates plain =>
      rw [tagParts_append (fun c hc => isSeparator_of_isAlpha (letters c hc)) separates,
        tagParts_of_plain plain]
      simp [nonempty, List.all_eq_true.mpr letters]

theorem Alike.symm (h : Alike c d) : Alike d c := h.imp And.symm Eq.symm

/-- A character up to what makes no difference in a tag. -/
def fold (c : Char) : Char := if c = '-' then '_' else c.toLower

theorem fold_of_isSeparator (h : isSeparator c = true) : fold c = '_' := by
  rcases isSeparator_iff.mp h with rfl | rfl
  · rfl
  · rfl

/-- The case of letters makes no character a separator, and none of a separator. -/
theorem isSeparator_toLower (c : Char) : isSeparator c.toLower = isSeparator c := by
  rcases Unicode.toLower_cases c with hsame | ⟨hletter, hlower⟩
  · rw [hsame]
  · rw [isSeparator_of_isAlpha hletter, isSeparator_of_isAlpha hlower]

theorem fold_of_plain (h : isSeparator c = false) : fold c = c.toLower := by
  refine if_neg ?_
  rintro rfl
  cases h

theorem fold_eq_of_alike (h : Alike c d) : fold c = fold d := by
  rcases h with ⟨hc, hd⟩ | h
  · rw [fold_of_isSeparator hc, fold_of_isSeparator hd]
  · have hclass : isSeparator c = isSeparator d := by
      rw [← isSeparator_toLower c, h, isSeparator_toLower d]
    cases hc : isSeparator c with
    | true => rw [fold_of_isSeparator hc, fold_of_isSeparator (hclass ▸ hc)]
    | false => rw [fold_of_plain hc, fold_of_plain (hclass ▸ hc), h]

theorem map_fold_of_alike (h : List.Forall₂ Alike cs ds) : cs.map fold = ds.map fold := by
  induction h with
  | nil => rfl
  | cons hcd _ ih => rw [List.map_cons, List.map_cons, fold_eq_of_alike hcd, ih]

/-- What makes no difference leaves white space, letters and separators what they are. -/
theorem fold_class (c : Char) :
    isWhiteSpace (fold c) = isWhiteSpace c ∧ (fold c).isAlpha = c.isAlpha ∧
      isSeparator (fold c) = isSeparator c := by
  cases hc : isSeparator c with
  | true =>
    rcases isSeparator_iff.mp hc with rfl | rfl
    · exact ⟨rfl, rfl, rfl⟩
    · exact ⟨rfl, rfl, rfl⟩
  | false =>
    rw [fold_of_plain hc]
    refine ⟨?_, c.isAlpha_toLower_eq_isAlpha, (isSeparator_toLower c).trans hc⟩
    rcases Unicode.toLower_cases c with hsame | ⟨hletter, hlower⟩
    · rw [hsame]
    · rw [Unicode.isWhiteSpace_of_isAlpha hletter, Unicode.isWhiteSpace_of_isAlpha hlower]

/-- What holds of the characters of one text up to what makes no difference holds of those of the
other. -/
theorem forall_of_map_fold {p : Char → Bool} {b : Bool} (hp : ∀ c, p (fold c) = p c)
    (hf : cs.map fold = ds.map fold) (h : ∀ c ∈ cs, p c = b) : ∀ d ∈ ds, p d = b := by
  intro d hd
  obtain ⟨c, hc, hcd⟩ := List.mem_map.mp (hf ▸ List.mem_map_of_mem hd)
  rw [← hp d, ← hcd, hp c, h c hc]

theorem Spells.fold (h : Spells cs language country) (hf : cs.map fold = ds.map fold) :
    ∃ language' country', Spells ds language' country' ∧
      language.map Locale.fold = language'.map Locale.fold ∧
      country.map Locale.fold = country'.map Locale.fold := by
  cases h with
  | language nonempty letters =>
    refine ⟨ds, [], .language ?_ ?_, hf, rfl⟩
    · rintro rfl
      exact nonempty (List.map_eq_nil_iff.mp hf)
    · exact forall_of_map_fold (fun c => (fold_class c).2.1) hf letters
  | @country _ _ separator nonempty letters separates plain =>
    rw [List.map_append, List.map_cons] at hf
    obtain ⟨language', rest, rfl, hlanguage, hrest⟩ := List.map_eq_append_iff.mp hf.symm
    obtain ⟨separator', country', rfl, hseparator, hcountry⟩ := List.map_eq_cons_iff.mp hrest
    refine ⟨language', country', .country ?_ ?_ ?_ ?_, hlanguage.symm, hcountry.symm⟩
    · rintro rfl
      exact nonempty (List.map_eq_nil_iff.mp hlanguage.symm)
    · exact forall_of_map_fold (fun c => (fold_class c).2.1) hlanguage.symm letters
    · rw [← (fold_class separator').2.2, hseparator, (fold_class separator).2.2, separates]
    · exact forall_of_map_fold (fun c => (fold_class c).2.2) hcountry.symm plain

theorem map_fold_of_plain (h : ∀ c ∈ cs, isSeparator c = false) :
    cs.map fold = cs.map Char.toLower :=
  List.map_congr_left fun c hc => fold_of_plain (h c hc)

theorem lowercase_of_letters (h : ∀ c ∈ cs, c.isAlpha = true) :
    lowercase (.ofList cs) = .ofList (cs.map Char.toLower) := by
  rw [lowercase, String.toList_ofList, Unicode.lowerFrom_ascii _ fun c hc => Unicode.isAscii_of_isAlpha (h c hc)]

theorem upcase_ofList (cs : List Char) : upcase (.ofList cs) = .ofList (cs.flatMap upperOf) := by
  rw [upcase, String.toList_ofList]

theorem flatMap_upperOf_toLower (cs : List Char) :
    (cs.map Char.toLower).flatMap upperOf = cs.flatMap upperOf := by
  rw [List.flatMap_map]
  exact congrArg (cs.flatMap ·) (funext Unicode.upperOf_toLower)

theorem Spells.letters (h : Spells cs language country) : ∀ c ∈ language, c.isAlpha = true := by
  cases h <;> assumption

theorem Spells.nonempty (h : Spells cs language country) : language ≠ [] := by
  cases h <;> assumption

theorem Spells.plain (h : Spells cs language country) : ∀ c ∈ country, isSeparator c = false := by
  cases h with
  | language => exact fun _ hc => absurd hc List.not_mem_nil
  | country nonempty letters separates plain => exact plain

variable {a b : String}

/-- Tags that make no difference stand for one locale. -/
theorem parse_of_alike (h : List.Forall₂ Alike a.toList b.toList) (hp : parse a = .ok l) :
    parse b = .ok l := by
  obtain ⟨language, country, hspells, rfl⟩ := parse_eq_ok.mp hp
  have hf : (Text.trim a.toList).map fold = (Text.trim b.toList).map fold := by
    rw [← Text.trim_map fun c => (fold_class c).1, ← Text.trim_map fun c => (fold_class c).1,
      map_fold_of_alike h]
  obtain ⟨language', country', hspells', hlanguage, hcountry⟩ := hspells.fold hf
  refine parse_eq_ok.mpr ⟨language', country', hspells', ?_⟩
  have hempty : country.isEmpty = country'.isEmpty := by
    rw [← List.isEmpty_map (f := fold), hcountry, List.isEmpty_map]
  rw [map_fold_of_plain fun c hc => isSeparator_of_isAlpha (hspells.letters c hc),
    map_fold_of_plain fun c hc => isSeparator_of_isAlpha (hspells'.letters c hc)] at hlanguage
  rw [map_fold_of_plain hspells.plain, map_fold_of_plain hspells'.plain] at hcountry
  have hupper : country.flatMap upperOf = country'.flatMap upperOf := by
    rw [← flatMap_upperOf_toLower country, hcountry, flatMap_upperOf_toLower]
  rw [make, make, lowercase_of_letters hspells.letters, lowercase_of_letters hspells'.letters,
    hlanguage, hempty]
  cases country'.isEmpty with
  | true => rfl
  | false => simp only [Bool.false_eq_true, if_false, Option.map_some, upcase_ofList, hupper]

theorem forall_mem_map_toLower (h : ∀ c ∈ cs, c.isAlpha = true) :
    ∀ c ∈ cs.map Char.toLower, c.isAlpha = true := by
  intro d hd
  obtain ⟨c, hc, rfl⟩ := List.mem_map.mp hd
  exact c.isAlpha_toLower_eq_isAlpha.trans (h c hc)

theorem lowercase_lowercase (h : ∀ c ∈ cs, c.isAlpha = true) :
    lowercase (.ofList (cs.map Char.toLower)) = .ofList (cs.map Char.toLower) := by
  rw [lowercase_of_letters (forall_mem_map_toLower h), List.map_map]
  exact congrArg String.ofList (List.map_congr_left fun c _ => c.toLower_toLower_eq_toLower)

theorem flatMap_upperOf_again (h : ∀ d ∈ cs.flatMap upperOf, isAscii d = true) :
    (cs.flatMap upperOf).flatMap upperOf = cs.flatMap upperOf := by
  have hsingle : ∀ ds : List Char, (∀ d ∈ ds, upperOf d = [d]) → ds.flatMap upperOf = ds := by
    intro ds hds
    induction ds with
    | nil => rfl
    | cons d ds ih =>
      rw [List.flatMap_cons, hds d List.mem_cons_self,
        ih fun e he => hds e (List.mem_cons_of_mem _ he)]
      rfl
  refine hsingle _ fun d hd => ?_
  obtain ⟨c, -, hdc⟩ := List.mem_flatMap.mp hd
  exact Unicode.upperOf_of_mem_upperOf hdc (h d hd)

/-- An ASCII upper case has no separator that was not there before, and no such white space. -/
theorem upper_class (h : d ∈ upperOf c) (hd : isAscii d = true) :
    (isSeparator c = false → isSeparator d = false) ∧
      (isWhiteSpace c = false → isWhiteSpace d = false) := by
  rcases Unicode.mem_upperOf_ascii h hd with hupper | rfl
  · have hletter : d.isAlpha = true := Bool.or_eq_true_iff.mpr (.inl hupper)
    exact ⟨fun _ => isSeparator_of_isAlpha hletter, fun _ => Unicode.isWhiteSpace_of_isAlpha hletter⟩
  · exact ⟨id, id⟩

theorem getLast?_flatMap_upperOf (h : ∀ d ∈ cs.flatMap upperOf, isAscii d = true)
    (hlast : ∀ c ∈ cs.getLast?, isWhiteSpace c = false) :
    ∀ d ∈ (cs.flatMap upperOf).getLast?, isWhiteSpace d = false := by
  intro d hd
  have hmem : d ∈ cs.flatMap upperOf := List.mem_of_getLast? hd
  rcases List.eq_nil_or_concat cs with rfl | ⟨front, c, hcs⟩
  · cases hmem
  · rw [List.concat_eq_append] at hcs
    subst hcs
    rw [List.flatMap_append, List.flatMap_singleton] at hd
    have hlast' : (upperOf c).getLast? = some d := by
      rwa [List.getLast?_append_of_ne_nil _ (Unicode.upperOf_ne_nil c)] at hd
    exact (upper_class (List.mem_of_getLast? hlast') (h d hmem)).2 (hlast c (by simp))

theorem Spells.exists_separator (h : Spells cs language country) (hne : country ≠ []) :
    ∃ separator, cs = language ++ separator :: country := by
  cases h with
  | language => exact absurd rfl hne
  | country nonempty letters separates plain => exact ⟨_, rfl⟩

/-- A text that spells a tag and has no white space around it is read as what it spells. -/
theorem parse_spelled (h : Spells cs language country)
    (hlast : ∀ c ∈ cs.getLast?, isWhiteSpace c = false) :
    parse (.ofList cs) = .ok (make (.ofList language)
      (if country.isEmpty then none else some (.ofList country))) := by
  have hhead : ∀ c ∈ cs.head?, isWhiteSpace c = false := by
    intro c hc
    have hfirst : language.head? = some c := by
      cases h with
      | language => exact hc
      | country nonempty letters separates plain =>
        rwa [List.head?_append_of_ne_nil _ nonempty] at hc
    exact Unicode.isWhiteSpace_of_isAlpha (h.letters c (List.mem_of_head? hfirst))
  refine parse_eq_ok.mpr ⟨language, country, ?_, rfl⟩
  rwa [String.toList_ofList, Text.trim_eq_self hhead hlast]

/-- An ASCII country in upper case is a country still, and does not end with white space. -/
theorem Spells.upper (h : Spells (Text.trim cs) language country) (hcountry : country ≠ [])
    (hall : ∀ d ∈ country.flatMap upperOf, isAscii d = true) :
    country.flatMap upperOf ≠ [] ∧ (∀ d ∈ country.flatMap upperOf, isSeparator d = false) ∧
      ∀ d ∈ (country.flatMap upperOf).getLast?, isWhiteSpace d = false := by
  refine ⟨?_, fun d hd => ?_, getLast?_flatMap_upperOf hall fun c hc => ?_⟩
  · obtain ⟨c, rest, rfl⟩ := List.exists_cons_of_ne_nil hcountry
    rw [List.flatMap_cons]
    exact List.append_ne_nil_of_left_ne_nil (Unicode.upperOf_ne_nil c) _
  · obtain ⟨c, hc, hdc⟩ := List.mem_flatMap.mp hd
    exact (upper_class hdc (hall d hd)).1 (h.plain c hc)
  · obtain ⟨separator, htrim⟩ := h.exists_separator hcountry
    have hend : (Text.trim cs).getLast? = some c := by
      rw [htrim, List.getLast?_append_of_ne_nil _ (List.cons_ne_nil _ _),
        List.getLast?_cons_of_ne_nil hcountry]
      exact hc
    exact Text.not_isWhiteSpace_of_getLast?_trim hend

/-- A locale that a tag stands for is displayed as a tag for itself, if its country is ASCII. -/
theorem parse_display (hp : parse tag = .ok l)
    (hascii : ∀ country ∈ l.country, ∀ c ∈ country.toList, isAscii c = true) :
    parse l.display = .ok l := by
  obtain ⟨language, country, hspells, rfl⟩ := parse_eq_ok.mp hp
  have hletters := forall_mem_map_toLower hspells.letters
  have hnonempty : language.map Char.toLower ≠ [] :=
    fun hnil => hspells.nonempty (List.map_eq_nil_iff.mp hnil)
  by_cases hcountry : country = []
  · subst hcountry
    have hlower : (make (.ofList language) none).language = .ofList (language.map Char.toLower) :=
      lowercase_of_letters hspells.letters
    have hread := parse_spelled (.language hnonempty hletters) fun c hc =>
      Unicode.isWhiteSpace_of_isAlpha (hletters c (List.mem_of_getLast? hc))
    change parse (make (.ofList language) none).language = .ok (make (.ofList language) none)
    rw [hlower, hread, make, make, lowercase_lowercase hspells.letters,
      lowercase_of_letters hspells.letters]
    rfl
  · rw [List.isEmpty_eq_false_iff.mpr hcountry, if_neg Bool.false_ne_true] at hascii ⊢
    have hmade : make (.ofList language) (some (.ofList country)) =
        ⟨.ofList (language.map Char.toLower), some (.ofList (country.flatMap upperOf))⟩ := by
      rw [make, lowercase_of_letters hspells.letters, Option.map_some, upcase_ofList]
    rw [hmade] at hascii ⊢
    have hall : ∀ d ∈ country.flatMap upperOf, isAscii d = true := by
      simpa using hascii
    obtain ⟨hne, hplain, hlast⟩ := hspells.upper hcountry hall
    have hshown : (⟨.ofList (language.map Char.toLower),
        some (.ofList (country.flatMap upperOf))⟩ : Locale).display =
        .ofList (language.map Char.toLower ++ '_' :: country.flatMap upperOf) := by
      apply String.toList_injective
      simp [display]
    have hagain : Spells (language.map Char.toLower ++ '_' :: country.flatMap upperOf)
        (language.map Char.toLower) (country.flatMap upperOf) :=
      .country hnonempty hletters rfl hplain
    have hread := parse_spelled hagain fun d hd => by
      rw [List.getLast?_append_of_ne_nil _ (List.cons_ne_nil _ _),
        List.getLast?_cons_of_ne_nil hne] at hd
      exact hlast d hd
    rw [hshown, hread, make, lowercase_lowercase hspells.letters,
      List.isEmpty_eq_false_iff.mpr hne, if_neg Bool.false_ne_true, Option.map_some,
      upcase_ofList, flatMap_upperOf_again hall]

theorem suffixes_eq (l : Locale) :
    l.suffixes = ("_" ++ l.language) :: if l.country.isSome then ["_" ++ l.display] else [] := by
  obtain ⟨language, country⟩ := l
  cases country with
  | none => rfl
  | some country => simp [suffixes, display, String.append_assoc]

theorem files_eq_ok {baseName : String} {paths : List String} : files baseName tag = .ok paths ↔
    ∃ l, parse tag = .ok l ∧ JsonBundle.layerPaths baseName (some l) = paths := by
  rw [files]
  cases parse tag with
  | error e => simp [Except.map]
  | ok l => simp [Except.map]

theorem layerPaths_eq (baseName : String) (l : Locale) :
    JsonBundle.layerPaths baseName (some l) =
      [JsonBundle.stem baseName ++ ".json",
        JsonBundle.stem baseName ++ "_" ++ l.language ++ ".json"] ++
      if l.country.isSome then [JsonBundle.stem baseName ++ "_" ++ l.display ++ ".json"] else [] := by
  rw [JsonBundle.layerPaths, Option.map_some, Option.getD_some, suffixes_eq]
  cases l.country.isSome <;> simp [String.append_assoc]

/-- Only the files at the paths bear on what is laid over one another. -/
theorem layers_of_agree {provider other : Provider} {paths : List String}
    (h : ∀ path ∈ paths, provider.load path = other.load path)
    (base : Option (OrderedMap String Json)) :
    JsonBundle.layers provider base paths = JsonBundle.layers other base paths := by
  induction paths generalizing base with
  | nil => rfl
  | cons path rest ih =>
    have hlayer : JsonBundle.layer? provider path = JsonBundle.layer? other path := by
      rw [JsonBundle.layer?, JsonBundle.layer?, h path List.mem_cons_self]
    rw [JsonBundle.layers, JsonBundle.layers, hlayer]
    cases JsonBundle.layer? other path with
    | error e => rfl
    | ok layer => exact ih (fun p hp => h p (List.mem_cons_of_mem _ hp)) _

/-- A tag is, less white space around it, a word of ASCII letters and perhaps a separator with a
country that has none. Tags that differ in what makes no difference stand for one locale, or both for
none, and select the same files. A locale that comes from a tag is displayed as a tag for itself when
its country is ASCII. Its files are those for no locale, for the language and, if it has a country,
for the locale as displayed, in this order, and a bundle depends on no others. -/
theorem tags_name_locales :
    (∀ tag, (∃ l, parse tag = .ok l) ↔
      ∃ language country, Spells (Text.trim tag.toList) language country) ∧
    (∀ a b : String, List.Forall₂ Alike a.toList b.toList →
      (∀ l, parse a = .ok l ↔ parse b = .ok l) ∧
      ∀ baseName paths, files baseName a = .ok paths ↔ files baseName b = .ok paths) ∧
    ∀ tag l, parse tag = .ok l →
      ((∀ country ∈ l.country, ∀ c ∈ country.toList, isAscii c = true) → parse l.display = .ok l) ∧
      (l.suffixes = ("_" ++ l.language) :: if l.country.isSome then ["_" ++ l.display] else []) ∧
      ∀ baseName, ∃ paths, files baseName tag = .ok paths ∧
        (paths = [JsonBundle.stem baseName ++ ".json",
            JsonBundle.stem baseName ++ "_" ++ l.language ++ ".json"] ++
          if l.country.isSome then [JsonBundle.stem baseName ++ "_" ++ l.display ++ ".json"]
          else []) ∧
        ∀ provider other : Provider, (∀ path ∈ paths, provider.load path = other.load path) →
          JsonBundle.loader provider baseName (some l) =
            JsonBundle.loader other baseName (some l) := by
  refine ⟨fun tag => ⟨?_, ?_⟩, fun a b h => ?_, fun tag l hp => ⟨parse_display hp, suffixes_eq l,
    fun baseName => ⟨_, files_eq_ok.mpr ⟨l, hp, rfl⟩, layerPaths_eq baseName l, ?_⟩⟩⟩
  · rintro ⟨l, hp⟩
    obtain ⟨language, country, hspells, -⟩ := parse_eq_ok.mp hp
    exact ⟨language, country, hspells⟩
  · rintro ⟨language, country, hspells⟩
    exact ⟨_, parse_eq_ok.mpr ⟨language, country, hspells, rfl⟩⟩
  · have hparse : ∀ l, parse a = .ok l ↔ parse b = .ok l :=
      fun l => ⟨parse_of_alike h, parse_of_alike (h.flip.imp fun _ _ => Alike.symm)⟩
    refine ⟨hparse, fun baseName paths => ?_⟩
    rw [files_eq_ok, files_eq_ok]
    exact exists_congr fun l => and_congr_left' (hparse l)
  · intro provider other hagree
    rw [JsonBundle.loader, JsonBundle.loader, layers_of_agree hagree]

/-- A language in capital letters and a small country, after a hyphen and with white space around
them, are the tag that the locale is displayed as. -/
theorem tags_name_locales_of_spaced :
    Spells (Text.trim " EN-us\n".toList) "EN".toList "us".toList ∧
      parse " EN-us\n" = .ok ⟨"en", some "US"⟩ ∧ parse " en_US\n" = .ok ⟨"en", some "US"⟩ ∧
      parse "en_US" = .ok ⟨"en", some "US"⟩ ∧
      files "demo.Strings" " EN-us\n" =
        .ok ["demo/Strings.json", "demo/Strings_en.json", "demo/Strings_en_US.json"] := by
  obtain ⟨hspelled, halike, hlocale⟩ := tags_name_locales
  have htag : parse " EN-us\n" = .ok ⟨"en", some "US"⟩ := by decide +kernel
  have hspells : Spells (Text.trim " EN-us\n".toList) "EN".toList "us".toList := by
    have htrim : Text.trim " EN-us\n".toList = "EN".toList ++ '-' :: "us".toList := by decide +kernel
    rw [htrim]
    exact .country (List.cons_ne_nil _ _) (by simp) rfl (by simp [isSeparator])
  have hsame : List.Forall₂ Alike " EN-us\n".toList " en_US\n".toList := by
    decide +kernel
  obtain ⟨hdisplay, -, hfiles⟩ := hlocale _ _ htag
  have hshown : parse "en_US" = .ok ⟨"en", some "US"⟩ := hdisplay (by simp [isAscii])
  obtain ⟨paths, hpaths, rfl, -⟩ := hfiles "demo.Strings"
  exact ⟨hspells, htag, ((halike _ _ hsame).1 _).mp htag, hshown, hpaths⟩

end Locale

end ObjectMarkup
