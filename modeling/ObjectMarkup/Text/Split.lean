import ObjectMarkup.Unicode.WhiteSpace

namespace ObjectMarkup.Text

open Unicode

/-- The pieces between the separators. There is one more of them than of separators. -/
def pieces (sep : Char) : List Char → List (List Char)
  | [] => [[]]
  | c :: rest =>
    if c = sep then
      [] :: pieces sep rest
    else
      match pieces sep rest with
      | [] => [[c]]
      | p :: ps => (c :: p) :: ps

/-- What stands before and after the first separator. -/
def cutFirst (sep : Char) : List Char → Option (List Char × List Char)
  | [] => none
  | c :: rest =>
    if c = sep then some ([], rest) else (cutFirst sep rest).map fun (a, b) => (c :: a, b)

/-- What stands before and after the last separator. -/
def cutLast (sep : Char) : List Char → Option (List Char × List Char)
  | [] => none
  | c :: rest =>
    match cutLast sep rest with
    | some (a, b) => some (c :: a, b)
    | none => if c = sep then some ([], rest) else none

def trimEnd (cs : List Char) : List Char := (cs.reverse.dropWhile isWhiteSpace).reverse

def trim (cs : List Char) : List Char := trimEnd (cs.dropWhile isWhiteSpace)

def isBlank (cs : List Char) : Bool := cs.all isWhiteSpace

/-- The runs of other characters between runs of white space. -/
def words : List Char → List (List Char)
  | [] => []
  | c :: rest =>
    if isWhiteSpace c then
      words rest
    else
      match rest, words rest with
      | d :: _, w :: ws => if isWhiteSpace d then [c] :: w :: ws else (c :: w) :: ws
      | _, ws => [c] :: ws

def occursIn (part : List Char) : List Char → Bool
  | [] => part.isEmpty
  | c :: rest => part.isPrefixOf (c :: rest) || occursIn part rest

/-- Equality up to the case of the letters of ASCII. -/
def sameLetters (a b : String) : Bool :=
  a.toList.map Char.toLower == b.toList.map Char.toLower

def segments (sep : Char) (s : String) : List String := (pieces sep s.toList).map String.ofList

def join (sep : String) (parts : List String) : String :=
  String.ofList (List.intercalate sep.toList (parts.map String.toList))

def replace (old new : Char) (s : String) : String :=
  String.ofList (s.toList.map fun c => if c = old then new else c)

def trimmed (s : String) : String := String.ofList (trim s.toList)

theorem pieces_ne_nil (sep : Char) (cs : List Char) : pieces sep cs ≠ [] := by
  cases cs with
  | nil => simp [pieces]
  | cons c rest =>
    simp only [pieces]
    split
    · simp
    · split <;> simp

/-- Joining the pieces gives the text back. -/
theorem intercalate_pieces (sep : Char) (cs : List Char) :
    List.intercalate [sep] (pieces sep cs) = cs := by
  induction cs with
  | nil => simp [pieces, List.intercalate]
  | cons c rest ih =>
    obtain ⟨p, ps, h⟩ := List.exists_cons_of_ne_nil (pieces_ne_nil sep rest)
    rw [h] at ih
    by_cases hc : c = sep
    · subst hc
      simp only [pieces, h, if_true]
      rw [← ih]
      simp [List.intercalate]
    · simp only [pieces, h, if_neg hc]
      rw [← ih]
      cases ps <;> simp [List.intercalate]

theorem not_mem_of_mem_pieces {sep : Char} {cs p : List Char} (h : p ∈ pieces sep cs) :
    sep ∉ p := by
  induction cs generalizing p with
  | nil => simp_all [pieces]
  | cons c rest ih =>
    obtain ⟨q, qs, hq⟩ := List.exists_cons_of_ne_nil (pieces_ne_nil sep rest)
    simp only [pieces, hq] at h
    split at h
    · rcases List.mem_cons.1 h with rfl | h
      · simp
      · exact ih (hq ▸ h)
    · rename_i hc
      rcases List.mem_cons.1 h with rfl | h
      · simp only [List.mem_cons, not_or]
        exact ⟨Ne.symm hc, ih (by simp [hq])⟩
      · exact ih (by simp [hq, h])

theorem pieces_of_not_mem {sep : Char} {cs : List Char} (h : sep ∉ cs) :
    pieces sep cs = [cs] := by
  induction cs with
  | nil => rfl
  | cons c rest ih =>
    simp only [List.mem_cons, not_or] at h
    simp [pieces, ih h.2, Ne.symm h.1]

/-- A text after a name without the separator is cut where the name ends. -/
theorem pieces_append {sep : Char} {cs : List Char} (h : sep ∉ cs) (rest : List Char) :
    pieces sep (cs ++ sep :: rest) = cs :: pieces sep rest := by
  induction cs with
  | nil => simp [pieces]
  | cons c cs ih =>
    simp only [List.mem_cons, not_or] at h
    simp [pieces, ih h.2, Ne.symm h.1]

/-- The first separator is the one that none stands before. -/
theorem cutFirst_eq_some {sep : Char} {cs x rest : List Char}
    (h : cutFirst sep cs = some (x, rest)) : cs = x ++ sep :: rest ∧ sep ∉ x := by
  induction cs generalizing x with
  | nil => cases h
  | cons c cs ih =>
    rw [cutFirst] at h
    split at h
    · rename_i hc
      cases h
      exact ⟨by rw [hc]; rfl, by simp⟩
    · rename_i hc
      cases hcut : cutFirst sep cs with
      | none => simp [hcut] at h
      | some p =>
        obtain ⟨y, rest'⟩ := p
        simp only [hcut, Option.map_some, Option.some.injEq, Prod.mk.injEq] at h
        obtain ⟨rfl, rfl⟩ := h
        obtain ⟨rfl, hy⟩ := ih hcut
        refine ⟨rfl, ?_⟩
        rw [List.mem_cons, not_or]
        exact ⟨Ne.symm hc, hy⟩

theorem cutFirst_append {sep : Char} {x : List Char} (hx : sep ∉ x) (rest : List Char) :
    cutFirst sep (x ++ sep :: rest) = some (x, rest) := by
  induction x with
  | nil => simp [cutFirst]
  | cons c x ih =>
    simp only [List.mem_cons, not_or] at hx
    simp [cutFirst, Ne.symm hx.1, ih hx.2]

theorem cutFirst_eq_none {sep : Char} {cs : List Char} :
    cutFirst sep cs = none ↔ sep ∉ cs := by
  constructor
  · intro hcut hmem
    obtain ⟨x, rest, rfl, hx⟩ := List.eq_append_cons_of_mem hmem
    rw [cutFirst_append hx] at hcut
    cases hcut
  · intro hmem
    cases hcut : cutFirst sep cs with
    | none => rfl
    | some p => exact absurd (by simp [(cutFirst_eq_some hcut).1]) hmem

theorem cutLast_eq_none {sep : Char} {cs : List Char} : cutLast sep cs = none ↔ sep ∉ cs := by
  induction cs with
  | nil => simp [cutLast]
  | cons c rest ih =>
    rw [cutLast, List.mem_cons, not_or, ← ih]
    cases cutLast sep rest with
    | none => by_cases hc : c = sep <;> simp [hc, Ne.symm]
    | some p => simp

theorem cutLast_append {sep : Char} {rest : List Char} (hrest : sep ∉ rest) (x : List Char) :
    cutLast sep (x ++ sep :: rest) = some (x, rest) := by
  induction x with
  | nil => simp [cutLast, cutLast_eq_none.mpr hrest]
  | cons c x ih => simp [cutLast, ih]

/-- The last separator is the one that none stands behind. -/
theorem cutLast_eq_some {sep : Char} {cs x rest : List Char}
    (h : cutLast sep cs = some (x, rest)) : cs = x ++ sep :: rest ∧ sep ∉ rest := by
  induction cs generalizing x with
  | nil => cases h
  | cons c cs ih =>
    rw [cutLast] at h
    split at h
    · rename_i front back hcut
      cases h
      obtain ⟨rfl, hback⟩ := ih hcut
      exact ⟨rfl, hback⟩
    · rename_i hcut
      split at h
      · rename_i hc
        cases h
        exact ⟨by rw [hc, List.nil_append], cutLast_eq_none.mp hcut⟩
      · cases h

/-- What trimming takes off is white space. -/
theorem exists_trim (cs : List Char) :
    ∃ lead trail, cs = lead ++ (trim cs ++ trail) ∧ isBlank lead = true ∧ isBlank trail = true := by
  refine ⟨cs.takeWhile isWhiteSpace,
    ((cs.dropWhile isWhiteSpace).reverse.takeWhile isWhiteSpace).reverse, ?_, ?_, ?_⟩
  · rw [trim, trimEnd, ← List.reverse_append, List.takeWhile_append_dropWhile,
      List.reverse_reverse, List.takeWhile_append_dropWhile]
  · simp [isBlank]
  · simp [isBlank]

theorem dropWhile_blank {lead : List Char} (h : isBlank lead = true) (cs : List Char) :
    (lead ++ cs).dropWhile isWhiteSpace = cs.dropWhile isWhiteSpace :=
  List.dropWhile_append_of_pos (by simpa [isBlank] using h)

/-- White space around a text that holds none is taken off, and nothing else. -/
theorem trim_append {lead trail cs : List Char} (hlead : isBlank lead = true)
    (htrail : isBlank trail = true) (h : ∀ c ∈ cs, isWhiteSpace c = false) :
    trim (lead ++ (cs ++ trail)) = cs := by
  rw [trim, dropWhile_blank hlead]
  cases cs with
  | nil =>
    have hnone := dropWhile_blank htrail []
    rw [List.append_nil] at hnone
    rw [List.nil_append, hnone]
    rfl
  | cons c rest =>
    have hreverse : isBlank trail.reverse = true := by simpa [isBlank] using htrail
    have hlast : (c :: rest).reverse.dropWhile isWhiteSpace = (c :: rest).reverse := by
      rcases hcs : (c :: rest).reverse with - | ⟨d, front⟩
      · rfl
      · have hd : d ∈ (c :: rest).reverse := by simp [hcs]
        rw [List.dropWhile_cons_of_neg (by simp [h d (List.mem_reverse.mp hd)])]
    rw [List.cons_append, List.dropWhile_cons_of_neg (by simp [h c]), ← List.cons_append, trimEnd,
      List.reverse_append, dropWhile_blank hreverse, hlast, List.reverse_reverse]

theorem trim_map {f : Char → Char} (hf : ∀ c, isWhiteSpace (f c) = isWhiteSpace c)
    (cs : List Char) : trim (cs.map f) = (trim cs).map f := by
  have hcomp : isWhiteSpace ∘ f = isWhiteSpace := funext hf
  simp only [trim, trimEnd, List.dropWhile_map, ← List.map_reverse, hcomp]

theorem trim_eq_self {cs : List Char} (hhead : ∀ c ∈ cs.head?, isWhiteSpace c = false)
    (hlast : ∀ c ∈ cs.getLast?, isWhiteSpace c = false) : trim cs = cs := by
  have hdrop : ∀ ds : List Char, (∀ c ∈ ds.head?, isWhiteSpace c = false) →
      ds.dropWhile isWhiteSpace = ds := by
    intro ds hds
    cases ds with
    | nil => rfl
    | cons d ds => exact List.dropWhile_cons_of_neg (by simp [hds d rfl])
  rw [trim, trimEnd, hdrop cs hhead, hdrop cs.reverse (by simpa using hlast), List.reverse_reverse]

theorem not_isWhiteSpace_of_getLast?_trim {cs : List Char} {c : Char}
    (h : (trim cs).getLast? = some c) : isWhiteSpace c = false := by
  rw [trim, trimEnd, List.getLast?_reverse] at h
  have hnot := List.head?_dropWhile_not isWhiteSpace (cs.dropWhile isWhiteSpace).reverse
  rw [h] at hnot
  exact hnot

/-- A text that does not begin with white space keeps its first character. -/
theorem exists_trim_cons {c : Char} (h : isWhiteSpace c = false) (cs : List Char) :
    ∃ rest, trim (c :: cs) = c :: rest := by
  obtain ⟨lead, trail, hcs, hlead, htrail⟩ := exists_trim (c :: cs)
  rw [isBlank, List.all_eq_true] at hlead htrail
  cases lead with
  | cons d lead =>
    have hc : c = d := (List.cons.inj hcs).1
    have hwhite := hlead c (by simp [hc])
    rw [h] at hwhite
    cases hwhite
  | nil =>
    rcases htrim : trim (c :: cs) with - | ⟨d, rest⟩
    · rw [htrim] at hcs
      have hwhite := htrail c (by simp [← show c :: cs = trail from hcs])
      rw [h] at hwhite
      cases hwhite
    · rw [htrim] at hcs
      exact ⟨rest, by rw [(List.cons.inj hcs).1]⟩

end ObjectMarkup.Text
