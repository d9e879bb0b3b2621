import Mathlib.Data.List.TakeWhile
import ObjectMarkup.Markup.Token

namespace ObjectMarkup.Markup

variable {cs a b : List Char} {c : Char}

/-- A word that can have `>` only at its end is found at the start of a text with a `>` in it or not,
whatever follows the text. -/
theorem isPrefixOf_append_of_mem {word l : List Char} (hword : '>' ∉ word.dropLast) (hl : '>' ∈ l)
    (rest : List Char) : word.isPrefixOf (l ++ rest) = word.isPrefixOf l := by
  induction l generalizing word with
  | nil => cases hl
  | cons d l ih =>
    cases word with
    | nil => rfl
    | cons w word =>
      simp only [List.cons_append, List.isPrefixOf]
      by_cases hwd : w = d
      · subst hwd
        cases word with
        | nil => rfl
        | cons v word =>
          rw [List.dropLast_cons_cons, List.mem_cons, not_or] at hword
          rw [ih hword.2 ((List.mem_cons.mp hl).resolve_left hword.1)]
      · rw [beq_false_of_ne hwd, Bool.false_and, Bool.false_and]

/-- A text is split at a mark that ends with its only `>` alike, whatever follows the mark. -/
theorem splitAtMark_eq_some {mark : List Char} (hend : '>' ∈ mark) (honly : '>' ∉ mark.dropLast)
    (h : splitAtMark mark cs = some (a, b)) :
    cs = a ++ mark ++ b ∧ ∀ rest, splitAtMark mark (a ++ mark ++ rest) = some (a, rest) := by
  induction cs generalizing a with
  | nil => cases h
  | cons c cs ih =>
    rw [splitAtMark] at h
    split at h
    · rename_i hprefix
      cases h
      have hmark : ∃ d tail, mark = d :: tail := List.exists_cons_of_ne_nil (by
        rintro rfl
        cases hend)
      obtain ⟨d, tail, rfl⟩ := hmark
      obtain ⟨after, hafter⟩ := List.isPrefixOf_iff_prefix.mp hprefix
      refine ⟨by rw [← hafter]; simp, fun rest => ?_⟩
      have hself : (d :: tail).isPrefixOf ((d :: tail) ++ rest) = true :=
        List.isPrefixOf_iff_prefix.mpr (List.prefix_append _ _)
      rw [List.nil_append, List.cons_append, splitAtMark, ← List.cons_append, if_pos hself]
      simp
    · rename_i hprefix
      cases hsplit : splitAtMark mark cs with
      | none => simp [hsplit] at h
      | some p =>
        obtain ⟨a', b'⟩ := p
        simp only [hsplit, Option.map_some, Option.some.injEq, Prod.mk.injEq] at h
        obtain ⟨rfl, rfl⟩ := h
        obtain ⟨hcs, hrest⟩ := ih hsplit
        refine ⟨by rw [hcs]; simp, fun rest => ?_⟩
        -- The mark is not found any earlier, as it lies within what is split off.
        have hmem : '>' ∈ c :: (a' ++ mark) := by simp [hend]
        have hsame : mark.isPrefixOf (c :: (a' ++ mark ++ rest)) = mark.isPrefixOf (c :: cs) := by
          rw [hcs]
          exact (isPrefixOf_append_of_mem honly hmem rest).trans
            (isPrefixOf_append_of_mem honly hmem b').symm
        rw [List.cons_append, List.cons_append, splitAtMark, hsame, if_neg hprefix, hrest rest]
        rfl

/-- The quote that is open after a text inside a tag, unless the tag ends in the text. -/
def tagState : Option Char → List Char → Option (Option Char)
  | quote, [] => some quote
  | none, c :: cs =>
    if c = '>' then none else tagState (if c = '"' ∨ c = '\'' then some c else none) cs
  | some q, c :: cs => tagState (if c = q then none else some q) cs

/-- A tag is split at the first `>` that no quote is open at. -/
theorem splitTag_eq_ok {quote : Option Char} (h : splitTag quote cs = .ok (a, b)) :
    cs = a ++ '>' :: b ∧ tagState quote a = some none := by
  induction cs generalizing quote a with
  | nil => cases quote <;> cases h
  | cons c cs ih =>
    cases quote with
    | none =>
      rw [splitTag] at h
      split at h
      · rename_i hc
        cases h
        exact ⟨by rw [hc]; rfl, rfl⟩
      · rename_i hc
        cases hsplit : splitTag (if c = '"' ∨ c = '\'' then some c else none) cs with
        | error f => simp [hsplit, Except.map] at h
        | ok p =>
          obtain ⟨a', b'⟩ := p
          simp only [hsplit, Except.map, Except.ok.injEq, Prod.mk.injEq] at h
          obtain ⟨rfl, rfl⟩ := h
          obtain ⟨rfl, hstate⟩ := ih hsplit
          exact ⟨rfl, by rw [tagState, if_neg hc, hstate]⟩
    | some q =>
      rw [splitTag] at h
      cases hsplit : splitTag (if c = q then none else some q) cs with
      | error f => simp [hsplit, Except.map] at h
      | ok p =>
        obtain ⟨a', b'⟩ := p
        simp only [hsplit, Except.map, Except.ok.injEq, Prod.mk.injEq] at h
        obtain ⟨rfl, rfl⟩ := h
        obtain ⟨rfl, hstate⟩ := ih hsplit
        exact ⟨rfl, hstate⟩

/-- What follows its `>` does not count for a tag. -/
theorem splitTag_append {quote : Option Char} (h : tagState quote a = some none)
    (rest : List Char) : splitTag quote (a ++ '>' :: rest) = .ok (a, rest) := by
  induction a generalizing quote with
  | nil =>
    cases h
    rfl
  | cons c a ih =>
    cases quote with
    | none =>
      rw [tagState] at h
      split at h
      · cases h
      · rename_i hc
        rw [List.cons_append, splitTag, if_neg hc, ih h]
        rfl
    | some q =>
      rw [tagState] at h
      rw [List.cons_append, splitTag, ih h]
      rfl

/-- What begins among the inner declarations shows before the next `>`. -/
theorem DoctypePart.begun_append (hcs : '>' ∈ cs) (rest : List Char) :
    DoctypePart.begun (cs ++ rest) = DoctypePart.begun cs := by
  have hany : (quotedDeclarations.any fun word => word.toList.isPrefixOf (cs ++ rest)) =
      quotedDeclarations.any fun word => word.toList.isPrefixOf cs := by
    simp only [quotedDeclarations, List.any_cons, List.any_nil]
    rw [isPrefixOf_append_of_mem (by decide) hcs, isPrefixOf_append_of_mem (by decide) hcs,
      isPrefixOf_append_of_mem (by decide) hcs]
  unfold begun
  rw [hany, isPrefixOf_append_of_mem (by decide) hcs, isPrefixOf_append_of_mem (by decide) hcs]

/-- The scan of a document type looks no further than to the next `>`. -/
theorem DoctypePart.next_append (part : DoctypePart) (c : Char) (hcs : '>' ∈ cs)
    (rest : List Char) : part.next c (cs ++ rest) = part.next c cs := by
  have hmem : '>' ∈ c :: cs := List.mem_cons_of_mem _ hcs
  cases part with
  | head quote => rfl
  | inner => simp only [next, begun_append hcs]
  | plain => rfl
  | declaration quote => rfl
  | comment opening =>
    cases opening with
    | succ n => rfl
    | zero =>
      simp only [next]
      rw [← List.cons_append, isPrefixOf_append_of_mem (by decide) hmem]
  | instruction opening =>
    cases opening with
    | succ n => rfl
    | zero =>
      simp only [next]
      rw [← List.cons_append, isPrefixOf_append_of_mem (by decide) hmem]
  | tail => rfl

theorem DoctypePart.next_eq_none {part : DoctypePart} (h : part.next c cs = none) : c = '>' := by
  cases part with
  | head quote =>
    simp only [next] at h
    split at h
    · rename_i hc
      exact hc.2
    · split at h <;> cases h
  | comment opening => cases opening <;> cases h
  | instruction opening => cases opening <;> cases h
  | tail =>
    simp only [next] at h
    split at h
    · assumption
    · cases h
  | _ => cases h

/-- A document type is split at its `>` alike, whatever follows. -/
theorem splitDoctype_eq_some {part : DoctypePart} (h : splitDoctype part cs = some (a, b)) :
    cs = a ++ '>' :: b ∧ ∀ rest, splitDoctype part (a ++ '>' :: rest) = some (a, rest) := by
  induction cs generalizing part a with
  | nil => cases h
  | cons c cs ih =>
    rw [splitDoctype] at h
    cases hnext : part.next c cs with
    | none =>
      have hc := DoctypePart.next_eq_none hnext
      simp only [hnext, Option.some.injEq, Prod.mk.injEq] at h
      obtain ⟨rfl, rfl⟩ := h
      refine ⟨by rw [hc]; rfl, fun rest => ?_⟩
      -- A `>` ends a document type in its head and in its tail, whatever is ahead.
      subst hc
      have hrest : part.next '>' rest = none := by
        cases part with
        | comment opening => cases opening <;> cases hnext
        | instruction opening => cases opening <;> cases hnext
        | _ => exact hnext
      rw [List.nil_append, splitDoctype, hrest]
    | some part' =>
      simp only [hnext] at h
      cases hsplit : splitDoctype part' cs with
      | none => simp [hsplit] at h
      | some p =>
        obtain ⟨a', b'⟩ := p
        simp only [hsplit, Option.map_some, Option.some.injEq, Prod.mk.injEq] at h
        obtain ⟨rfl, rfl⟩ := h
        obtain ⟨hcs, hrest⟩ := ih hsplit
        refine ⟨by rw [hcs]; rfl, fun rest => ?_⟩
        have hmem : '>' ∈ a' ++ ['>'] := by simp
        have hsame : part.next c (a' ++ '>' :: rest) = some part' := by
          rw [hcs, List.append_cons, DoctypePart.next_append part c hmem] at hnext
          rw [List.append_cons, DoctypePart.next_append part c hmem, hnext]
        rw [List.cons_append, splitDoctype, hsame]
        dsimp only
        rw [hrest rest]
        rfl

def tagToken (content : List Char) : Token :=
  match content with
  | '/' :: name => .closeTag (trimTagEnd name)
  | _ => if content.getLast? = some '/' then .emptyTag content.dropLast else .openTag content

/-- Whether a token is plain text, which goes on until markup begins. -/
def Token.isText : Token → Bool
  | .text _ => true
  | _ => false

def Token.isTag : Token → Bool
  | .openTag _ => true
  | .emptyTag _ => true
  | .closeTag _ => true
  | _ => false

/-- The first token of a source is a piece at its start, and the same whatever follows the piece. -/
def Leads (cs : List Char) (s : Scanned) : Prop :=
  cs = s.written ++ s.rest ∧ ∀ rest, scanToken (s.written ++ rest) = .ok ⟨s.token, s.written, rest⟩

variable {s : Scanned}

theorem scanToken_tag (h : cs.head? ≠ some '!') (h' : cs.head? ≠ some '?') :
    scanToken ('<' :: cs) = scanTag cs := by
  cases cs with
  | nil => rfl
  | cons c cs =>
    simp only [List.head?_cons, ne_eq, Option.some.injEq] at h h'
    unfold scanToken
    split <;> simp_all

/-- A tag as it stands in a source, with what is between its brackets. -/
structure IsTag (s : Scanned) (content : List Char) : Prop where
  token : s.token = tagToken content
  written : s.written = '<' :: content ++ ['>']
  ends : tagState none content = some none
  not_bang : content.head? ≠ some '!'
  not_question : content.head? ≠ some '?'

/-- What is written as a tag is scanned as one, whatever follows. -/
theorem IsTag.scanToken {content : List Char} (h : IsTag s content) (rest : List Char) :
    scanToken (s.written ++ rest) = .ok ⟨s.token, s.written, rest⟩ := by
  have hhead : ∀ c, content.head? ≠ some c → c ≠ '>' →
      (content ++ '>' :: rest).head? ≠ some c := by
    intro c hc hne
    cases content with
    | nil => simpa using hne.symm
    | cons d content => exact hc
  have hpiece : '<' :: content ++ ['>'] ++ rest = '<' :: (content ++ '>' :: rest) := by simp
  rw [h.written, hpiece, scanToken_tag (hhead _ h.not_bang (by decide))
    (hhead _ h.not_question (by decide)), scanTag, splitTag_append h.ends, h.token]
  rfl

theorem scanTag_eq_ok (hbang : cs.head? ≠ some '!') (hquestion : cs.head? ≠ some '?')
    (h : scanTag cs = .ok s) :
    ∃ content, IsTag s content ∧ '<' :: cs = s.written ++ s.rest := by
  cases hsplit : splitTag none cs with
  | error f => simp [scanTag, hsplit, Except.map] at h
  | ok p =>
    obtain ⟨content, after⟩ := p
    simp only [scanTag, hsplit, Except.map, Except.ok.injEq] at h
    obtain ⟨rfl, hends⟩ := splitTag_eq_ok hsplit
    subst h
    refine ⟨content, ⟨rfl, rfl, hends, ?_, ?_⟩, by simp⟩
    · cases content with
      | nil => simp
      | cons c content => exact hbang
    · cases content with
      | nil => simp
      | cons c content => exact hquestion

theorem leads_reference (h : scanReference cs = .ok s) : Leads ('&' :: cs) s := by
  unfold scanReference at h
  dsimp only at h
  generalize hname : cs.takeWhile (fun c => decide (c ≠ ';' ∧ c ≠ '&' ∧ c ≠ '<')) = name at h
  split at h
  · rename_i after hdrop
    cases h
    have hcs : cs = name ++ ';' :: after := by
      rw [← hdrop]
      exact (List.prefix_iff_eq_append.mp (hname ▸ List.takeWhile_prefix _)).symm
    have hchars : ∀ c ∈ name, decide (c ≠ ';' ∧ c ≠ '&' ∧ c ≠ '<') = true := by
      intro c hc
      rw [← hname] at hc
      exact List.mem_takeWhile_imp (p := fun c => decide (c ≠ ';' ∧ c ≠ '&' ∧ c ≠ '<')) hc
    refine ⟨by rw [hcs]; simp, fun rest => ?_⟩
    have htake : (name ++ ';' :: rest).takeWhile
        (fun c => decide (c ≠ ';' ∧ c ≠ '&' ∧ c ≠ '<')) = name := by
      rw [List.takeWhile_append_of_pos hchars]
      simp
    have hpiece : '&' :: name ++ [';'] ++ rest = '&' :: (name ++ ';' :: rest) := by simp
    rw [hpiece]
    change scanReference (name ++ ';' :: rest) = _
    unfold scanReference
    dsimp only
    rw [htake, List.drop_left]
    rfl
  · cases h

theorem leads_instruction (h : scanInstruction ('?' :: cs) = .ok s) :
    Leads ('<' :: '?' :: cs) s := by
  unfold scanInstruction at h
  cases hsplit : splitAtMark "?>".toList ('?' :: cs) with
  | none =>
    simp only [hsplit] at h
    split at h <;> cases h
  | some p =>
    obtain ⟨content, after⟩ := p
    obtain ⟨hcs, hstays⟩ := splitAtMark_eq_some (by decide) (by decide) hsplit
    cases content with
    | nil =>
      rw [hsplit] at h
      cases h
    | cons c content =>
      rw [hsplit] at h
      cases h
      obtain ⟨rfl, -⟩ := List.cons.inj hcs
      refine ⟨by rw [hcs]; simp, fun rest => ?_⟩
      have hpiece : '<' :: ('?' :: content) ++ "?>".toList ++ rest =
          '<' :: '?' :: (content ++ "?>".toList ++ rest) := by simp
      rw [hpiece]
      change scanInstruction ('?' :: content ++ "?>".toList ++ rest) = _
      unfold scanInstruction
      rw [hstays]

theorem leads_marked (scan : List Char → Except MarkupFault Scanned) (opening mark : List Char)
    (token : List Char → Token) (f : MarkupFault) (hend : '>' ∈ mark) (honly : '>' ∉ mark.dropLast)
    (opens : ∀ cs, scanToken (opening ++ cs) = scan cs)
    (found : ∀ cs content rest, splitAtMark mark cs = some (content, rest) →
      scan cs = .ok ⟨token content, opening ++ content ++ mark, rest⟩)
    (missed : ∀ cs, splitAtMark mark cs = none → scan cs = .error f) (h : scan cs = .ok s) :
    Leads (opening ++ cs) s := by
  cases hsplit : splitAtMark mark cs with
  | none =>
    rw [missed cs hsplit] at h
    cases h
  | some p =>
    obtain ⟨content, after⟩ := p
    obtain ⟨hcs, hstays⟩ := splitAtMark_eq_some hend honly hsplit
    rw [found cs content after hsplit] at h
    cases h
    refine ⟨by rw [hcs]; simp, fun rest => ?_⟩
    rw [List.append_assoc, List.append_assoc, ← List.append_assoc content, opens]
    exact found _ _ _ (hstays rest)

theorem leads_comment (h : scanComment cs = .ok s) : Leads ("<!--".toList ++ cs) s :=
  leads_marked scanComment "<!--".toList "-->".toList (fun _ => .skipped) .unclosedComment
    (by decide) (by decide) (fun _ => rfl) (fun _ _ _ hsplit => by simp only [scanComment, hsplit])
    (fun _ hsplit => by simp only [scanComment, hsplit]) h

theorem leads_literal (h : scanLiteral cs = .ok s) : Leads ("<![CDATA[".toList ++ cs) s :=
  leads_marked scanLiteral "<![CDATA[".toList "]]>".toList .literal .unclosedLiteral (by decide)
    (by decide) (fun _ => rfl) (fun _ _ _ hsplit => by simp only [scanLiteral, hsplit])
    (fun _ hsplit => by simp only [scanLiteral, hsplit]) h

theorem leads_doctype (hhead : cs.head? = some 'D' ∨ cs.head? = some 'd')
    (h : scanDoctype cs = .ok s) : Leads ("<!".toList ++ cs) s := by
  unfold scanDoctype at h
  split at h
  · cases h
  · rename_i content after hsplit
    obtain ⟨hcs, hstays⟩ := splitDoctype_eq_some hsplit
    split at h
    · cases h
    · rename_i hkeyword
      split at h
      · cases h
      · rename_i hname
        cases h
        refine ⟨by rw [hcs]; simp, fun rest => ?_⟩
        have hscan : scanDoctype (content ++ '>' :: rest) =
            .ok ⟨.skipped, "<!".toList ++ content ++ ['>'], rest⟩ := by
          unfold scanDoctype
          rw [hstays]
          dsimp only
          rw [if_neg hkeyword, if_neg hname]
        have hpiece : "<!".toList ++ content ++ ['>'] ++ rest =
            '<' :: '!' :: (content ++ '>' :: rest) := by simp
        rw [hpiece]
        change scanBang (content ++ '>' :: rest) = _
        -- The keyword is not empty, so what follows the document type is not at its head.
        cases content with
        | nil => exact absurd (by decide) hkeyword
        | cons c content =>
          rw [hcs] at hhead
          rcases hhead with hhead | hhead
          · cases hhead
            exact hscan
          · cases hhead
            exact hscan

theorem leads_bang (h : scanBang cs = .ok s) : Leads ('<' :: '!' :: cs) s := by
  unfold scanBang at h
  split at h
  · split at h
    · rename_i rest hprefix
      obtain ⟨after, hafter⟩ := List.isPrefixOf_iff_prefix.mp hprefix
      rw [← hafter] at h ⊢
      exact leads_literal h
    · cases h
  · split at h
    · rename_i rest hprefix
      obtain ⟨after, hafter⟩ := List.isPrefixOf_iff_prefix.mp hprefix
      rw [← hafter] at h ⊢
      exact leads_comment h
    · cases h
  · exact leads_doctype (.inl rfl) h
  · exact leads_doctype (.inr rfl) h
  · cases h

theorem not_head {d : Char} (h : ∀ rest, cs = d :: rest → False) : cs.head? ≠ some d := by
  intro hd
  obtain ⟨rest, rfl⟩ := List.head?_eq_some_iff.mp hd
  exact h rest rfl

theorem isPlain_of_not_markup (hopen : ∀ rest, c :: cs = '<' :: rest → False)
    (hreference : ∀ rest, c :: cs = '&' :: rest → False) : isPlain c = true := by
  have hlt : c ≠ '<' := fun hc => hopen cs (by rw [hc])
  have hamp : c ≠ '&' := fun hc => hreference cs (by rw [hc])
  simp [isPlain, hlt, hamp]

theorem scanToken_plain (hc : isPlain c = true) (cs : List Char) :
    scanToken (c :: cs) = .ok ⟨.text (c :: cs.takeWhile isPlain), c :: cs.takeWhile isPlain,
      cs.dropWhile isPlain⟩ := by
  have hlt : c ≠ '<' := by
    rintro rfl
    cases hc
  have hamp : c ≠ '&' := by
    rintro rfl
    cases hc
  unfold scanToken
  split
  · rename_i heq
    exact absurd (List.cons.inj heq).1 hlt
  · rename_i heq
    exact absurd (List.cons.inj heq).1 hlt
  · rename_i heq
    exact absurd (List.cons.inj heq).1 hlt
  · rename_i heq
    exact absurd (List.cons.inj heq).1 hamp
  · simp only [List.takeWhile_cons_of_pos hc, List.dropWhile_cons_of_pos hc]

/-- A token that is not plain text is its piece, whatever follows. -/
theorem leads_markup (hc : isPlain c = false) (h : scanToken (c :: cs) = .ok s) :
    Leads (c :: cs) s := by
  unfold scanToken at h
  split at h
  · rename_i rest heq
    cases heq
    exact leads_bang h
  · rename_i rest heq
    cases heq
    exact leads_instruction h
  · rename_i rest hbang hquestion heq
    cases heq
    obtain ⟨content, htag, hcs⟩ := scanTag_eq_ok (not_head hbang) (not_head hquestion) h
    exact ⟨hcs, htag.scanToken⟩
  · rename_i rest heq
    cases heq
    exact leads_reference h
  · rename_i hbang hquestion hopen hreference
    rw [isPlain_of_not_markup hopen hreference] at hc
    cases hc

theorem isTag_tagToken (content : List Char) : (tagToken content).isTag = true := by
  unfold tagToken
  split
  · rfl
  · split <;> rfl

theorem isText_of_isTag {t : Token} (h : t.isTag = true) : t.isText = false := by
  cases t with
  | text content => cases h
  | _ => rfl

theorem scanBang_token (h : scanBang cs = .ok s) :
    s.token.isTag = false ∧ s.token.isText = false := by
  have hdoctype : ∀ {cs}, scanDoctype cs = .ok s →
      s.token.isTag = false ∧ s.token.isText = false := by
    intro cs h
    unfold scanDoctype at h
    split at h
    · cases h
    · split at h
      · cases h
      · split at h <;> cases h
        exact ⟨rfl, rfl⟩
  unfold scanBang at h
  split at h
  · split at h
    · unfold scanLiteral at h
      split at h <;> cases h
      exact ⟨rfl, rfl⟩
    · cases h
  · split at h
    · unfold scanComment at h
      split at h <;> cases h
      exact ⟨rfl, rfl⟩
    · cases h
  · exact hdoctype h
  · exact hdoctype h
  · cases h

theorem isTag_or_not (hc : isPlain c = false) (h : scanToken (c :: cs) = .ok s) :
    (∃ content, IsTag s content) ∨ s.token.isTag = false ∧ s.token.isText = false := by
  unfold scanToken at h
  split at h
  · exact .inr (scanBang_token h)
  · right
    unfold scanInstruction at h
    split at h
    · cases h
    · cases h
      exact ⟨rfl, rfl⟩
    · dsimp only at h
      split at h <;> cases h
  · rename_i rest hbang hquestion heq
    cases heq
    obtain ⟨content, htag, -⟩ := scanTag_eq_ok (not_head hbang) (not_head hquestion) h
    exact .inl ⟨content, htag⟩
  · right
    unfold scanReference at h
    dsimp only at h
    split at h <;> cases h
    exact ⟨rfl, rfl⟩
  · rename_i hbang hquestion hopen hreference
    rw [isPlain_of_not_markup hopen hreference] at hc
    cases hc

/-- What follows the first token of a source is shorter than the source. -/
theorem scanToken_shortens (h : scanToken (c :: cs) = .ok s) :
    s.rest.length < (c :: cs).length := by
  cases hc : isPlain c with
  | true =>
    rw [scanToken_plain hc] at h
    cases h
    exact Nat.lt_succ_of_le (List.dropWhile_sublist _).length_le
  | false =>
    obtain ⟨hcs, hstays⟩ := leads_markup hc h
    cases hwritten : s.written with
    | nil =>
      -- Nothing but a piece of plain text can be empty, and that does not begin with markup.
      have hempty := hstays ['<']
      rw [hwritten] at hempty
      cases hempty
    | cons d w =>
      rw [hcs, hwritten, List.cons_append, List.length_cons, List.length_append]
      omega

end ObjectMarkup.Markup
