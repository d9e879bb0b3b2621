import Mathlib.Data.List.Induction
import ObjectMarkup.Proofs.Markup.Placement
import ObjectMarkup.Text.Split

namespace ObjectMarkup

namespace Text

/-- Whether a character begins at a byte offset, or the text ends there. -/
def isBoundary : List Char → Nat → Bool
  | [], offset => offset == 0
  | c :: rest, offset =>
    offset == 0 || (c.utf8Size ≤ offset && isBoundary rest (offset - c.utf8Size))

/-- Goes back from an offset, byte by byte, to one at which a character begins; `none` where that
would lead to before the start of the text. -/
def boundaryBelow? (source : List Char) : Nat → Option Nat
  | 0 => if isBoundary source 0 then some 0 else none
  | offset + 1 =>
    if isBoundary source (offset + 1) then some (offset + 1) else boundaryBelow? source offset

/-- The first lines, each with the line break that ends it. -/
def firstLines (n : Nat) (source : List Char) : List Char :=
  ((pieces '\n' source).take n).flatMap fun line => line ++ ['\n']

variable {source front back : List Char} {c : Char} {offset inside : Nat}

theorem isBoundary_zero (source : List Char) : isBoundary source 0 = true := by
  cases source <;> rfl

theorem isBoundary_iff :
    isBoundary source offset = true ↔
      ∃ front back, source = front ++ back ∧ byteLength front = offset := by
  induction source generalizing offset with
  | nil =>
    constructor
    · intro h
      exact ⟨[], [], rfl, (eq_of_beq h).symm⟩
    · rintro ⟨front, back, hsource, rfl⟩
      rw [(List.append_eq_nil_iff.mp hsource.symm).1]
      rfl
  | cons c rest ih =>
    simp only [isBoundary, Bool.or_eq_true, beq_iff_eq, Bool.and_eq_true, decide_eq_true_eq]
    constructor
    · rintro (rfl | ⟨hsize, hrest⟩)
      · exact ⟨[], c :: rest, rfl, rfl⟩
      · obtain ⟨front, back, rfl, hfront⟩ := ih.mp hrest
        refine ⟨c :: front, back, rfl, ?_⟩
        rw [byteLength_cons]
        omega
    · rintro ⟨_ | ⟨d, front⟩, back, hsource, rfl⟩
      · exact .inl rfl
      · obtain ⟨rfl, rfl⟩ := List.cons.inj hsource
        right
        rw [byteLength_cons]
        exact ⟨Nat.le_add_right _ _, ih.mpr ⟨front, back, rfl, by omega⟩⟩

theorem not_isBoundary_inside (hpos : 0 < inside) (hin : inside < c.utf8Size) :
    isBoundary (front ++ c :: back) (byteLength front + inside) = false := by
  rw [Bool.eq_false_iff, ne_eq, isBoundary_iff]
  rintro ⟨front', back', hsource, hlength⟩
  rcases List.append_eq_append_iff.mp hsource with ⟨more, rfl, hmore⟩ | ⟨more, rfl, -⟩
  · cases more with
    | nil =>
      rw [List.append_nil] at hlength
      omega
    | cons d more =>
      obtain ⟨rfl, -⟩ := List.cons.inj hmore
      rw [byteLength_append, byteLength_cons] at hlength
      omega
  · rw [byteLength_append] at hlength
    omega

/-- The search from inside a character, or from its first byte, ends at its first byte. -/
theorem boundaryBelow?_inside (front : List Char) (c : Char) (back : List Char)
    (hin : inside < c.utf8Size) :
    boundaryBelow? (front ++ c :: back) (byteLength front + inside) = some (byteLength front) := by
  induction inside with
  | zero =>
    have hfront : isBoundary (front ++ c :: back) (byteLength front) = true :=
      isBoundary_iff.mpr ⟨front, c :: back, rfl, rfl⟩
    rw [Nat.add_zero]
    cases hlength : byteLength front with
    | zero => rw [boundaryBelow?, if_pos (isBoundary_zero _)]
    | succ n => rw [boundaryBelow?, if_pos (hlength ▸ hfront)]
  | succ inside ih =>
    have hnot : ¬isBoundary (front ++ c :: back) (byteLength front + inside + 1) = true := by
      rw [Nat.add_assoc, not_isBoundary_inside (Nat.succ_pos inside) hin]
      exact Bool.false_ne_true
    rw [← Nat.add_assoc, boundaryBelow?, if_neg hnot]
    exact ih (Nat.lt_of_succ_lt hin)

theorem boundaryBelow?_end (source : List Char) :
    boundaryBelow? source (byteLength source) = some (byteLength source) := by
  have hend : isBoundary source (byteLength source) = true :=
    isBoundary_iff.mpr ⟨source, [], (List.append_nil _).symm, rfl⟩
  cases hlength : byteLength source with
  | zero => rw [boundaryBelow?, if_pos (isBoundary_zero _)]
  | succ n => rw [boundaryBelow?, if_pos (hlength ▸ hend)]

theorem exists_char_at (h : offset < byteLength source) :
    ∃ front c back inside, source = front ++ c :: back ∧ inside < c.utf8Size ∧
      offset = byteLength front + inside := by
  induction source generalizing offset with
  | nil => cases h
  | cons c rest ih =>
    by_cases hin : offset < c.utf8Size
    · exact ⟨[], c, rest, offset, rfl, hin, (Nat.zero_add _).symm⟩
    · rw [byteLength_cons] at h
      have hrest : offset - c.utf8Size < byteLength rest := by omega
      obtain ⟨front, d, back, inside, rfl, hinside, hoffset⟩ := ih hrest
      refine ⟨c :: front, d, back, inside, rfl, hinside, ?_⟩
      rw [byteLength_cons]
      omega

theorem firstLines_break (n : Nat) (source : List Char) :
    firstLines (n + 1) ('\n' :: source) = '\n' :: firstLines n source := by
  simp [firstLines, pieces]

theorem firstLines_cons (n : Nat) (hc : c ≠ '\n') (source : List Char) :
    firstLines (n + 1) (c :: source) = c :: firstLines (n + 1) source := by
  obtain ⟨line, lines, hlines⟩ := List.exists_cons_of_ne_nil (pieces_ne_nil '\n' source)
  simp [firstLines, pieces, hlines, hc]

/-- The lines up to a line break are what stands before it, with the break. -/
theorem firstLines_append (front back : List Char) :
    firstLines (front.count '\n' + 1) (front ++ '\n' :: back) = front ++ ['\n'] := by
  induction front with
  | nil => simp [firstLines, pieces]
  | cons c front ih =>
    by_cases hc : c = '\n'
    · subst hc
      rw [List.cons_append, List.count_cons_self, firstLines_break, ih, List.cons_append]
    · rw [List.cons_append, List.count_cons_of_ne hc, firstLines_cons _ hc, ih, List.cons_append]

theorem exists_line (front back : List Char) :
    ∃ line, (pieces '\n' (front ++ back))[front.count '\n']? = some line ∧
      byteLength front ≤
        byteLength (firstLines (front.count '\n') (front ++ back)) + byteLength line := by
  induction front with
  | nil =>
    obtain ⟨line, lines, hlines⟩ := List.exists_cons_of_ne_nil (pieces_ne_nil '\n' back)
    exact ⟨line, by simp [hlines], Nat.zero_le _⟩
  | cons c front ih =>
    obtain ⟨line, hline, hle⟩ := ih
    by_cases hc : c = '\n'
    · subst hc
      rw [List.cons_append, List.count_cons_self, firstLines_break, byteLength_cons, byteLength_cons]
      exact ⟨line, by simpa [pieces] using hline, by omega⟩
    · obtain ⟨first, lines, hlines⟩ :=
        List.exists_cons_of_ne_nil (pieces_ne_nil '\n' (front ++ back))
      rw [List.cons_append, List.count_cons_of_ne hc, pieces, if_neg hc, hlines]
      rw [hlines] at hline
      -- the character stands in the first line, which is the last one of `front` or a line before
      cases hcount : front.count '\n' with
      | zero =>
        rw [hcount] at hline hle
        obtain rfl : first = line := by simpa using hline
        refine ⟨c :: first, rfl, ?_⟩
        rw [byteLength_cons, byteLength_cons]
        simp only [firstLines, List.take_zero, List.flatMap_nil, byteLength_nil] at hle ⊢
        omega
      | succ n =>
        rw [hcount] at hline hle
        refine ⟨line, by simpa using hline, ?_⟩
        rw [firstLines_cons _ hc, byteLength_cons, byteLength_cons]
        omega

end Text

namespace Location

open Text (isBoundary boundaryBelow? firstLines byteLength)

/-- One place is before another when it is on an earlier line, or further back in the line. -/
instance : LT Location :=
  ⟨fun l l' => l.line < l'.line ∨ l.line = l'.line ∧ l.column < l'.column⟩

theorem lt_of_le_of_ne {l l' : Location} (h : l ≤ l') (hne : l ≠ l') : l < l' := by
  obtain ⟨line, column⟩ := l
  obtain ⟨line', column'⟩ := l'
  rcases h with h | ⟨rfl, h⟩
  · exact .inl h
  · exact .inr ⟨rfl, Nat.lt_of_le_of_ne h fun he => hne (congrArg _ he)⟩

theorem advance_append_add (l : Location) (front rest : List Char) (offset : Nat) :
    l.advance (front ++ rest) (byteLength front + offset) =
      (front.foldl past l).advance rest offset := by
  induction front generalizing l with
  | nil => rw [List.nil_append, Text.byteLength_nil, Nat.zero_add]; rfl
  | cons c front ih =>
    rw [List.cons_append, Text.byteLength_cons, Nat.add_assoc, advance_past, ih]
    rfl

/-- An offset inside a character has the place of the character. -/
theorem ofOffset_inside (front : List Char) (c : Char) (back : List Char) {inside : Nat}
    (hin : inside < c.utf8Size) :
    ofOffset (front ++ c :: back) (byteLength front + inside) = ofEnd front := by
  rw [ofOffset, advance_append_add, advance_of_lt _ _ hin]
  exact foldl_past_ofEnd [] front

theorem ofOffset_of_le {source : List Char} {offset : Nat} (h : byteLength source ≤ offset) :
    ofOffset source offset = ofEnd source := by
  obtain ⟨more, rfl⟩ := Nat.exists_eq_add_of_le h
  have hend := advance_append_add ⟨1, 1⟩ source [] more
  rw [List.append_nil] at hend
  exact hend.trans (foldl_past_ofEnd [] source)

/-- The lines before the place where a text ends, with the bytes before it in its line, are as many
bytes as the text has. -/
theorem byteLength_of_ofEnd (front back : List Char) :
    byteLength (firstLines ((ofEnd front).line - 1) (front ++ back)) + (ofEnd front).column =
      byteLength front + 1 := by
  induction front using List.reverseRecOn generalizing back with
  | nil => rfl
  | append_singleton front c ih =>
    rw [List.append_assoc, List.singleton_append, ofEnd_concat, past]
    by_cases hc : c = '\n'
    · subst hc
      rw [if_pos rfl]
      change byteLength (firstLines (front.count '\n' + 1) (front ++ '\n' :: back)) + 1 = _
      rw [Text.firstLines_append]
    · rw [if_neg hc, ← Nat.add_assoc, ih (c :: back), Text.byteLength_append, Text.byteLength_cons,
        Text.byteLength_nil]
      omega

/-- The place of a boundary is in a line of the text, no further on than behind the end of the line,
and the lines before it with the bytes before it in its line add up to the offset. -/
theorem offset_of_boundary {source : List Char} {offset : Nat} (h : isBoundary source offset = true) :
    1 ≤ (ofOffset source offset).line ∧ 1 ≤ (ofOffset source offset).column ∧
      (∃ line, (Text.pieces '\n' source)[(ofOffset source offset).line - 1]? = some line ∧
        (ofOffset source offset).column ≤ byteLength line + 1) ∧
      offset = byteLength (firstLines ((ofOffset source offset).line - 1) source) +
        (ofOffset source offset).column - 1 := by
  obtain ⟨front, back, rfl, rfl⟩ := Text.isBoundary_iff.mp h
  rw [ofOffset_append]
  have htotal := byteLength_of_ofEnd front back
  have hline : (ofEnd front).line - 1 = front.count '\n' := rfl
  obtain ⟨line, hmem, hle⟩ := Text.exists_line front back
  rw [hline] at htotal ⊢
  refine ⟨Nat.le_add_left _ _, Nat.le_add_left _ _, ⟨line, hmem, ?_⟩, ?_⟩
  · omega
  · omega

/-- The place of an offset is where the text before it ends, the text being cut at the boundary that
the search finds. -/
theorem exists_search (source : List Char) (offset : Nat) :
    ∃ front back, source = front ++ back ∧
      boundaryBelow? source (min offset (byteLength source)) = some (byteLength front) ∧
      ofOffset source offset = ofEnd front := by
  rcases Nat.lt_or_ge offset (byteLength source) with hlt | hge
  · obtain ⟨front, c, back, inside, rfl, hin, rfl⟩ := Text.exists_char_at hlt
    rw [Nat.min_eq_left (Nat.le_of_lt hlt)]
    exact ⟨front, c :: back, rfl, Text.boundaryBelow?_inside front c back hin,
      ofOffset_inside front c back hin⟩
  · rw [Nat.min_eq_right hge]
    exact ⟨source, [], (List.append_nil _).symm, Text.boundaryBelow?_end source, ofOffset_of_le hge⟩

/-- Where a character begins, and at the end of a text, the place of an offset is a line of the text
and a column in it, both from one on, that tell the offset: it is the number of bytes of the lines
before, with their breaks, and of those before the column. So later boundaries have later places. An offset
inside a character has the place of the character, and one beyond the end that of the end. The search
for the boundary, which goes back byte by byte, never comes to before the start of the text, and the
place is read off the text before the boundary that it finds. -/
theorem places_tell_offsets (source : List Char) :
    (∀ offset, isBoundary source offset = true →
      1 ≤ (ofOffset source offset).line ∧ 1 ≤ (ofOffset source offset).column ∧
        (∃ line, (Text.pieces '\n' source)[(ofOffset source offset).line - 1]? = some line ∧
          (ofOffset source offset).column ≤ byteLength line + 1) ∧
        offset = byteLength (firstLines ((ofOffset source offset).line - 1) source) +
          (ofOffset source offset).column - 1) ∧
    (∀ offset offset', isBoundary source offset = true → isBoundary source offset' = true →
      offset < offset' → ofOffset source offset < ofOffset source offset') ∧
    (∀ front c back inside, source = front ++ c :: back → inside < c.utf8Size →
      ofOffset source (byteLength front + inside) = ofOffset source (byteLength front)) ∧
    (∀ offset, byteLength source ≤ offset →
      ofOffset source offset = ofOffset source (byteLength source)) ∧
    ∀ offset, ∃ front back, source = front ++ back ∧
      boundaryBelow? source (min offset (byteLength source)) = some (byteLength front) ∧
      ofOffset source offset = ofEnd front := by
  refine ⟨fun _ => offset_of_boundary, ?_, ?_, ?_, exists_search source⟩
  · intro offset offset' h h' hlt
    apply lt_of_le_of_ne (ofOffset_mono source (Nat.le_of_lt hlt))
    intro hsame
    -- the same place would tell the same offset
    have htold := (offset_of_boundary h).2.2.2
    have htold' := (offset_of_boundary h').2.2.2
    rw [hsame, ← htold'] at htold
    exact Nat.ne_of_lt hlt htold
  · intro front c back inside hsource hin
    rw [hsource, ofOffset_inside front c back hin, ofOffset_append]
  · intro offset hend
    rw [ofOffset_of_le hend, ofOffset_of_le (Nat.le_refl _)]

/-- A text with a long character, whose second byte is no boundary, before a line break. -/
theorem places_tell_offsets_of_accent :
    let source := "é\n<a/>".toList
    isBoundary source 2 = true ∧ isBoundary source 3 = true ∧
      3 = byteLength (firstLines 1 source) + 1 - 1 ∧ ofOffset source 2 < ofOffset source 3 ∧
      1 < 'é'.utf8Size ∧ isBoundary source 1 = false ∧ ofOffset source 1 = ofOffset source 0 ∧
      7 ≤ 99 ∧ ofOffset source 99 = ofOffset source 7 := by
  intro source
  have h2 : isBoundary source 2 = true := by decide +kernel
  have h3 : isBoundary source 3 = true := by decide +kernel
  have h1 : isBoundary source 1 = false := by decide +kernel
  obtain ⟨htold, hlater, hinside, hbeyond, -⟩ := places_tell_offsets source
  exact ⟨h2, h3, (htold 3 h3).2.2.2, hlater 2 3 h2 h3 (by decide), by decide, h1,
    hinside [] 'é' "\n<a/>".toList 1 rfl (by decide), by decide, hbeyond 99 (by decide +kernel)⟩

end Location

end ObjectMarkup
