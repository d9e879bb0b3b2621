import ObjectMarkup.Resolution

namespace ObjectMarkup

theorem isSigil_iff {c : Char} : isSigil c = true ↔ c = '@' ∨ c = '%' ∨ c = '$' := by
  simp [isSigil, or_assoc]

theorem readDigits_of_not_isDigit {c : Char} (h : c.isDigit = false) (cs : List Char) :
    readDigits (c :: cs) = none := by
  simp [readDigits, h]

section

variable {sigil : Char} (h : isSigil sigil = true) (cs : List Char)

include h

theorem isDigit_of_isSigil : sigil.isDigit = false := by
  rcases isSigil_iff.mp h with rfl | rfl | rfl <;> rfl

theorem isWhiteSpace_of_isSigil : Unicode.isWhiteSpace sigil = false := by
  rcases isSigil_iff.mp h with rfl | rfl | rfl <;> rfl

theorem splitSign_of_isSigil : splitSign (sigil :: cs) = (false, sigil :: cs) := by
  rcases isSigil_iff.mp h with rfl | rfl | rfl <;> rfl

theorem readBoolean_of_isSigil : readBoolean (sigil :: cs) = none := by
  rcases isSigil_iff.mp h with rfl | rfl | rfl <;> simp [readBoolean, Text.sameLetters]

theorem readIntWithin_of_isSigil (bits : Nat) : readIntWithin bits (sigil :: cs) = none := by
  simp [readIntWithin, readInt, splitSign_of_isSigil h,
    readDigits_of_not_isDigit (isDigit_of_isSigil h)]

theorem readDecimal_of_isSigil : readDecimal (sigil :: cs) = none := by
  have hnone : readDigits [] = none := rfl
  rcases isSigil_iff.mp h with rfl | rfl | rfl <;> simp [readDecimal, hnone]

theorem readBinary_of_isSigil (f : BinaryFormat) : readBinary f (sigil :: cs) = none := by
  have hword : ∀ word : String, word.toList.head? ≠ some sigil.toLower →
      String.ofList ((sigil :: cs).map Char.toLower) ≠ word := by
    rintro word hword rfl
    simp at hword
  have hletter : sigil.toLower ≠ 'i' ∧ sigil.toLower ≠ 'n' := by
    rcases isSigil_iff.mp h with rfl | rfl | rfl <;> decide
  have hinf := hword "inf" (by simpa using hletter.1.symm)
  have hinfinity := hword "infinity" (by simpa using hletter.1.symm)
  have hnan := hword "nan" (by simpa using hletter.2.symm)
  simp only [readBinary, splitSign_of_isSigil h, hinf, hinfinity, hnan, readDecimal_of_isSigil h,
    or_self, if_false, Option.map_none]

/-- A text that begins with a doubled sigil is no literal of any type. -/
theorem literal?_of_doubled {raw : String} (hraw : raw.toList = sigil :: sigil :: cs)
    (t : ValueType) : literal? raw t = none := by
  obtain ⟨rest, htrim⟩ := Text.exists_trim_cons (isWhiteSpace_of_isSigil h) (sigil :: cs)
  unfold literal?
  rw [hraw, htrim]
  cases t with
  | boolean => simp [readBoolean_of_isSigil h]
  | byte => simp [readIntWithin_of_isSigil h]
  | short => simp [readIntWithin_of_isSigil h]
  | int => simp [readIntWithin_of_isSigil h]
  | long => simp [readIntWithin_of_isSigil h]
  | float => simp [readBinary_of_isSigil h]
  | double => simp [readBinary_of_isSigil h]
  | _ => rfl

end

section

variable {sigil : Char} {rest : List Char} {raw : String}

theorem unescapeSigil_of_doubled (h : isSigil sigil = true)
    (hraw : raw.toList = sigil :: sigil :: rest) :
    unescapeSigil raw = String.ofList (sigil :: rest) := by
  simp [unescapeSigil, hraw, h]

theorem coerce_of_doubled (h : isSigil sigil = true) (hraw : raw.toList = sigil :: sigil :: rest)
    (t : ValueType) : coerce raw t = .string (String.ofList (sigil :: rest)) := by
  rw [coerce, literal?_of_doubled h rest hraw, unescapeSigil_of_doubled h hraw]
  rfl

/-- Whether a sigil gives a text a meaning: it stands at the start, and something other than the
sigil stands behind it. -/
def IsReference (raw : String) : Prop :=
  ∃ sigil next rest, raw.toList = sigil :: next :: rest ∧ isSigil sigil = true ∧ next ≠ sigil

/-- Where no sigil gives a text a meaning, it stands for itself, with a doubled sigil written
once. -/
theorem Context.resolveReference_of_not_reference (c : Context) (h : ¬ IsReference raw) :
    c.resolveReference raw = .ok (.string (unescapeSigil raw)) := by
  unfold resolveReference unescapeSigil
  rcases hraw : raw.toList with - | ⟨sigil, - | ⟨next, rest⟩⟩
  · rfl
  · rfl
  · dsimp only
    by_cases hsigil : isSigil sigil = true
    · by_cases hnext : next = sigil
      · simp [hsigil, hnext]
      · exact absurd ⟨sigil, next, rest, hraw, hsigil, hnext⟩ h
    · simp [hsigil]

theorem not_isReference_of_doubled (hraw : raw.toList = sigil :: sigil :: rest) :
    ¬ IsReference raw := by
  rintro ⟨a, b, cs, hcs, -, hne⟩
  rw [hraw] at hcs
  cases hcs
  exact hne rfl

theorem literal?_of_not_isPrimitive {t : ValueType} (h : t.isPrimitive = false) (raw : String) :
    literal? raw t = none := by
  cases t with
  | string => rfl
  | url => rfl
  | object => rfl
  | any => rfl
  | _ => cases h

/-- Such a text stands for what it is read as, so that every type takes it alike in an attribute and
between tags. -/
theorem Context.resolve_eq_coerce (c : Context) {t : ValueType}
    (h : t.isPrimitive = true ∨ ¬ IsReference raw) :
    c.resolve raw (some t) = .ok (coerce raw t) := by
  cases hprimitive : t.isPrimitive with
  | true => simp [resolve, hprimitive]
  | false =>
    have hplain := h.resolve_left (by simp [hprimitive])
    have hresolve := c.resolveReference_of_not_reference hplain
    simp [resolve, hprimitive, hresolve, coerce, literal?_of_not_isPrimitive hprimitive raw]

theorem Context.resolve_of_doubled (c : Context) (h : isSigil sigil = true)
    (hraw : raw.toList = sigil :: sigil :: rest) (target : Option ValueType) :
    c.resolve raw target = .ok (.string (String.ofList (sigil :: rest))) := by
  have hplain := not_isReference_of_doubled hraw
  cases target with
  | none =>
    change c.resolveReference raw = _
    rw [c.resolveReference_of_not_reference hplain, unescapeSigil_of_doubled h hraw]
  | some t => rw [c.resolve_eq_coerce (.inr hplain), coerce_of_doubled h hraw]

/-- A text without a sigil at its start stands for itself where it is no literal. -/
theorem Context.resolve_of_plain (c : Context)
    (hraw : ∀ sigil rest, raw.toList = sigil :: rest → isSigil sigil = false)
    {target : Option ValueType} (htarget : ∀ t, target = some t → t.isPrimitive = false) :
    c.resolve raw target = .ok (.string raw) := by
  have hplain : ¬ IsReference raw := by
    rintro ⟨sigil, next, rest, hcs, hsigil, -⟩
    rw [hraw sigil _ hcs] at hsigil
    cases hsigil
  have hsame : unescapeSigil raw = raw := by
    rcases hcs : raw.toList with - | ⟨sigil, - | ⟨next, rest⟩⟩
    · simp [unescapeSigil, hcs]
    · simp [unescapeSigil, hcs]
    · simp [unescapeSigil, hcs, hraw sigil _ hcs]
  have hresolve := c.resolveReference_of_not_reference hplain
  rw [hsame] at hresolve
  cases target with
  | none => exact hresolve
  | some t => simpa [resolve, htarget t rfl] using hresolve

end

/-- Every text can be written. With a sigil at its start, it is written with that sigil twice: then
attributes of every type stand for it, as does text that is read as any type, whatever the
document's location, bundle and names are. Without one, it is written as it is where it is no
literal. -/
theorem texts_written (c : Context) (s : String) :
    (∀ sigil rest, isSigil sigil = true → s.toList = sigil :: rest →
      (∀ target, c.resolve (String.ofList (sigil :: s.toList)) target = .ok (.string s)) ∧
      ∀ t, coerce (String.ofList (sigil :: s.toList)) t = .string s) ∧
    ((∀ sigil rest, s.toList = sigil :: rest → isSigil sigil = false) →
      ∀ target : Option ValueType, (∀ t, target = some t → t.isPrimitive = false) →
        c.resolve s target = .ok (.string s)) := by
  refine ⟨fun sigil rest hsigil hs => ?_, fun hplain target htarget =>
    c.resolve_of_plain hplain htarget⟩
  have hraw : (String.ofList (sigil :: s.toList)).toList = sigil :: sigil :: rest := by
    rw [String.toList_ofList, hs]
  have hback : String.ofList (sigil :: rest) = s := by
    rw [← hs, String.ofList_toList]
  constructor
  · intro target
    rw [c.resolve_of_doubled hsigil hraw, hback]
  · intro t
    rw [coerce_of_doubled hsigil hraw, hback]

/-- A key of a bundle that is meant as text, where no bundle is in effect. -/
theorem texts_written_of_key :
    let c : Context := ⟨none, none, .empty⟩
    isSigil '%' = true ∧ "%5".toList = ['%', '5'] ∧
      c.resolve "%%5" (some .string) = .ok (.string "%5") ∧ coerce "%%5" .int = .string "%5" ∧
      c.resolve "5" none = .ok (.string "5") := by
  intro c
  obtain ⟨hattribute, htext⟩ := (texts_written c "%5").1 '%' ['5'] rfl (by decide)
  have hplain := (texts_written c "5").2 (by simp; decide) none (by simp)
  exact ⟨rfl, by decide, hattribute _, htext _, hplain⟩

end ObjectMarkup
