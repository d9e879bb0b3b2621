import Mathlib.Algebra.Group.Int.Defs
import Mathlib.Data.List.Induction
import ObjectMarkup.Coercion

namespace ObjectMarkup

/-- Decimal digits, the last of them the ones, and the number that they denote. -/
inductive Digits : List Char → Nat → Prop where
  | one {d : Nat} (h : d < 10) : Digits [Nat.digitChar d] d
  | more {front : List Char} {n d : Nat} (hfront : Digits front n) (h : d < 10) :
      Digits (front ++ [Nat.digitChar d]) (10 * n + d)

/-- Digits behind at most one sign, and the number that they denote. -/
inductive Numeral : List Char → Int → Prop where
  | unsigned {cs : List Char} {n : Nat} (h : Digits cs n) : Numeral cs n
  | plus {cs : List Char} {n : Nat} (h : Digits cs n) : Numeral ('+' :: cs) n
  | minus {cs : List Char} {n : Nat} (h : Digits cs n) : Numeral ('-' :: cs) (-n)

/-- A text that is the numeral of a number but for white space around it. -/
def Denotes (raw : String) (n : Int) : Prop :=
  ∃ lead numeral trail, raw.toList = lead ++ (numeral ++ trail) ∧ Text.isBlank lead = true ∧
    Text.isBlank trail = true ∧ Numeral numeral n

inductive IntegerType where
  | byte
  | short
  | int
  | long
  deriving DecidableEq, Repr

namespace IntegerType

def bits : IntegerType → Nat
  | .byte => 8
  | .short => 16
  | .int => 32
  | .long => 64

def type : IntegerType → ValueType
  | .byte => .byte
  | .short => .short
  | .int => .int
  | .long => .long

def Holds (t : IntegerType) (n : Int) : Prop :=
  -2 ^ (t.bits - 1) ≤ n ∧ n ≤ 2 ^ (t.bits - 1) - 1

instance (t : IntegerType) (n : Int) : Decidable (t.Holds n) :=
  inferInstanceAs (Decidable (_ ∧ _))

/-- The value of the type that is a number, where there is room for it. -/
def value (t : IntegerType) (n : Int) : Value :=
  match t with
  | .byte => .byte (.ofInt n)
  | .short => .short (.ofInt n)
  | .int => .int (.ofInt n)
  | .long => .long (.ofInt n)

end IntegerType

/-- The whole number that a value is, and the type in which it is that. -/
def Value.whole? : Value → Option (IntegerType × Int)
  | .byte n => some (.byte, n.toInt)
  | .short n => some (.short, n.toInt)
  | .int n => some (.int, n.toInt)
  | .long n => some (.long, n.toInt)
  | _ => none

namespace Digits

variable {cs : List Char} {n : Nat}

theorem ne_nil (h : Digits cs n) : cs ≠ [] := by
  cases h <;> simp

theorem isDigit (h : Digits cs n) : ∀ c ∈ cs, c.isDigit = true := by
  induction h with
  | one h => simpa [Nat.isDigit_digitChar] using h
  | more _ h ih =>
    intro c hc
    rcases List.mem_append.mp hc with hc | hc
    · exact ih c hc
    · rw [List.mem_singleton.mp hc, Nat.isDigit_digitChar, decide_eq_true h]

theorem ofDigitChars_concat (front : List Char) (c : Char) :
    Nat.ofDigitChars 10 (front ++ [c]) 0 =
      10 * Nat.ofDigitChars 10 front 0 + (c.toNat - 48) := by
  simp [Nat.ofDigitChars]

theorem value (h : Digits cs n) : Nat.ofDigitChars 10 cs 0 = n := by
  induction h with
  | one h => simp [Nat.ofDigitChars, Nat.toNat_digitChar_of_lt_ten h]
  | more _ h ih =>
    rw [ofDigitChars_concat, ih, Nat.toNat_digitChar_of_lt_ten h, Nat.add_sub_cancel_left]

theorem of_isDigit (hnonempty : cs ≠ []) (h : ∀ c ∈ cs, c.isDigit = true) :
    Digits cs (Nat.ofDigitChars 10 cs 0) := by
  induction cs using List.reverseRecOn with
  | nil => exact absurd rfl hnonempty
  | append_singleton front c ih =>
    have hc : 48 ≤ c.toNat ∧ c.toNat ≤ 57 := Char.isDigit_iff_toNat.mp (h c (by simp))
    have hlast : Nat.digitChar (c.toNat - 48) = c := by
      apply Char.toNat_inj.mp
      rw [Nat.toNat_digitChar_of_lt_ten (by omega)]
      omega
    rw [ofDigitChars_concat]
    by_cases hfront : front = []
    · have hone : Digits [Nat.digitChar (c.toNat - 48)] (c.toNat - 48) := .one (by omega)
      rw [hlast] at hone
      simpa [hfront, Nat.ofDigitChars] using hone
    · have hrest := ih hfront fun d hd => h d (List.mem_append_left _ hd)
      have hmore := Digits.more hrest (d := c.toNat - 48) (by omega)
      rwa [hlast] at hmore

theorem ofNat (n : Nat) : Digits (digitsOf n) n := by
  have hdigits : ∀ c ∈ digitsOf n, c.isDigit = true := fun c hc =>
    Nat.isDigit_of_mem_toDigits (by decide) (by decide) hc
  have hvalue : Nat.ofDigitChars 10 (digitsOf n) 0 = n := Nat.ofDigitChars_ten_toDigits
  have h : Digits (digitsOf n) _ := of_isDigit Nat.toDigits_ne_nil hdigits
  rwa [hvalue] at h

end Digits

theorem readDigits_eq_some_iff {cs : List Char} {n : Nat} :
    readDigits cs = some n ↔ Digits cs n := by
  constructor
  · intro h
    simp only [readDigits, Bool.and_eq_true, Bool.not_eq_true', List.isEmpty_eq_false_iff,
      List.all_eq_true, Option.ite_none_right_eq_some, Option.some.injEq] at h
    obtain ⟨⟨hnonempty, hdigits⟩, rfl⟩ := h
    exact .of_isDigit hnonempty hdigits
  · intro h
    simp [readDigits, h.ne_nil, h.value]
    exact h.isDigit

theorem Digits.splitSign_eq {cs : List Char} {n : Nat} (h : Digits cs n) :
    splitSign cs = (false, cs) := by
  have hdigit := h.isDigit
  unfold splitSign
  split
  · exact absurd (hdigit '-' (by simp)) (by decide)
  · exact absurd (hdigit '+' (by simp)) (by decide)
  · rfl

theorem readInt_eq (cs : List Char) :
    readInt cs = (readDigits (splitSign cs).2).map fun n : Nat =>
      if (splitSign cs).1 then -(n : Int) else (n : Int) := by
  rw [readInt]
  dsimp only
  cases readDigits (splitSign cs).2 <;> rfl

theorem readInt_eq_some_iff {cs : List Char} {n : Int} : readInt cs = some n ↔ Numeral cs n := by
  rw [readInt_eq]
  constructor
  · intro h
    obtain ⟨m, hread, rfl⟩ := Option.map_eq_some_iff.mp h
    have hdigits := readDigits_eq_some_iff.mp hread
    unfold splitSign at hdigits ⊢
    split at hdigits
    · exact .minus hdigits
    · exact .plus hdigits
    · exact .unsigned hdigits
  · intro h
    cases h with
    | unsigned h => simp [h.splitSign_eq, readDigits_eq_some_iff.mpr h]
    | plus h => simp [splitSign, readDigits_eq_some_iff.mpr h]
    | minus h => simp [splitSign, readDigits_eq_some_iff.mpr h]

namespace Numeral

variable {cs : List Char} {n : Int}

theorem isWhiteSpace_eq_false (h : Numeral cs n) :
    ∀ c ∈ cs, Unicode.isWhiteSpace c = false := by
  have hdigits : ∀ {cs : List Char} {n : Nat}, Digits cs n →
      ∀ c ∈ cs, Unicode.isWhiteSpace c = false := by
    intro cs n h c hc
    have hdigit : 48 ≤ c.toNat ∧ c.toNat ≤ 57 := Char.isDigit_iff_toNat.mp (h.isDigit c hc)
    simp only [Unicode.isWhiteSpace, Bool.or_eq_false_iff, Bool.and_eq_false_iff,
      decide_eq_false_iff_not, beq_eq_false_iff_ne]
    omega
  intro c hc
  cases h with
  | unsigned h => exact hdigits h c hc
  | plus h =>
    rcases List.mem_cons.mp hc with rfl | hc
    · decide
    · exact hdigits h c hc
  | minus h =>
    rcases List.mem_cons.mp hc with rfl | hc
    · decide
    · exact hdigits h c hc

theorem ofInt (n : Int) : Numeral (intText n) n := by
  by_cases hneg : n < 0
  · have h : Numeral ('-' :: digitsOf n.natAbs) (-(n.natAbs : Int)) := .minus (.ofNat _)
    rw [show -(n.natAbs : Int) = n by omega] at h
    simpa [intText, signText, hneg] using h
  · have h : Numeral (digitsOf n.natAbs) n.natAbs := .unsigned (.ofNat _)
    rw [show (n.natAbs : Int) = n by omega] at h
    simpa only [intText, signText, hneg, decide_false, Bool.false_eq_true, if_false,
      List.nil_append] using h

end Numeral

theorem denotes_iff_trim {raw : String} {n : Int} :
    Denotes raw n ↔ Numeral (Text.trim raw.toList) n := by
  constructor
  · rintro ⟨lead, numeral, trail, hraw, hlead, htrail, h⟩
    rwa [hraw, Text.trim_append hlead htrail h.isWhiteSpace_eq_false]
  · intro h
    obtain ⟨lead, trail, hraw, hlead, htrail⟩ := Text.exists_trim raw.toList
    exact ⟨lead, _, trail, hraw, hlead, htrail, h⟩

namespace IntegerType

variable {t : IntegerType} {raw : String} {n : Int} {v : Value}

theorem readIntWithin_eq_some_iff {cs : List Char} :
    readIntWithin t.bits cs = some n ↔ t.Holds n ∧ Numeral cs n := by
  have hbound : ((Nat.pow 2 (t.bits - 1) : Nat) : Int) = 2 ^ (t.bits - 1) := by simp
  rw [readIntWithin, Option.filter_eq_some_iff, readInt_eq_some_iff, hbound, decide_eq_true_iff,
    Holds, Int.le_sub_one_iff, and_comm]

theorem literal?_type (t : IntegerType) (raw : String) :
    literal? raw t.type = (readIntWithin t.bits (Text.trim raw.toList)).map t.value := by
  cases t <;> rfl

theorem whole?_value (h : t.Holds n) : (t.value n).whole? = some (t, n) := by
  obtain ⟨hlow, hhigh⟩ := h
  rw [Int.le_sub_one_iff] at hhigh
  cases t with
  | byte => rw [value, Value.whole?, Int8.toInt_ofInt_of_le hlow hhigh]
  | short => rw [value, Value.whole?, Int16.toInt_ofInt_of_le hlow hhigh]
  | int => rw [value, Value.whole?, Int32.toInt_ofInt_of_le hlow hhigh]
  | long => rw [value, Value.whole?, Int64.toInt_ofInt_of_le hlow hhigh]

theorem eq_value_of_whole? (h : v.whole? = some (t, n)) : v = t.value n ∧ t.Holds n := by
  unfold Holds
  rw [Int.le_sub_one_iff]
  cases v with
  | byte b =>
    cases h
    exact ⟨by rw [value, Int8.ofInt_toInt], b.le_toInt, b.toInt_lt⟩
  | short b =>
    cases h
    exact ⟨by rw [value, Int16.ofInt_toInt], b.le_toInt, b.toInt_lt⟩
  | int b =>
    cases h
    exact ⟨by rw [value, Int32.ofInt_toInt], b.le_toInt, b.toInt_lt⟩
  | long b =>
    cases h
    exact ⟨by rw [value, Int64.ofInt_toInt], b.le_toInt, b.toInt_lt⟩
  | _ => cases h

/-- A wider type has room for every number that a narrower one has room for. -/
theorem Holds.wider {wider : IntegerType} (h : t.Holds n) (hbits : t.bits ≤ wider.bits) :
    wider.Holds n := by
  have hpow : (2 : Int) ^ (t.bits - 1) ≤ 2 ^ (wider.bits - 1) :=
    mod_cast Nat.pow_le_pow_right (by decide) (Nat.sub_le_sub_right hbits 1)
  unfold Holds at h ⊢
  omega

/-- A text is read as a number exactly when it denotes one that the type has room for. -/
theorem whole?_coerce : (coerce raw t.type).whole? = some (t, n) ↔ t.Holds n ∧ Denotes raw n := by
  rw [coerce, literal?_type, denotes_iff_trim, ← readIntWithin_eq_some_iff]
  cases hread : readIntWithin t.bits (Text.trim raw.toList) with
  | none => simp [Value.whole?]
  | some m =>
    have hm := (readIntWithin_eq_some_iff.mp hread).1
    simp [whole?_value hm]

end IntegerType

/-- Text is read as a whole number exactly when it is, but for white space around it, the numeral of
a number that the type has room for, and stays text otherwise. So a wider type reads as the same
number what a narrower one reads, and the other way where the narrower one has room for the number.
The decimal text of a number, with any white space around it, is read as the number. -/
theorem integers_read (t : IntegerType) (raw : String) :
    (∀ n, (coerce raw t.type).whole? = some (t, n) ↔ t.Holds n ∧ Denotes raw n) ∧
    ((∀ n, t.Holds n → ¬ Denotes raw n) → coerce raw t.type = .string (unescapeSigil raw)) ∧
    (∀ wider : IntegerType, t.bits ≤ wider.bits → ∀ n,
      ((coerce raw t.type).whole? = some (t, n) →
        (coerce raw wider.type).whole? = some (wider, n)) ∧
      ((coerce raw wider.type).whole? = some (wider, n) → t.Holds n →
        (coerce raw t.type).whole? = some (t, n))) ∧
    (∀ v n lead trail, v.whole? = some (t, n) → Text.isBlank lead = true →
      Text.isBlank trail = true →
      coerce (String.ofList (lead ++ (intText n ++ trail))) t.type = v) := by
  refine ⟨fun n => IntegerType.whole?_coerce, fun hnone => ?_, fun wider hbits n => ⟨?_, ?_⟩, ?_⟩
  · have hread : readIntWithin t.bits (Text.trim raw.toList) = none := by
      apply Option.eq_none_iff_forall_not_mem.mpr
      intro n hn
      obtain ⟨hholds, hnumeral⟩ := IntegerType.readIntWithin_eq_some_iff.mp hn
      exact hnone n hholds (denotes_iff_trim.mpr hnumeral)
    rw [coerce, IntegerType.literal?_type, hread]
    rfl
  · intro h
    obtain ⟨hholds, hdenotes⟩ := IntegerType.whole?_coerce.mp h
    exact IntegerType.whole?_coerce.mpr ⟨hholds.wider hbits, hdenotes⟩
  · intro h hholds
    exact IntegerType.whole?_coerce.mpr ⟨hholds, (IntegerType.whole?_coerce.mp h).2⟩
  · intro v n lead trail hv hlead htrail
    obtain ⟨rfl, hholds⟩ := IntegerType.eq_value_of_whole? hv
    have hdenotes : Denotes (String.ofList (lead ++ (intText n ++ trail))) n :=
      ⟨lead, _, trail, String.toList_ofList, hlead, htrail, .ofInt n⟩
    have hread := IntegerType.whole?_coerce.mpr ⟨hholds, hdenotes⟩
    exact (IntegerType.eq_value_of_whole? hread).1

/-- The least number of a byte, with a leading zero and white space, and the number below it. -/
theorem integers_read_of_least :
    let least := " -0128\n"
    (IntegerType.byte.Holds (-128) ∧ Denotes least (-128) ∧
      (coerce least .byte).whole? = some (.byte, -128) ∧
      (coerce least .long).whole? = some (.long, -128)) ∧
    (∀ n, IntegerType.byte.Holds n → ¬ Denotes "-129" n) ∧
      coerce "-129" .byte = .string "-129" := by
  intro least
  have hleast : Denotes least (-128) := denotes_iff_trim.mpr (readInt_eq_some_iff.mp (by decide))
  have hholds : IntegerType.byte.Holds (-128) := by decide
  obtain ⟨hread, -, hwider, -⟩ := integers_read .byte least
  have hbyte := (hread (-128)).mpr ⟨hholds, hleast⟩
  have hlong := ((hwider .long (by decide)) (-128)).1 hbyte
  have hnone : ∀ n, IntegerType.byte.Holds n → ¬ Denotes "-129" n := by
    intro n hn hdenotes
    have hbelow : readInt (Text.trim "-129".toList) = some (-129) := by decide
    have hn' := readInt_eq_some_iff.mpr (denotes_iff_trim.mp hdenotes)
    obtain rfl : -129 = n := Option.some.inj (hbelow.symm.trans hn')
    revert hn
    decide
  exact ⟨⟨hholds, hleast, hbyte, hlong⟩, hnone, (integers_read .byte "-129").2.1 hnone⟩

end ObjectMarkup
