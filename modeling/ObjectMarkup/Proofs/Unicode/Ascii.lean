import Mathlib
import ObjectMarkup.Unicode.CaseMapping
import ObjectMarkup.Unicode.WhiteSpace

namespace ObjectMarkup.Unicode

def isAscii (c : Char) : Bool := c.toNat < 128

theorem isUpper_iff {c : Char} : c.isUpper = true ↔ 0x41 ≤ c.toNat ∧ c.toNat ≤ 0x5A := by
  simp [Char.isUpper, UInt32.le_iff_toNat_le]

theorem isLower_iff {c : Char} : c.isLower = true ↔ 0x61 ≤ c.toNat ∧ c.toNat ≤ 0x7A := by
  simp [Char.isLower, UInt32.le_iff_toNat_le]

theorem isAlpha_iff {c : Char} : c.isAlpha = true ↔
    (0x41 ≤ c.toNat ∧ c.toNat ≤ 0x5A) ∨ (0x61 ≤ c.toNat ∧ c.toNat ≤ 0x7A) := by
  rw [Char.isAlpha, Bool.or_eq_true, isUpper_iff, isLower_iff]

theorem isAscii_of_isAlpha {c : Char} (h : c.isAlpha = true) : isAscii c = true := by
  have hcode := isAlpha_iff.mp h
  exact decide_eq_true (by omega)

theorem isWhiteSpace_of_isAlpha {c : Char} (h : c.isAlpha = true) : isWhiteSpace c = false := by
  have hcode := isAlpha_iff.mp h
  simp only [isWhiteSpace, Bool.or_eq_false_iff, Bool.and_eq_false_iff, beq_eq_false_iff_ne,
    decide_eq_false_iff_not]
  omega

/-- A character is in lower case already, or it is a letter and so is its lower case. -/
theorem toLower_cases (c : Char) :
    c.toLower = c ∨ (c.isAlpha = true ∧ c.toLower.isAlpha = true) := by
  by_cases h : c.isUpper = true
  · have hletter : c.isAlpha = true := Bool.or_eq_true_iff.mpr (.inl h)
    exact .inr ⟨hletter, c.isAlpha_toLower_eq_isAlpha.trans hletter⟩
  · exact .inl (Char.toLower_eq_of_not_isUpper h)

/-- In a table whose other rows begin beyond ASCII, the first row alone decides on ASCII. -/
theorem shifted_ascii {first last : Nat} {distance : Int} {rest : List Shift}
    (h : ∀ s ∈ rest, 128 ≤ s.first) {c : Char} (hc : isAscii c = true) :
    shifted (⟨⟨first, last, 1⟩, distance⟩ :: rest) c =
      if first ≤ c.toNat ∧ c.toNat ≤ last then Char.ofNat (c.toNat + distance).toNat else c := by
  have hlt : c.toNat < 128 := of_decide_eq_true hc
  have hnone : (rest.find? fun s => s.holds c.toNat) = none := by
    refine List.find?_eq_none.mpr fun s hs hholds => ?_
    simp only [Stretch.holds, Bool.and_eq_true, decide_eq_true_eq] at hholds
    have hfirst : 128 ≤ s.first := h s hs
    omega
  rw [shifted, List.find?_cons, hnone]
  by_cases hrange : first ≤ c.toNat ∧ c.toNat ≤ last
  · simp [Stretch.holds, hrange, Nat.mod_one]
  · have hholds : Stretch.holds ⟨first, last, 1⟩ c.toNat = false := by
      simpa [Stretch.holds, Nat.mod_one] using hrange
    rw [hholds, if_neg hrange]

theorem lowerShifts_beyond : ∀ s ∈ lowerShifts.tail, 128 ≤ s.first := by
  have hrows : (lowerShifts.tail.all fun s => 128 ≤ s.first) = true := by cbv
  exact fun s hs => of_decide_eq_true (List.all_eq_true.mp hrows s hs)

theorem lowerOf_ascii {c : Char} (hc : isAscii c = true) : lowerOf c = [c.toLower] := by
  have hlt : c.toNat < 128 := of_decide_eq_true hc
  have hshifted : shifted lowerShifts c =
      if 0x41 ≤ c.toNat ∧ c.toNat ≤ 0x5A then Char.ofNat (c.toNat + 32 : Int).toNat else c :=
    shifted_ascii lowerShifts_beyond hc
  rw [lowerOf, if_neg (by omega), hshifted]
  by_cases hupper : c.isUpper = true
  · rw [if_pos (isUpper_iff.mp hupper), Char.toLower_eq_of_isUpper hupper]
    rfl
  · rw [if_neg fun hrange => hupper (isUpper_iff.mpr hrange), Char.toLower_eq_of_not_isUpper hupper]

theorem lowerFrom_ascii (before : List Char) {cs : List Char} (h : ∀ c ∈ cs, isAscii c = true) :
    lowerFrom before cs = cs.map Char.toLower := by
  induction cs generalizing before with
  | nil => rfl
  | cons c rest ih =>
    have hc : isAscii c = true := h c List.mem_cons_self
    have hsigma : c.toNat ≠ 0x3A3 := by
      have hlt : c.toNat < 128 := of_decide_eq_true hc
      omega
    rw [lowerFrom, if_neg hsigma, lowerOf_ascii hc, ih _ fun d hd => h d (List.mem_cons_of_mem _ hd)]
    rfl

/-- The code points that letters are mapped to: capital letters of ASCII, and characters beyond it. -/
def isLanding (n : Nat) : Bool :=
  (0x41 ≤ n && n ≤ 0x5A) || (0x80 ≤ n && n < 0xD800) || (0xE000 ≤ n && n < 0x110000)

/-- What expands lies beyond ASCII, and expands to letters and what follows them. -/
theorem upperExpansions_land : ∀ e ∈ upperExpansions,
    128 ≤ e.1 ∧ e.2 ≠ [] ∧ ∀ n ∈ e.2, isLanding n = true := by
  have hrows : (upperExpansions.all fun e => 128 ≤ e.1 && (!e.2.isEmpty && e.2.all isLanding)) =
      true := by
    cbv
  intro e he
  simpa using List.all_eq_true.mp hrows e he

/-- The ends of a stretch beyond ASCII land in one of the three ranges, and so does what is between
them. -/
theorem upperShifts_land : ∀ s ∈ upperShifts.tail, 128 ≤ s.first ∧
    ((0x41 ≤ s.first + s.distance ∧ s.last + s.distance ≤ 0x5A) ∨
      (0x80 ≤ s.first + s.distance ∧ s.last + s.distance < 0xD800) ∨
      (0xE000 ≤ s.first + s.distance ∧ s.last + s.distance < 0x110000)) := by
  decide +kernel

theorem upperOf_ascii {c : Char} (hc : isAscii c = true) : upperOf c = [c.toUpper] := by
  have hlt : c.toNat < 128 := of_decide_eq_true hc
  have hnone : (upperExpansions.find? fun e => e.1 == c.toNat) = none := by
    refine List.find?_eq_none.mpr fun e he hcode => ?_
    have hbeyond := (upperExpansions_land e he).1
    rw [eq_of_beq hcode] at hbeyond
    omega
  have hshifted : shifted upperShifts c =
      if 0x61 ≤ c.toNat ∧ c.toNat ≤ 0x7A then Char.ofNat (c.toNat + -32 : Int).toNat else c :=
    shifted_ascii (fun s hs => (upperShifts_land s hs).1) hc
  rw [upperOf, hnone, hshifted]
  by_cases hlower : c.isLower = true
  · have hcode : (c.toNat + -32 : Int).toNat = c.toNat - 32 := by omega
    rw [if_pos (isLower_iff.mp hlower), Char.toUpper_eq_of_isLower hlower, hcode]
  · rw [if_neg fun hrange => hlower (isLower_iff.mpr hrange), Char.toUpper_eq_of_not_isLower hlower]

/-- Characters that differ in the case of an ASCII letter have one upper case. -/
theorem upperOf_toLower (c : Char) : upperOf c.toLower = upperOf c := by
  rcases toLower_cases c with hsame | ⟨hletter, hlower⟩
  · rw [hsame]
  · rw [upperOf_ascii (isAscii_of_isAlpha hletter), upperOf_ascii (isAscii_of_isAlpha hlower),
      Char.toUpper_toLower_eq_toUpper]

theorem isUpper_of_isLanding {n : Nat} (h : isLanding n = true)
    (hascii : isAscii (Char.ofNat n) = true) : (Char.ofNat n).isUpper = true := by
  simp only [isLanding, Bool.or_eq_true, Bool.and_eq_true, decide_eq_true_eq] at h
  have hvalid : n.isValidChar := by
    unfold Nat.isValidChar
    omega
  have hcode : (Char.ofNat n).toNat = n := by rw [Char.toNat_ofNat, if_pos hvalid]
  have hlt : (Char.ofNat n).toNat < 128 := of_decide_eq_true hascii
  exact isUpper_iff.mpr (by omega)

theorem isLanding_of_holds {s : Shift} (hs : s ∈ upperShifts) {n : Nat} (hn : s.holds n = true) :
    isLanding (n + s.distance).toNat = true := by
  simp only [Stretch.holds, Bool.and_eq_true, decide_eq_true_eq] at hn
  simp only [isLanding, Bool.or_eq_true, Bool.and_eq_true, decide_eq_true_eq]
  rcases List.mem_cons.mp (show s ∈ ⟨⟨0x61, 0x7A, 1⟩, -32⟩ :: upperShifts.tail from hs) with rfl | hs
  · dsimp only at hn ⊢
    omega
  · have hland := (upperShifts_land s hs).2
    omega

theorem upperOf_ne_nil (c : Char) : upperOf c ≠ [] := by
  unfold upperOf
  split
  · rename_i e he
    have hne := (upperExpansions_land e (List.mem_of_find?_eq_some he)).2.1
    simpa using hne
  · exact List.cons_ne_nil _ _

/-- What is ASCII in the upper case of a character is a capital letter, or the character itself. -/
theorem mem_upperOf_ascii {c d : Char} (h : d ∈ upperOf c) (hd : isAscii d = true) :
    d.isUpper = true ∨ d = c := by
  unfold upperOf at h
  split at h
  · rename_i e he
    obtain ⟨n, hn, rfl⟩ := List.mem_map.mp h
    exact .inl (isUpper_of_isLanding
      ((upperExpansions_land e (List.mem_of_find?_eq_some he)).2.2 n hn) hd)
  · rw [List.mem_singleton.mp h, shifted] at hd ⊢
    split at hd
    · rename_i s hs
      have hholds : s.holds c.toNat = true := by simpa using List.find?_some hs
      exact .inl (isUpper_of_isLanding
        (isLanding_of_holds (List.mem_of_find?_eq_some hs) hholds) hd)
    · exact .inr rfl

/-- What is ASCII in the upper case of a character stays as it is in upper case. -/
theorem upperOf_of_mem_upperOf {c d : Char} (h : d ∈ upperOf c) (hd : isAscii d = true) :
    upperOf d = [d] := by
  rcases mem_upperOf_ascii h hd with hupper | rfl
  · rw [upperOf_ascii hd, Char.toUpper_eq_of_not_isLower (Char.not_isLower_of_isUpper hupper)]
  · rw [upperOf_ascii hd] at h ⊢
    rw [← List.mem_singleton.mp h]

end ObjectMarkup.Unicode
