import Mathlib.Data.List.TakeWhile
import ObjectMarkup.Markup.Attribute

namespace ObjectMarkup.Markup

open Unicode

/-- A key with the white space before it and between it and the equals sign. -/
structure KeyLaid (lead key gap : List Char) : Prop where
  lead : ∀ c ∈ lead, isMarkupSpace c = true
  nonempty : key ≠ []
  head : ∀ c, key.head? = some c → isMarkupSpace c = false
  tail : ∀ c ∈ key.tail, isKeyChar c = true
  gap : ∀ c ∈ gap, isMarkupSpace c = true

theorem skipSpace_append {space : List Char} (h : ∀ c ∈ space, isMarkupSpace c = true)
    (rest : List Char) : skipSpace (space ++ rest) = skipSpace rest :=
  List.dropWhile_append_of_pos h

theorem skipSpace_of_head {cs : List Char}
    (h : ∀ c, cs.head? = some c → isMarkupSpace c = false) : skipSpace cs = cs := by
  cases cs with
  | nil => rfl
  | cons c cs => exact List.dropWhile_cons_of_neg (by simp [h c rfl])

theorem exists_skipSpace (cs : List Char) : ∃ space, cs = space ++ skipSpace cs ∧
    (∀ c ∈ space, isMarkupSpace c = true) ∧
      ∀ c, (skipSpace cs).head? = some c → isMarkupSpace c = false := by
  refine ⟨cs.takeWhile isMarkupSpace, (List.takeWhile_append_dropWhile).symm,
    fun c hc => List.mem_takeWhile_imp hc, fun c hc => ?_⟩
  have hhead := List.head?_dropWhile_not isMarkupSpace cs
  unfold skipSpace at hc
  rw [hc] at hhead
  simpa using hhead

theorem isMarkupSpace_equals : isMarkupSpace '=' = false := by decide

namespace KeyLaid

variable {lead key gap : List Char}

theorem skipSpace_eq (h : KeyLaid lead key gap) (rest : List Char) :
    skipSpace (lead ++ (key ++ rest)) = key ++ rest := by
  obtain ⟨c, k, rfl⟩ := List.exists_cons_of_ne_nil h.nonempty
  rw [skipSpace_append h.lead]
  exact skipSpace_of_head h.head

theorem splitKey_eq (h : KeyLaid lead key gap) (valued : List Char) :
    splitKey (key ++ (gap ++ '=' :: valued)) = .ok (key, valued) := by
  obtain ⟨c, k, rfl⟩ := List.exists_cons_of_ne_nil h.nonempty
  have htail : ∀ c ∈ k, isKeyChar c = true := h.tail
  -- What follows the key goes on with white space or the equals sign.
  obtain ⟨d, after, hafter, hd⟩ :
      ∃ d after, gap ++ '=' :: valued = d :: after ∧ isKeyChar d = false := by
    cases gap with
    | nil => exact ⟨'=', valued, rfl, rfl⟩
    | cons d gap => exact ⟨d, _, rfl, by simp [isKeyChar, h.gap d (by simp)]⟩
  have hdrop : (gap ++ '=' :: valued).dropWhile isKeyChar = gap ++ '=' :: valued := by
    rw [hafter, List.dropWhile_cons_of_neg (by simp [hd])]
  have htake : (gap ++ '=' :: valued).takeWhile isKeyChar = [] := by
    rw [hafter, List.takeWhile_cons_of_neg (by simp [hd])]
  have hequals : skipSpace ('=' :: valued) = '=' :: valued :=
    skipSpace_of_head (by rintro _ ⟨⟩; exact isMarkupSpace_equals)
  rw [List.cons_append, splitKey, List.dropWhile_append_of_pos htail, hdrop,
    skipSpace_append h.gap, hequals, List.takeWhile_append_of_pos htail, htake, List.append_nil]
  rfl

end KeyLaid

/-- A text in which a key is found begins with white space, the key and an equals sign. -/
theorem exists_keyLaid {cs key valued : List Char} (h : splitKey (skipSpace cs) = .ok (key, valued)) :
    ∃ lead gap, KeyLaid lead key gap ∧ cs = lead ++ (key ++ (gap ++ '=' :: valued)) := by
  obtain ⟨lead, hcs, hlead, hhead⟩ := exists_skipSpace cs
  generalize skipSpace cs = list at h hcs hhead
  cases list with
  | nil => cases h
  | cons c list =>
    obtain ⟨gap, hgap, hspace, -⟩ := exists_skipSpace (list.dropWhile isKeyChar)
    rw [splitKey] at h
    split at h
    · rename_i rest hequals
      cases h
      refine ⟨lead, gap, ⟨hlead, by simp, ?_, fun c hc => List.mem_takeWhile_imp hc, hspace⟩, ?_⟩
      · rintro _ ⟨⟩
        exact hhead c rfl
      · rw [hcs, ← hequals, ← hgap, List.cons_append, List.takeWhile_append_dropWhile]
    · cases h

/-- A text in which a value is found begins with it, and the same value is found whatever follows. -/
theorem exists_value {valued raw rest : List Char} (h : splitValue valued = .ok (raw, rest)) :
    ∃ front, valued = front ++ rest ∧ front ≠ [] ∧
      ∀ rest', splitValue (front ++ rest') = .ok (raw, rest') := by
  obtain ⟨space, hvalued, hspace, hhead⟩ := exists_skipSpace valued
  unfold splitValue at h
  generalize skipSpace valued = list at h hvalued hhead
  cases list with
  | nil => cases h
  | cons quote list =>
    dsimp only at h
    split at h
    · rename_i hquote
      split at h
      · cases h
      · rename_i d after hafter
        cases h
        have hd : d = quote := by
          have hnot := List.head?_dropWhile_not (fun c => decide (c ≠ quote)) list
          rw [hafter] at hnot
          simpa using hnot
        subst hd
        have hinner : ∀ c ∈ list.takeWhile (· ≠ d), decide (c ≠ d) = true :=
          fun c hc => List.mem_takeWhile_imp (p := fun c => decide (c ≠ d)) hc
        refine ⟨space ++ d :: (list.takeWhile (· ≠ d) ++ [d]), ?_, by simp, fun rest' => ?_⟩
        · have hlist := List.takeWhile_append_dropWhile (p := fun c => decide (c ≠ d)) (l := list)
          rw [hafter] at hlist
          rw [hvalued]
          simp only [List.append_assoc, List.cons_append, List.nil_append]
          rw [hlist]
        · have hskip : skipSpace (space ++ d :: (list.takeWhile (· ≠ d) ++ [d]) ++ rest') =
              d :: (list.takeWhile (· ≠ d) ++ d :: rest') := by
            rw [List.append_assoc, skipSpace_append hspace]
            simp only [List.append_assoc, List.cons_append, List.nil_append]
            exact skipSpace_of_head (by rintro _ ⟨⟩; exact hhead d rfl)
          unfold splitValue
          rw [hskip]
          dsimp only
          rw [if_pos hquote, List.dropWhile_append_of_pos hinner, List.takeWhile_append_of_pos hinner]
          simp
    · cases h

/-- A text after the name of a tag: a list of attributes, up to where no key or no value is found. -/
inductive Listed : List Char → Prop
  | unread {cs : List Char} {f : MarkupFault} (key : splitKey (skipSpace cs) = .error f) : Listed cs
  | valueless {lead key gap valued : List Char} {f : MarkupFault} (laid : KeyLaid lead key gap)
      (value : splitValue valued = .error f) : Listed (lead ++ (key ++ (gap ++ '=' :: valued)))
  | item {lead key gap front raw rest : List Char} (laid : KeyLaid lead key gap)
      (value : ∀ rest, splitValue (front ++ rest) = .ok (raw, rest)) (nonempty : front ≠ [])
      (more : Listed rest) : Listed (lead ++ (key ++ (gap ++ '=' :: (front ++ rest))))

theorem listed (cs : List Char) : Listed cs := by
  generalize hlength : cs.length = n
  induction n using Nat.strongRecOn generalizing cs with
  | ind n ih =>
    cases hkey : splitKey (skipSpace cs) with
    | error f => exact .unread hkey
    | ok p =>
      obtain ⟨key, valued⟩ := p
      obtain ⟨lead, gap, hlaid, rfl⟩ := exists_keyLaid hkey
      cases hvalue : splitValue valued with
      | error f => exact .valueless hlaid hvalue
      | ok p =>
        obtain ⟨raw, rest⟩ := p
        obtain ⟨front, rfl, hfront, hstays⟩ := exists_value hvalue
        refine .item hlaid hstays hfront (ih rest.length ?_ rest rfl)
        rw [← hlength]
        simp only [List.length_append, List.length_cons]
        omega

variable {cs lead key gap : List Char}

theorem attributesAfter_unread {f : MarkupFault} (h : splitKey (skipSpace cs) = .error f)
    (seen : List (List Char)) (fuel : Nat) :
    attributesAfter seen (fuel + 1) cs = if (skipSpace cs).isEmpty then .ok [] else .error f := by
  rw [attributesAfter]
  cases hlist : skipSpace cs with
  | nil => rfl
  | cons c rest =>
    rw [hlist] at h
    simp [nextAttribute, h]

theorem attributesAfter_key (h : KeyLaid lead key gap) (valued : List Char)
    (seen : List (List Char)) (fuel : Nat) :
    attributesAfter seen (fuel + 1) (lead ++ (key ++ (gap ++ '=' :: valued))) =
      if key ∈ seen then .error .duplicatedAttribute
      else
        match splitValue valued with
        | .error f => .error f
        | .ok (raw, rest) =>
          match unescape raw with
          | .error f => .error f
          | .ok value => (attributesAfter (key :: seen) fuel rest).map (⟨key, value⟩ :: ·) := by
  have hkey := h.splitKey_eq valued
  rw [attributesAfter, h.skipSpace_eq]
  obtain ⟨c, k, rfl⟩ := List.exists_cons_of_ne_nil h.nonempty
  rw [List.cons_append] at hkey ⊢
  simp only [nextAttribute, hkey]
  by_cases hseen : c :: k ∈ seen
  · rw [if_pos hseen, if_pos hseen]
  · rw [if_neg hseen, if_neg hseen]
    cases splitValue valued with
    | error f => rfl
    | ok p =>
      obtain ⟨raw, rest⟩ := p
      dsimp only
      cases unescape raw <;> rfl

end ObjectMarkup.Markup
