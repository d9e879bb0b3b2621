import ObjectMarkup.Json.Reader

namespace ObjectMarkup

namespace OrderedMap

variable {κ α : Type} [DecidableEq κ]

theorem nodup_keys_insertAll {m : OrderedMap κ α} (h : m.keys.Nodup) (entries : List (κ × α)) :
    (m.insertAll entries).keys.Nodup := by
  induction entries generalizing m with
  | nil => exact h
  | cons e rest ih => exact ih (nodup_keys_insert h e.1 e.2)

/-- What is found after entries have been stored is one of them, or was there before. -/
theorem exists_of_get?_insertAll {m : OrderedMap κ α} {entries : List (κ × α)} {key : κ} {value : α}
    (h : (m.insertAll entries).get? key = some value) :
    (key, value) ∈ entries ∨ m.get? key = some value := by
  induction entries generalizing m with
  | nil => exact .inr h
  | cons e rest ih =>
    rcases ih h with hmem | hfound
    · exact .inl (List.mem_cons_of_mem _ hmem)
    · rw [get?_insert] at hfound
      split at hfound
      · rename_i hkey
        cases hfound
        exact .inl (hkey ▸ List.mem_cons_self)
      · exact .inr hfound

end OrderedMap

namespace Json

/-- In the value, and in every object below it, no two members have one name. -/
def Distinct (j : Json) : Prop :=
  ∀ path members, j.descend? path = some (.object members) → members.keys.Nodup

variable {j : Json} {members : OrderedMap String Json}

theorem distinct_of_not_object (h : ∀ members, j ≠ .object members) : j.Distinct := by
  intro path members hpath
  cases path with
  | nil => exact absurd (Option.some.inj hpath) (h members)
  | cons name path =>
    cases j with
    | object own => exact absurd rfl (h own)
    | _ => cases hpath

theorem distinct_object (hkeys : members.keys.Nodup)
    (h : ∀ name value, members.get? name = some value → value.Distinct) :
    (object members).Distinct := by
  intro path inner hpath
  cases path with
  | nil =>
    cases hpath
    exact hkeys
  | cons name path =>
    obtain ⟨value, hvalue, hrest⟩ := Option.bind_eq_some_iff.mp hpath
    exact h name value hvalue path inner hrest

theorem Distinct.keys (h : (object members).Distinct) : members.keys.Nodup := h [] members rfl

theorem Distinct.member (h : (object members).Distinct) {name : String} {value : Json}
    (hvalue : members.get? name = some value) : value.Distinct := by
  intro path inner hpath
  exact h (name :: path) inner (Option.bind_eq_some_iff.mpr ⟨value, hvalue, hpath⟩)

/-- What is read, if anything is, is no object. -/
def Flat (read : Option (Json × List Char)) : Prop :=
  ∀ j rest, read = some (j, rest) → ∀ members, j ≠ .object members

namespace Flat

theorem double (negative : Bool) (significand : Nat) (exponent : Int) (rest : List Char) :
    Flat ((double? negative significand exponent).map fun x => (x, rest)) := by
  rintro _ _ hread members rfl
  obtain ⟨x, hx, heq⟩ := Option.map_eq_some_iff.mp hread
  cases heq
  unfold double? at hx
  grind

theorem integer (n : Int) (rest : List Char) : Flat (some (.integer n, rest)) := by
  rintro _ _ ⟨rfl, rfl⟩ members ⟨⟩

theorem finish (negative : Bool) (significand : Nat) (exponent : Int)
    (part : Option (Int × List Char)) : Flat (number.finish negative significand exponent part) := by
  cases part with
  | none => exact fun _ _ h => nomatch h
  | some part => exact double negative significand _ _

theorem ending (negative isWhole : Bool) (significand : Nat) (exponent : Int) (rest : List Char) :
    Flat (match rest with
      | 'e' :: rest => number.finish negative significand exponent (exponentPart rest)
      | 'E' :: rest => number.finish negative significand exponent (exponentPart rest)
      | rest =>
        if isWhole ∧ !negative then some (.integer significand, rest)
        else if isWhole ∧ 0 < significand ∧ significand ≤ maxNegative then
          some (.integer (-(significand : Int)), rest)
        else (double? negative significand exponent).map fun x => (x, rest)) := by
  split
  · exact finish _ _ _ _
  · exact finish _ _ _ _
  · split
    · exact integer _ _
    · split
      · exact integer _ _
      · exact double _ _ _ _

theorem number (cs : List Char) : Flat (number cs) := by
  unfold Json.number
  dsimp only
  split
  all_goals
    dsimp only
    split
    · exact fun _ _ h => by cases h
    · split
      · split
        · exact fun _ _ h => by cases h
        · exact ending _ _ _ _ _
      · exact ending _ _ _ _ _

end Flat

variable {fuel depth : Nat} {cs rest : List Char} {ms : List (String × Json)}

/-- A value has distinct names where the values of the members in it have. -/
theorem distinct_of_value
    (hmembers : ∀ depth cs ms rest, Json.members fuel depth cs = some (ms, rest) →
      ∀ m ∈ ms, m.2.Distinct)
    (h : value (fuel + 1) depth cs = some (j, rest)) : j.Distinct := by
  unfold value at h
  split at h
  -- Of the forms of a value only an object has members: they are stored one after another.
  case h_6 =>
    split at h
    · cases h
    · split at h
      · cases h
        exact distinct_object List.nodup_nil fun name value hfound => by cases hfound
      · obtain ⟨⟨ms, rest'⟩, hread, heq⟩ := Option.map_eq_some_iff.mp h
        cases heq
        have hempty : (OrderedMap.empty : OrderedMap String Json).keys.Nodup := List.nodup_nil
        refine distinct_object (OrderedMap.nodup_keys_insertAll hempty ms) ?_
        intro name value hfound
        rcases OrderedMap.exists_of_get?_insertAll hfound with hmem | hempty
        · exact hmembers _ _ ms _ hread _ hmem
        · cases hempty
  case h_5 =>
    refine distinct_of_not_object fun members hj => ?_
    subst hj
    split at h
    · cases h
    · split at h
      · cases h
      · simp at h
  case h_4 =>
    refine distinct_of_not_object fun members hj => ?_
    subst hj
    simp at h
  case h_7 => exact distinct_of_not_object (Flat.number _ j rest h)
  all_goals
    cases h
    exact distinct_of_not_object nofun

/-- The members that are read have such values where each value has that is read. -/
theorem distinct_of_members
    (hvalue : ∀ depth cs j rest, value fuel depth cs = some (j, rest) → j.Distinct)
    (hmembers : ∀ depth cs ms rest, Json.members fuel depth cs = some (ms, rest) →
      ∀ m ∈ ms, m.2.Distinct)
    (h : Json.members (fuel + 1) depth cs = some (ms, rest)) : ∀ m ∈ ms, m.2.Distinct := by
  unfold Json.members at h
  split at h
  · split at h
    · cases h
    · split at h
      · split at h
        · cases h
        · rename_i first _ hread
          dsimp only at h
          split at h
          · obtain ⟨⟨ms', rest'⟩, hrest, heq⟩ := Option.map_eq_some_iff.mp h
            cases heq
            exact List.forall_mem_cons.mpr ⟨hvalue _ _ first _ hread, hmembers _ _ ms' _ hrest⟩
          · cases h
            exact List.forall_mem_singleton.mpr (hvalue _ _ first _ hread)
          · cases h
      · cases h
  · cases h

/-- What is read has distinct names, and so has the value of each member that is read. -/
theorem distinct_of_read (fuel : Nat) :
    (∀ depth cs j rest, value fuel depth cs = some (j, rest) → j.Distinct) ∧
      ∀ depth cs ms rest, Json.members fuel depth cs = some (ms, rest) →
        ∀ m ∈ ms, m.2.Distinct := by
  induction fuel with
  | zero => exact ⟨fun _ _ _ _ h => (nomatch h), fun _ _ _ _ h => (nomatch h)⟩
  | succ fuel ih =>
    obtain ⟨hvalue, hmembers⟩ := ih
    exact ⟨fun _ _ _ _ h => distinct_of_value hmembers h,
      fun _ _ _ _ h => distinct_of_members hvalue hmembers h⟩

theorem distinct_ofBytes {bytes : Bytes} (h : ofBytes? bytes = some j) : j.Distinct := by
  unfold ofBytes? ofText? at h
  split at h
  · split at h
    · rename_i hread
      split at h
      · cases h
        exact (distinct_of_read _).1 _ _ _ _ hread
      · cases h
    · cases h
  · cases h

end Json

end ObjectMarkup
