namespace ObjectMarkup

/-- Keys with their values, in the order in which the keys were first stored. -/
structure OrderedMap (κ α : Type) where
  entries : List (κ × α)
  deriving DecidableEq, Repr, Inhabited

namespace OrderedMap

variable {κ α : Type} [DecidableEq κ]

def empty : OrderedMap κ α := ⟨[]⟩

instance : EmptyCollection (OrderedMap κ α) := ⟨empty⟩

def find? (key : κ) : List (κ × α) → Option α
  | [] => none
  | (k, v) :: rest => if k = key then some v else find? key rest

def get? (m : OrderedMap κ α) (key : κ) : Option α := find? key m.entries

def contains (m : OrderedMap κ α) (key : κ) : Bool := (m.get? key).isSome

def keys (m : OrderedMap κ α) : List κ := m.entries.map Prod.fst

def size (m : OrderedMap κ α) : Nat := m.entries.length

def isEmpty (m : OrderedMap κ α) : Bool := m.entries.isEmpty

/-- Stores `value` under `key`: in place of the old value, or else at the end. -/
def insertEntry (key : κ) (value : α) : List (κ × α) → List (κ × α)
  | [] => [(key, value)]
  | (k, v) :: rest =>
    if k = key then (k, value) :: rest else (k, v) :: insertEntry key value rest

/-- Stores `value` under `key`. A present key keeps its place. -/
def insert (m : OrderedMap κ α) (key : κ) (value : α) : OrderedMap κ α :=
  ⟨insertEntry key value m.entries⟩

def erase (m : OrderedMap κ α) (key : κ) : OrderedMap κ α :=
  ⟨m.entries.filter fun e => e.1 ≠ key⟩

/-- Stores a list of entries one after another, so that the last one under a key wins. -/
def insertAll (m : OrderedMap κ α) (entries : List (κ × α)) : OrderedMap κ α :=
  entries.foldl (fun m e => m.insert e.1 e.2) m

def ofList (entries : List (κ × α)) : OrderedMap κ α := empty.insertAll entries

@[simp] theorem get?_empty (key : κ) : (empty : OrderedMap κ α).get? key = none := rfl

theorem find?_insertEntry (key other : κ) (value : α) (entries : List (κ × α)) :
    find? other (insertEntry key value entries) =
      if key = other then some value else find? other entries := by
  induction entries with
  | nil => simp [insertEntry, find?]
  | cons e rest ih =>
    obtain ⟨k, v⟩ := e
    by_cases hk : k = key
    · subst hk
      by_cases ho : k = other <;> simp [insertEntry, find?, ho]
    · by_cases ho : k = other
      · subst ho
        simp [insertEntry, find?, hk, Ne.symm hk]
      · simp [insertEntry, find?, hk, ho, ih]

theorem get?_insert (m : OrderedMap κ α) (key other : κ) (value : α) :
    (m.insert key value).get? other = if key = other then some value else m.get? other :=
  find?_insertEntry key other value m.entries

theorem get?_erase (m : OrderedMap κ α) (key other : κ) :
    (m.erase key).get? other = if key = other then none else m.get? other := by
  obtain ⟨entries⟩ := m
  simp only [erase, get?]
  induction entries with
  | nil => simp [find?]
  | cons e rest ih =>
    obtain ⟨k, v⟩ := e
    by_cases hk : k = key
    · subst hk
      by_cases ho : k = other
      · simpa [find?, ho] using ih
      · simpa [find?, ho] using ih
    · by_cases ho : k = other
      · subst ho
        simp [find?, hk, Ne.symm hk]
      · simpa [find?, hk, ho] using ih

theorem mem_keys_iff (m : OrderedMap κ α) (key : κ) :
    key ∈ m.keys ↔ (m.get? key).isSome := by
  obtain ⟨entries⟩ := m
  simp only [keys, get?]
  induction entries with
  | nil => simp [find?]
  | cons e rest ih =>
    obtain ⟨k, v⟩ := e
    by_cases hk : k = key
    · simp [find?, hk]
    · simpa [find?, hk, Ne.symm hk] using ih

/-- A store leaves the keys as they are, or adds its own at the end. -/
theorem keys_insert (m : OrderedMap κ α) (key : κ) (value : α) :
    (m.insert key value).keys = if key ∈ m.keys then m.keys else m.keys ++ [key] := by
  obtain ⟨entries⟩ := m
  simp only [keys, insert]
  induction entries with
  | nil => simp [insertEntry]
  | cons e rest ih =>
    obtain ⟨k, v⟩ := e
    by_cases hk : k = key
    · simp [insertEntry, hk]
    · by_cases hm : key ∈ rest.map Prod.fst <;>
        simp_all [insertEntry, Ne.symm hk]

theorem keys_erase (m : OrderedMap κ α) (key : κ) :
    (m.erase key).keys = m.keys.filter fun k => k ≠ key := by
  simp [keys, erase, List.filter_map, Function.comp_def]

theorem nodup_keys_insert {m : OrderedMap κ α} (h : m.keys.Nodup) (key : κ) (value : α) :
    (m.insert key value).keys.Nodup := by
  rw [keys_insert]
  split
  · exact h
  · rename_i hkey
    refine List.nodup_append.mpr ⟨h, by simp, ?_⟩
    intro k hk other hother heq
    cases List.mem_singleton.mp hother
    exact hkey (heq ▸ hk)

theorem insertAll_cons (m : OrderedMap κ α) (e : κ × α) (entries : List (κ × α)) :
    m.insertAll (e :: entries) = (m.insert e.1 e.2).insertAll entries := rfl

theorem insertAll_append (m : OrderedMap κ α) (before after : List (κ × α)) :
    m.insertAll (before ++ after) = (m.insertAll before).insertAll after :=
  List.foldl_append

/-- A map stored on top of another hides what the other holds under its keys. -/
theorem get?_insertAll (m : OrderedMap κ α) {top : OrderedMap κ α} (h : top.keys.Nodup) (key : κ) :
    (m.insertAll top.entries).get? key = (top.get? key).or (m.get? key) := by
  obtain ⟨entries⟩ := top
  simp only [keys, get?] at h ⊢
  induction entries generalizing m with
  | nil => rfl
  | cons e rest ih =>
    obtain ⟨k, v⟩ := e
    obtain ⟨hnew, hrest⟩ := List.nodup_cons.mp h
    have hfold : m.insertAll ((k, v) :: rest) = (m.insert k v).insertAll rest := rfl
    rw [hfold, ih (m.insert k v) hrest]
    change (find? key rest).or ((m.insert k v).get? key) = _
    rw [get?_insert]
    by_cases hk : k = key
    · subst hk
      have hmem := (not_congr (mem_keys_iff ⟨rest⟩ k)).mp hnew
      have hnone : find? k rest = none := by simpa [get?] using hmem
      simp [find?, hnone]
    · simp [find?, hk, get?]

end OrderedMap

end ObjectMarkup
