import Mathlib.Data.Set.Card
import Mathlib.Logic.Function.Basic
import ObjectMarkup.Collections
import ObjectMarkup.Heap

namespace ObjectMarkup

inductive EntryChange where
  | put (key : String) (value : Value)
  | remove (key : String)
  deriving DecidableEq, Repr

namespace EntryChange

def key : EntryChange → String
  | .put key _ => key
  | .remove key => key

def value? : EntryChange → Option Value
  | .put _ value => some value
  | .remove _ => none

/-- Changes an object that is a dictionary, and gives what was under the key; `none` for other
objects. -/
def run? (h : Heap) (id : ObjectId) : EntryChange → Option (Option Value × Heap)
  | .put key value => h.putEntry? id key value
  | .remove key => h.removeEntry? id key

def runAll? (h : Heap) (id : ObjectId) (changes : List EntryChange) :
    Option (List (Option Value) × Heap) :=
  changes.foldlM (fun (answers, h) c => (c.run? h id).map fun (old, h) => (answers ++ [old], h))
    ([], h)

/-- The map that changes in a row denote, from the one without keys on. -/
def denoted (changes : List EntryChange) : String → Option Value :=
  changes.foldl (fun map c => Function.update map c.key c.value?) fun _ => none

/-- The key is stored and not removed later. -/
def IsStored (changes : List EntryChange) (key : String) : Prop :=
  ∃ (i : Nat) (value : Value), changes[i]? = some (.put key value) ∧
    ∀ j, i < j → changes[j]? ≠ some (.remove key)

/-- The change at `i` is the first to store the key since its last removal. -/
@[mk_iff]
structure StoredAt (changes : List EntryChange) (key : String) (i : Nat) : Prop where
  stores : ∃ value, changes[i]? = some (.put key value)
  kept : ∀ j, i < j → changes[j]? ≠ some (.remove key)
  first : ∀ j value, j < i → changes[j]? = some (.put key value) →
    ∃ k, j < k ∧ k < i ∧ changes[k]? = some (.remove key)

def apply (m : OrderedMap String Value) : EntryChange → OrderedMap String Value
  | .put key value => m.insert key value
  | .remove key => m.erase key

def entries (changes : List EntryChange) : OrderedMap String Value := changes.foldl apply .empty

variable {changes : List EntryChange} {c d : EntryChange} {key : String} {i : Nat}

theorem entries_concat (changes : List EntryChange) (c : EntryChange) :
    entries (changes ++ [c]) = c.apply (entries changes) := by
  simp [entries]

theorem denoted_concat (changes : List EntryChange) (c : EntryChange) (key : String) :
    denoted (changes ++ [c]) key = if c.key = key then c.value? else denoted changes key := by
  simp [denoted, Function.update_apply, eq_comm]

theorem getElem?_concat_eq_some :
    (changes ++ [c])[i]? = some d ↔ changes[i]? = some d ∨ i = changes.length ∧ d = c := by
  rcases Nat.lt_trichotomy i changes.length with hi | rfl | hi
  · rw [List.getElem?_append_left hi]
    exact ⟨.inl, fun h => h.resolve_right fun he => Nat.ne_of_lt hi he.1⟩
  · simp [eq_comm]
  · rw [List.getElem?_eq_none (by simpa using hi), List.getElem?_eq_none (Nat.le_of_lt hi)]
    simp [Nat.ne_of_gt hi]

theorem getElem?_concat_of_ne (h : c.key ≠ d.key) :
    (changes ++ [c])[i]? = some d ↔ changes[i]? = some d := by
  rw [getElem?_concat_eq_some]
  exact ⟨fun hd => hd.resolve_right fun he => h (congrArg _ he.2.symm), .inl⟩

theorem lt_length_of_getElem? (h : changes[i]? = some c) : i < changes.length := by
  obtain ⟨hi, -⟩ := List.getElem?_eq_some_iff.mp h
  exact hi

theorem StoredAt.lt_length (h : StoredAt changes key i) : i < changes.length := by
  obtain ⟨value, hvalue⟩ := h.stores
  exact lt_length_of_getElem? hvalue

theorem isStored_concat (changes : List EntryChange) (c : EntryChange) (key : String) :
    IsStored (changes ++ [c]) key ↔
      if c.key = key then c.value?.isSome = true else IsStored changes key := by
  by_cases hkey : c.key = key
  · subst hkey
    rw [if_pos rfl]
    cases c with
    | put key value =>
      refine ⟨fun _ => rfl, fun _ => ⟨changes.length, value, by simp [EntryChange.key], ?_⟩⟩
      intro j hj
      rw [List.getElem?_eq_none (by simpa using hj)]
      nofun
    | remove key =>
      refine ⟨fun h => ?_, nofun⟩
      obtain ⟨i, value, hput, hkept⟩ := h
      rcases getElem?_concat_eq_some.mp hput with hput | ⟨-, he⟩
      · exact absurd (by simp [EntryChange.key]) (hkept _ (lt_length_of_getElem? hput))
      · cases he
  · rw [if_neg hkey]
    simp only [IsStored, ne_eq, getElem?_concat_of_ne (d := .put key _) hkey,
      getElem?_concat_of_ne (d := .remove key) hkey]

theorem storedAt_concat_of_ne (h : c.key ≠ key) :
    StoredAt (changes ++ [c]) key i ↔ StoredAt changes key i := by
  simp only [storedAt_iff, ne_eq, getElem?_concat_of_ne (d := .put key _) h,
    getElem?_concat_of_ne (d := .remove key) h]

theorem not_storedAt_remove : ¬StoredAt (changes ++ [.remove key]) key i := by
  intro h
  have hi := h.lt_length
  obtain ⟨value, hvalue⟩ := h.stores
  rcases getElem?_concat_eq_some.mp hvalue with hput | ⟨-, he⟩
  · exact h.kept changes.length (lt_length_of_getElem? hput) (by simp)
  · cases he

theorem StoredAt.unique {j : Nat} (h : StoredAt changes key i) (h' : StoredAt changes key j) :
    i = j := by
  obtain ⟨value, hvalue⟩ := h.stores
  obtain ⟨value', hvalue'⟩ := h'.stores
  rcases Nat.lt_trichotomy i j with hlt | heq | hlt
  · obtain ⟨k, hik, -, hremove⟩ := h'.first i value hlt hvalue
    exact absurd hremove (h.kept k hik)
  · exact heq
  · obtain ⟨k, hjk, -, hremove⟩ := h.first j value' hlt hvalue'
    exact absurd hremove (h'.kept k hjk)

/-- A key that is there stays stored where it was. -/
theorem StoredAt.put_again {value : Value} (h : StoredAt changes key i) :
    StoredAt (changes ++ [.put key value]) key i := by
  obtain ⟨⟨old, hold⟩, hkept, hfirst⟩ := h
  refine ⟨⟨old, getElem?_concat_eq_some.mpr (.inl hold)⟩, ?_, ?_⟩
  · intro j hj hremove
    rcases getElem?_concat_eq_some.mp hremove with hremove | ⟨-, he⟩
    · exact hkept j hj hremove
    · cases he
  · intro j other hj hput
    rcases getElem?_concat_eq_some.mp hput with hput | ⟨rfl, -⟩
    · obtain ⟨k, hjk, hki, hremove⟩ := hfirst j other hj hput
      exact ⟨k, hjk, hki, getElem?_concat_eq_some.mpr (.inl hremove)⟩
    · exact absurd (lt_length_of_getElem? hold) (Nat.not_lt_of_lt hj)

theorem storedAt_put_new {value : Value} (h : ¬IsStored changes key) :
    StoredAt (changes ++ [.put key value]) key changes.length := by
  refine ⟨⟨value, by simp⟩, ?_, ?_⟩
  · intro j hj
    rw [List.getElem?_eq_none (by simpa using hj)]
    nofun
  · intro j old hj hput
    rcases getElem?_concat_eq_some.mp hput with hput | ⟨rfl, -⟩
    · -- the store at `j` is no longer in force, so that the key was removed after it
      have hremoved : ∃ k, j < k ∧ changes[k]? = some (.remove key) := by
        by_contra hnone
        exact h ⟨j, old, hput, fun k hk hremove => hnone ⟨k, hk, hremove⟩⟩
      obtain ⟨k, hjk, hremove⟩ := hremoved
      exact ⟨k, hjk, lt_length_of_getElem? hremove, getElem?_concat_eq_some.mpr (.inl hremove)⟩
    · exact absurd hj (Nat.lt_irrefl _)

theorem get?_apply (c : EntryChange) (m : OrderedMap String Value) (key : String) :
    (c.apply m).get? key = if c.key = key then c.value? else m.get? key := by
  cases c with
  | put => exact OrderedMap.get?_insert ..
  | remove => exact OrderedMap.get?_erase ..

theorem get?_entries (changes : List EntryChange) (key : String) :
    (entries changes).get? key = denoted changes key := by
  induction changes using List.reverseRecOn with
  | nil => rfl
  | append_singleton changes c ih => rw [entries_concat, get?_apply, denoted_concat, ih]

theorem isStored_iff (changes : List EntryChange) (key : String) :
    IsStored changes key ↔ (denoted changes key).isSome := by
  induction changes using List.reverseRecOn with
  | nil => simp [IsStored, denoted]
  | append_singleton changes c ih =>
    rw [isStored_concat, denoted_concat]
    split
    · exact Iff.rfl
    · exact ih

theorem mem_keys_entries (changes : List EntryChange) (key : String) :
    key ∈ (entries changes).keys ↔ IsStored changes key := by
  rw [OrderedMap.mem_keys_iff, get?_entries, isStored_iff]

/-- The keys are distinct and stand in the order in which they were stored. -/
structure Ordered (changes : List EntryChange) (keys : List String) : Prop where
  nodup : keys.Nodup
  stored : ∀ key ∈ keys, ∃ i, StoredAt changes key i
  sorted : keys.Pairwise fun a b => ∀ i j, StoredAt changes a i → StoredAt changes b j → i < j

theorem Ordered.remove {keys : List String} (h : Ordered changes keys) (key : String) :
    Ordered (changes ++ [.remove key]) (keys.filter fun k => k ≠ key) := by
  have hother : ∀ k i, StoredAt (changes ++ [.remove key]) k i → StoredAt changes k i := by
    intro k i hk
    by_cases hkey : key = k
    · subst hkey
      exact absurd hk not_storedAt_remove
    · exact (storedAt_concat_of_ne (c := .remove key) hkey).mp hk
  refine ⟨h.nodup.filter _, ?_, ?_⟩
  · intro k hk
    obtain ⟨hmem, hne⟩ := List.mem_filter.mp hk
    obtain ⟨i, hi⟩ := h.stored k hmem
    have hkey : key ≠ k := fun he => by simp [he] at hne
    exact ⟨i, (storedAt_concat_of_ne (c := .remove key) hkey).mpr hi⟩
  · exact (h.sorted.filter _).imp fun hab i j ha hb => hab i j (hother _ i ha) (hother _ j hb)

theorem Ordered.put_again {keys : List String} {value : Value} (h : Ordered changes keys)
    (hkey : key ∈ keys) : Ordered (changes ++ [.put key value]) keys := by
  have hback : ∀ k i, StoredAt (changes ++ [.put key value]) k i → StoredAt changes k i := by
    intro k i hk
    by_cases he : key = k
    · subst he
      obtain ⟨j, hj⟩ := h.stored key hkey
      rwa [hk.unique hj.put_again]
    · exact (storedAt_concat_of_ne (c := .put key value) he).mp hk
  refine ⟨h.nodup, ?_, h.sorted.imp fun hab i j ha hb => hab i j (hback _ i ha) (hback _ j hb)⟩
  intro k hk
  obtain ⟨i, hi⟩ := h.stored k hk
  by_cases he : key = k
  · subst he
    exact ⟨i, hi.put_again⟩
  · exact ⟨i, (storedAt_concat_of_ne (c := .put key value) he).mpr hi⟩

theorem Ordered.put_new {keys : List String} {value : Value} (h : Ordered changes keys)
    (hkey : key ∉ keys) (hnew : ¬IsStored changes key) :
    Ordered (changes ++ [.put key value]) (keys ++ [key]) := by
  have hother : ∀ k ∈ keys, ∀ i, StoredAt (changes ++ [.put key value]) k i ↔
      StoredAt changes k i := by
    intro k hk i
    refine storedAt_concat_of_ne (c := .put key value) fun he => hkey ?_
    exact (show key = k from he) ▸ hk
  have hlast : StoredAt (changes ++ [.put key value]) key changes.length := storedAt_put_new hnew
  refine ⟨?_, ?_, List.pairwise_append.mpr ⟨?_, List.pairwise_singleton _ _, ?_⟩⟩
  · exact List.nodup_append.mpr ⟨h.nodup, List.nodup_singleton _, by grind⟩
  · intro k hk
    rcases List.mem_append.mp hk with hk | hk
    · obtain ⟨i, hi⟩ := h.stored k hk
      exact ⟨i, (hother k hk i).mpr hi⟩
    · cases List.mem_singleton.mp hk
      exact ⟨_, hlast⟩
  · refine h.sorted.imp_of_mem fun ha hb hab i j hi hj => ?_
    exact hab i j ((hother _ ha i).mp hi) ((hother _ hb j).mp hj)
  · intro a ha b hb i j hi hj
    cases List.mem_singleton.mp hb
    rw [hj.unique hlast]
    exact ((hother a ha i).mp hi).lt_length

theorem ordered_entries (changes : List EntryChange) : Ordered changes (entries changes).keys := by
  induction changes using List.reverseRecOn with
  | nil => exact ⟨List.nodup_nil, nofun, List.Pairwise.nil⟩
  | append_singleton changes c ih =>
    rw [entries_concat]
    cases c with
    | remove key =>
      rw [apply, OrderedMap.keys_erase]
      exact ih.remove key
    | put key value =>
      rw [apply, OrderedMap.keys_insert]
      split
      · rename_i hkey
        exact ih.put_again hkey
      · rename_i hkey
        exact ih.put_new hkey fun hstored => hkey ((mem_keys_entries changes key).mpr hstored)

variable {h : Heap} {id : ObjectId} {m : OrderedMap String Value}

theorem run?_of_dictionary (hid : id.index < h.size) (hm : (h.object id).dictionary = some m)
    (c : EntryChange) :
    ∃ h', c.run? h id = some (m.get? c.key, h') ∧ (h'.object id).dictionary = some (c.apply m) ∧
      h'.size = h.size := by
  cases c with
  | put key value =>
    refine ⟨_, by simp only [run?, Heap.putEntry?, hm, Option.map_some, EntryChange.key]; rfl, ?_, ?_⟩
    · simp [Heap.object_update, hid, apply]
    · exact Heap.size_update ..
  | remove key =>
    refine ⟨_, by simp only [run?, Heap.removeEntry?, hm, Option.map_some, EntryChange.key]; rfl,
      ?_, ?_⟩
    · simp [Heap.object_update, hid, apply]
    · exact Heap.size_update ..

theorem runAll?_concat (h : Heap) (id : ObjectId) (changes : List EntryChange) (c : EntryChange) :
    runAll? h id (changes ++ [c]) = (runAll? h id changes).bind fun (answers, h) =>
      (c.run? h id).map fun (old, h) => (answers ++ [old], h) := by
  simp [runAll?]

/-- Changes to a dictionary without entries succeed, and each finds what those before it denote. -/
theorem runAll?_of_empty (hid : id.index < h.size)
    (hnew : (h.object id).dictionary = some .empty) (changes : List EntryChange) :
    ∃ answers h', runAll? h id changes = some (answers, h') ∧
      (h'.object id).dictionary = some (entries changes) ∧ h'.size = h.size ∧
      answers.length = changes.length ∧ ∀ i c, changes[i]? = some c →
        answers[i]? = some (denoted (changes.take i) c.key) := by
  induction changes using List.reverseRecOn with
  | nil => exact ⟨[], h, rfl, hnew, rfl, rfl, nofun⟩
  | append_singleton changes c ih =>
    obtain ⟨answers, h', hrun, hentries, hsize, hlength, hanswers⟩ := ih
    obtain ⟨h'', hstep, hentries', hsize'⟩ := run?_of_dictionary (hsize ▸ hid) hentries c
    refine ⟨answers ++ [(entries changes).get? c.key], h'', ?_, ?_, hsize'.trans hsize, ?_, ?_⟩
    · rw [runAll?_concat, hrun, Option.bind_some]
      simp only [hstep, Option.map_some]
    · rw [hentries', entries_concat]
    · simp [hlength]
    · intro i d hd
      rcases getElem?_concat_eq_some.mp hd with hd | ⟨rfl, rfl⟩
      · have hi := lt_length_of_getElem? hd
        rw [List.getElem?_append_left (hlength ▸ hi), List.take_append_of_le_length (Nat.le_of_lt hi)]
        exact hanswers i d hd
      · rw [← hlength, List.getElem?_concat_length, hlength, List.take_left' rfl, get?_entries]

end EntryChange

open EntryChange (IsStored StoredAt denoted)

/-- The entries of a map after any stores and removals: the keys are distinct, they are those stored
and not removed since, and they stand in the order in which each was first stored after its last
removal. Lookups and the number of keys are those of the finite map that the changes denote, and each
change has answered with what that map had under its key. A further store leaves a present key where
it is, also when a document makes it, and a further removal leaves the order of the others alone. -/
theorem entries_follow_changes (h : Heap) (id : ObjectId) (hid : id.index < h.size)
    (hnew : (h.object id).dictionary = some .empty) (changes : List EntryChange) :
    ∃ answers h' m, EntryChange.runAll? h id changes = some (answers, h') ∧
      (h'.object id).dictionary = some m ∧
      (m.keys.Nodup ∧ (∀ key, key ∈ m.keys ↔ IsStored changes key) ∧
        (∀ key ∈ m.keys, ∃! i, StoredAt changes key i) ∧
        m.keys.Pairwise fun a b => ∀ i j, StoredAt changes a i → StoredAt changes b j → i < j) ∧
      (∀ key, m.get? key = denoted changes key ∧
        m.contains key = (denoted changes key).isSome ∧
        (key ∈ m.keys ↔ (denoted changes key).isSome)) ∧
      m.size = Set.ncard {key | (denoted changes key).isSome} ∧
      (answers.length = changes.length ∧ ∀ i c, changes[i]? = some c →
        answers[i]? = some (denoted (changes.take i) c.key)) ∧
      (∀ key value, ∃ h'' m'', h'.putEntry? id key value = some (m.get? key, h'') ∧
        h'.put id key value = .ok h'' ∧ (h''.object id).dictionary = some m'' ∧
        m''.keys = if key ∈ m.keys then m.keys else m.keys ++ [key]) ∧
      ∀ key, ∃ h'' m'', h'.removeEntry? id key = some (m.get? key, h'') ∧
        (h''.object id).dictionary = some m'' ∧ m''.keys = m.keys.filter fun k => k ≠ key := by
  obtain ⟨answers, h', hrun, hentries, hsize, hlength, hanswers⟩ :=
    EntryChange.runAll?_of_empty hid hnew changes
  have hordered := EntryChange.ordered_entries changes
  have hid' : id.index < h'.size := hsize ▸ hid
  have hkeys : ∀ key, key ∈ (EntryChange.entries changes).keys ↔ (denoted changes key).isSome := by
    intro key
    rw [EntryChange.mem_keys_entries, EntryChange.isStored_iff]
  refine ⟨answers, h', EntryChange.entries changes, hrun, hentries,
    ⟨hordered.nodup, EntryChange.mem_keys_entries changes, ?_, hordered.sorted⟩, ?_, ?_,
    ⟨hlength, hanswers⟩, ?_, ?_⟩
  · intro key hkey
    obtain ⟨i, hi⟩ := hordered.stored key hkey
    exact ⟨i, hi, fun j hj => hj.unique hi⟩
  · intro key
    refine ⟨EntryChange.get?_entries changes key, ?_, hkeys key⟩
    rw [OrderedMap.contains, EntryChange.get?_entries]
  · have hdomain : {key | (denoted changes key).isSome = true} =
        ((EntryChange.entries changes).keys.toFinset : Set String) := by
      ext key
      simp [hkeys]
    rw [hdomain, Set.ncard_coe_finset, List.toFinset_card_of_nodup hordered.nodup]
    simp [OrderedMap.size, OrderedMap.keys]
  · intro key value
    obtain ⟨h'', hput, hdictionary, -⟩ :=
      EntryChange.run?_of_dictionary hid' hentries (.put key value)
    refine ⟨h'', _, hput, ?_, hdictionary, OrderedMap.keys_insert ..⟩
    simp only [EntryChange.run?, Heap.putEntry?, hentries, Option.map_some, Option.some.injEq,
      Prod.mk.injEq] at hput
    simp only [Heap.put, Object.put, Object.access?, hentries]
    exact congrArg Except.ok hput.2
  · intro key
    obtain ⟨h'', hremove, hdictionary, -⟩ :=
      EntryChange.run?_of_dictionary hid' hentries (.remove key)
    exact ⟨h'', _, hremove, hdictionary, OrderedMap.keys_erase ..⟩

/-- A key that is stored again keeps its place; one that is removed and stored again comes last. -/
theorem entries_follow_changes_of_stored_again :
    let h : Heap := ⟨[.hashMap]⟩
    let changes : List EntryChange :=
      [.put "a" (.string "1"), .put "b" (.string "2"), .put "c" (.string "3"), .put "b" .null,
        .remove "a", .put "a" (.string "4")]
    0 < h.size ∧ (h.object ⟨0⟩).dictionary = some .empty ∧
      ∃ answers h' m, EntryChange.runAll? h ⟨0⟩ changes = some (answers, h') ∧
        (h'.object ⟨0⟩).dictionary = some m ∧ m.keys = ["b", "c", "a"] ∧
        answers = [none, none, none, some (.string "2"), some (.string "1"), none] ∧
        (∀ key ∈ ["b", "c", "a"], ∃! i, StoredAt changes key i) ∧
        3 = Set.ncard {key | (denoted changes key).isSome} := by
  intro h changes
  have hnew : (h.object ⟨0⟩).dictionary = some .empty := rfl
  refine ⟨Nat.one_pos, hnew, ?_⟩
  obtain ⟨answers, h', m, hrun, hm, ⟨-, -, hstored, -⟩, -, hsize, -⟩ :=
    entries_follow_changes h ⟨0⟩ Nat.one_pos hnew changes
  have hresult : (EntryChange.runAll? h ⟨0⟩ changes).map
      (fun (answers, h') => (answers, (h'.object ⟨0⟩).dictionary.map OrderedMap.keys)) =
      some ([none, none, none, some (.string "2"), some (.string "1"), none],
        some ["b", "c", "a"]) := by
    decide +kernel
  simp only [hrun, hm, Option.map_some, Option.some.injEq, Prod.mk.injEq] at hresult
  obtain ⟨hanswers, hkeys⟩ := hresult
  refine ⟨answers, h', m, hrun, hm, hkeys, hanswers, hkeys ▸ hstored, ?_⟩
  rw [← hsize, OrderedMap.size, ← List.length_map Prod.fst]
  exact (congrArg List.length hkeys).symm

end ObjectMarkup
