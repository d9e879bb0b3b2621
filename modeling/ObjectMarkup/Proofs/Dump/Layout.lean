import ObjectMarkup.Dump
import ObjectMarkup.Proofs.Renaming.Object

namespace ObjectMarkup

namespace OrderedMap

variable {κ α : Type} [DecidableEq κ] {m : OrderedMap κ α}

theorem insert_of_not_mem {key : κ} (h : key ∉ m.keys) (value : α) :
    m.insert key value = ⟨m.entries ++ [(key, value)]⟩ := by
  obtain ⟨entries⟩ := m
  simp only [keys, insert, mk.injEq] at h ⊢
  induction entries with
  | nil => rfl
  | cons e rest ih =>
    obtain ⟨k, v⟩ := e
    simp only [List.map_cons, List.mem_cons, not_or] at h
    simp [insertEntry, Ne.symm h.1, ih h.2]

theorem insertAll_of_nodup {entries : List (κ × α)}
    (h : (m.keys ++ entries.map Prod.fst).Nodup) :
    m.insertAll entries = ⟨m.entries ++ entries⟩ := by
  induction entries generalizing m with
  | nil => simp [insertAll]
  | cons e rest ih =>
    have hnew : e.1 ∉ m.keys := by
      intro hmem
      exact (List.nodup_append.mp h).2.2 _ hmem e.1 (by simp) rfl
    have hstored := insert_of_not_mem hnew e.2
    have hrest : ((m.insert e.1 e.2).keys ++ rest.map Prod.fst).Nodup := by
      simpa [hstored, keys] using h
    rw [insertAll, List.foldl_cons, ← insertAll, ih hrest, hstored]
    simp

end OrderedMap

namespace Dump

section

variable {α β σ : Type} (f : σ → α → β × σ)

theorem thread_append (s : σ) (xs ys : List α) :
    thread f s (xs ++ ys) =
      ((thread f s xs).1 ++ (thread f (thread f s xs).2 ys).1,
        (thread f (thread f s xs).2 ys).2) := by
  induction xs generalizing s with
  | nil => rfl
  | cons x xs ih => simp [thread, ih]

@[simp] theorem length_thread (s : σ) (xs : List α) : (thread f s xs).1.length = xs.length := by
  induction xs generalizing s with
  | nil => rfl
  | cons x xs ih => simp [thread, ih]

end

/-- What an object holds, in the order in which it is rendered. -/
def children (o : Object) : List Value :=
  match o.listeners with
  | some listeners => listeners.map .object
  | none => o.properties.map (fun p => p.2.getD .null) ++ o.items

/-- An object whose property names tell its properties apart, as the keys of entries and the names
in a declaration do, and also from the type and the items. -/
structure Named (o : Object) : Prop where
  distinct : (o.properties.map Prod.fst).Nodup
  notType : "$type" ∉ o.properties.map Prod.fst
  notItems : "$items" ∉ o.properties.map Prod.fst

/-- The JSON of an object, given that of its children. -/
def layout (o : Object) (parts : List Json) : Json :=
  if o.listeners.isSome ∨ o.access?.isNone ∧ o.sequence.isSome then .array parts
  else
    let names := o.properties.map Prod.fst
    .object ⟨("$type", .string o.typeName) :: names.zip parts ++
      if o.items.isEmpty then [] else [("$items", .array (parts.drop names.length))]⟩

def reference (o : Object) : Json := .object ⟨[("$ref", .string o.typeName)]⟩

/-- Members with names that can be told apart are stored as they are. -/
theorem members_of_nodup {names : List String} {values : List Json} (items : List Json)
    (typeName : String) (hlength : values.length = names.length) (hdistinct : names.Nodup)
    (htype : "$type" ∉ names) (hitems : "$items" ∉ names) :
    members typeName (names.zip values) items =
      ⟨("$type", .string typeName) :: names.zip values ++
        if items.isEmpty then [] else [("$items", .array items)]⟩ := by
  have hkeys : (names.zip values).map Prod.fst = names := List.map_fst_zip (by omega)
  have hstored : (OrderedMap.empty.insert "$type" (Json.string typeName)).insertAll
      (names.zip values) = ⟨("$type", .string typeName) :: names.zip values⟩ := by
    apply OrderedMap.insertAll_of_nodup
    rw [hkeys]
    exact List.nodup_cons.mpr ⟨htype, hdistinct⟩
  unfold members
  dsimp only
  rw [hstored]
  split
  · simp
  · refine OrderedMap.insert_of_not_mem ?_ _
    simpa [OrderedMap.keys, hkeys] using hitems

/-- An object that is no list of listeners, laid out from its properties and its items. -/
theorem layout_append {o : Object} {values items : List Json} (hnamed : Named o)
    (hlisteners : o.listeners = none) (hvalues : values.length = o.properties.length)
    (hitems : items.length = o.items.length) :
    layout o (values ++ items) =
      if o.access?.isNone ∧ o.sequence.isSome then .array items
      else .object (members o.typeName ((o.properties.map Prod.fst).zip values) items) := by
  have hlength : values.length = (o.properties.map Prod.fst).length := by simpa using hvalues
  have hempty : o.items.isEmpty = items.isEmpty := by
    rw [Bool.eq_iff_iff, List.isEmpty_iff_length_eq_zero, List.isEmpty_iff_length_eq_zero, hitems]
  by_cases harray : o.access?.isNone ∧ o.sequence.isSome
  · -- There are no properties, so the parts are the items.
    have hproperties : o.properties = [] := by
      simp [Object.properties, Option.isNone_iff_eq_none.mp harray.1]
    have hnone : values = [] := List.eq_nil_of_length_eq_zero (by simp [hvalues, hproperties])
    simp [layout, harray, hnone]
  · have hzip : (o.properties.map Prod.fst ++ []).zip (values ++ items) =
        (o.properties.map Prod.fst).zip values ++ [].zip items := List.zip_append hlength.symm
    rw [List.append_nil, List.zip_nil_left, List.append_nil] at hzip
    have hmembers := members_of_nodup items o.typeName hlength hnamed.distinct hnamed.notType
      hnamed.notItems
    simp only [layout, hlisteners, harray, or_false, if_false, Option.isSome_none,
      Bool.false_eq_true, hzip, hempty, hmembers, ← hlength, List.drop_left]

variable {heap : Heap} {fuel : Nat} {seen : List ObjectId} {value : Value} {id : ObjectId}

theorem render_of_not_object (h : value.object? = none) :
    render heap fuel seen value = (scalar value, seen) := by
  cases fuel with
  | zero => rfl
  | succ fuel =>
    cases value with
    | object id => cases h
    | _ => rfl

theorem render_of_mem (h : id ∈ seen) :
    render heap (fuel + 1) seen (.object id) = (reference (heap.object id), seen) := by
  simp only [render, h, if_true]
  rfl

/-- An object that is new is laid out from its children, each rendered after the one before. -/
theorem render_of_not_mem (h : id ∉ seen) (hnamed : Named (heap.object id)) :
    let rendered := thread (render heap fuel) (id :: seen) (children (heap.object id))
    render heap (fuel + 1) seen (.object id) =
      (layout (heap.object id) rendered.1, rendered.2) := by
  simp only [render, h, if_false, children]
  cases hlisteners : (heap.object id).listeners with
  | some listeners => simp [layout, hlisteners]
  | none =>
    dsimp only
    rw [thread_append, layout_append hnamed hlisteners (by simp) (by simp)]
    split <;> rfl

end Dump

end ObjectMarkup
