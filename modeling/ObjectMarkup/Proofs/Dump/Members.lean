import ObjectMarkup.Demo.Objects
import ObjectMarkup.Document.Read
import ObjectMarkup.Proofs.Dump.Expansion
import ObjectMarkup.Proofs.Json.Distinct

namespace ObjectMarkup

namespace OrderedMap

variable {κ α : Type} [DecidableEq κ]

theorem get?_insertAll_of_not_mem (m : OrderedMap κ α) {entries : List (κ × α)} {key : κ}
    (h : key ∉ entries.map Prod.fst) : (m.insertAll entries).get? key = m.get? key := by
  induction entries generalizing m with
  | nil => rfl
  | cons e rest ih =>
    rw [List.map_cons, List.mem_cons, not_or] at h
    rw [insertAll_cons, ih _ h.2, get?_insert, if_neg (Ne.symm h.1)]

theorem get?_insertAll_of_last (m : OrderedMap κ α) (before : List (κ × α)) (key : κ) (value : α)
    {after : List (κ × α)} (h : key ∉ after.map Prod.fst) :
    (m.insertAll (before ++ (key, value) :: after)).get? key = some value := by
  rw [insertAll_append, insertAll_cons, get?_insertAll_of_not_mem _ h, get?_insert, if_pos rfl]

theorem mem_keys_insert (m : OrderedMap κ α) (key other : κ) (value : α) :
    other ∈ (m.insert key value).keys ↔ other = key ∨ other ∈ m.keys := by
  rw [keys_insert]
  split
  · rename_i hkey
    exact ⟨.inr, fun h => h.elim (· ▸ hkey) id⟩
  · rw [List.mem_append, List.mem_singleton, or_comm]

theorem mem_keys_insertAll (m : OrderedMap κ α) (entries : List (κ × α)) (key : κ) :
    key ∈ (m.insertAll entries).keys ↔ key ∈ entries.map Prod.fst ∨ key ∈ m.keys := by
  induction entries generalizing m with
  | nil => simp [insertAll]
  | cons e rest ih =>
    rw [insertAll_cons, ih, mem_keys_insert, List.map_cons, List.mem_cons]
    tauto

end OrderedMap

namespace Dump

/-- What the members of an object hold of its type name, its properties and its items. A property
that is named like the member for the type stands in its place, and the items stand in that of a
property that is named like their member. -/
structure Keeps (typeName : String) (properties : List (String × Json)) (items : List Json)
    (m : OrderedMap String Json) : Prop where
  distinct : m.keys.Nodup
  keys : ∀ name, name ∈ m.keys ↔
    name = "$type" ∨ name ∈ properties.map Prod.fst ∨ name = "$items" ∧ items ≠ []
  type : "$type" ∉ properties.map Prod.fst → m.get? "$type" = some (.string typeName)
  property : ∀ before name part after, properties = before ++ (name, part) :: after →
    name ∉ after.map Prod.fst → (name = "$items" → items = []) → m.get? name = some part
  items : items ≠ [] → m.get? "$items" = some (.array items)

variable {typeName : String} {properties : List (String × Json)} {items : List Json}

theorem keeps_nil (typeName : String) (properties : List (String × Json)) :
    Keeps typeName properties []
      ((OrderedMap.empty.insert "$type" (.string typeName)).insertAll properties) where
  distinct := by
    apply OrderedMap.nodup_keys_insertAll
    apply OrderedMap.nodup_keys_insert
    exact List.nodup_nil
  keys name := by
    rw [OrderedMap.mem_keys_insertAll, OrderedMap.mem_keys_insert]
    simp [OrderedMap.keys, OrderedMap.empty, or_comm]
  type h := by
    rw [OrderedMap.get?_insertAll_of_not_mem _ h, OrderedMap.get?_insert, if_pos rfl]
  property before name part after heq hlast _ := by
    rw [heq, OrderedMap.get?_insertAll_of_last _ _ _ _ hlast]
  items h := absurd rfl h

/-- Items take the name that is theirs, and leave what stands under the others. -/
theorem Keeps.insert_items {m : OrderedMap String Json} (h : Keeps typeName properties [] m)
    (hitems : items ≠ []) :
    Keeps typeName properties items (m.insert "$items" (.array items)) where
  distinct := OrderedMap.nodup_keys_insert h.distinct _ _
  keys name := by
    rw [OrderedMap.mem_keys_insert, h.keys]
    simp only [ne_eq, not_true_eq_false, and_false, or_false, hitems, not_false_eq_true, and_true]
    tauto
  type htype := by
    rw [OrderedMap.get?_insert, if_neg (by decide), h.type htype]
  property before name part after heq hlast hname := by
    have hother : "$items" ≠ name := fun heq => hitems (hname heq.symm)
    rw [OrderedMap.get?_insert, if_neg hother]
    exact h.property before name part after heq hlast fun _ => rfl
  items _ := by
    rw [OrderedMap.get?_insert, if_pos rfl]

theorem keeps_members (typeName : String) (properties : List (String × Json))
    (items : List Json) : Keeps typeName properties items (members typeName properties items) := by
  cases items with
  | nil => exact keeps_nil typeName properties
  | cons item items => exact (keeps_nil typeName properties).insert_items (List.cons_ne_nil _ _)

/-- An object that becomes an array: listeners, or items without properties. -/
def IsArray (o : Object) : Prop := o.listeners.isSome ∨ o.access?.isNone ∧ o.sequence.isSome

/-- The values of the properties, where one that holds nothing counts as null. -/
def propertyValues (o : Object) : List Value := o.properties.map fun p => p.2.getD .null

/-- The JSON of values one after another, where the objects in the first list have been seen before
and those in the last one have been seen afterwards. What an object holds is rendered after the
object has been seen, its properties first. -/
inductive Renders (heap : Heap) :
    List ObjectId → List Value → List Json → List ObjectId → Prop where
  | nil {seen : List ObjectId} : Renders heap seen [] [] seen
  | scalar {seen later : List ObjectId} {value : Value} {rest : List Value} {parts : List Json}
      (h : value.object? = none) (hrest : Renders heap seen rest parts later) :
      Renders heap seen (value :: rest) (scalar value :: parts) later
  | again {seen later : List ObjectId} {id : ObjectId} {rest : List Value} {parts : List Json}
      (h : id ∈ seen) (hrest : Renders heap seen rest parts later) :
      Renders heap seen (.object id :: rest) (reference (heap.object id) :: parts) later
  | array {seen seen' later : List ObjectId} {id : ObjectId} {rest : List Value}
      {held parts : List Json} (h : id ∉ seen) (harray : IsArray (heap.object id))
      (hheld : Renders heap (id :: seen) (children (heap.object id)) held seen')
      (hrest : Renders heap seen' rest parts later) :
      Renders heap seen (.object id :: rest) (.array held :: parts) later
  | object {seen between seen' later : List ObjectId} {id : ObjectId} {rest : List Value}
      {values items parts : List Json} {m : OrderedMap String Json} (h : id ∉ seen)
      (hobject : ¬IsArray (heap.object id))
      (hvalues : Renders heap (id :: seen) (propertyValues (heap.object id)) values between)
      (hitems : Renders heap between (heap.object id).items items seen')
      (hkeeps : Keeps (heap.object id).typeName
        (((heap.object id).properties.map Prod.fst).zip values) items m)
      (hrest : Renders heap seen' rest parts later) :
      Renders heap seen (.object id :: rest) (.object m :: parts) later

variable {heap : Heap} {seen seen' later : List ObjectId} {values others : List Value}
  {parts more : List Json} {id : ObjectId} {o : Object} {fuel : Nat}

namespace Renders

theorem append (h : Renders heap seen values parts seen')
    (hmore : Renders heap seen' others more later) :
    Renders heap seen (values ++ others) (parts ++ more) later := by
  induction h with
  | nil => exact hmore
  | scalar hscalar _ ih => exact .scalar hscalar (ih hmore)
  | again hmem _ ih => exact .again hmem (ih hmore)
  | array hnew harray hheld _ _ ih => exact .array hnew harray hheld (ih hmore)
  | object hnew hobject hvalues hitems hkeeps _ _ _ ih =>
    exact .object hnew hobject hvalues hitems hkeeps (ih hmore)

theorem subset (h : Renders heap seen values parts later) : seen ⊆ later := by
  induction h with
  | nil => exact List.Subset.refl _
  | scalar _ _ ih => exact ih
  | again _ _ ih => exact ih
  | array _ _ _ _ ihheld ihrest =>
    exact fun _ h => ihrest (ihheld (List.mem_cons_of_mem _ h))
  | object _ _ _ _ _ _ ihvalues ihitems ihrest =>
    exact fun _ h => ihrest (ihitems (ihvalues (List.mem_cons_of_mem _ h)))

end Renders

theorem render_of_array (h : id ∉ seen) (harray : IsArray (heap.object id)) :
    let rendered := thread (render heap fuel) (id :: seen) (children (heap.object id))
    render heap (fuel + 1) seen (.object id) = (.array rendered.1, rendered.2) := by
  simp only [render, h, if_false, children]
  cases hlisteners : (heap.object id).listeners with
  | some listeners => rfl
  | none =>
    have hitems := harray.resolve_left (by simp [hlisteners])
    have hproperties : (heap.object id).properties = [] := by
      simp [Object.properties, Option.isNone_iff_eq_none.mp hitems.1]
    simp [hitems, hproperties, thread]

theorem render_of_members (h : id ∉ seen) (hobject : ¬IsArray (heap.object id)) :
    let values := thread (render heap fuel) (id :: seen) (propertyValues (heap.object id))
    let items := thread (render heap fuel) values.2 (heap.object id).items
    render heap (fuel + 1) seen (.object id) =
      (.object (members (heap.object id).typeName
        (((heap.object id).properties.map Prod.fst).zip values.1) items.1), items.2) := by
  rw [IsArray, not_or] at hobject
  have hlisteners := Option.not_isSome_iff_eq_none.mp hobject.1
  simp only [render, h, if_false, hlisteners, hobject.2, propertyValues]

/-- Values are rendered one after another as each of them is by itself. -/
theorem renders_thread
    (hrender : ∀ seen value, (unseen heap seen).card < fuel →
      Renders heap seen [value] [(render heap fuel seen value).1] (render heap fuel seen value).2)
    (hfuel : values ≠ [] → (unseen heap seen).card < fuel) :
    Renders heap seen values (thread (render heap fuel) seen values).1
      (thread (render heap fuel) seen values).2 := by
  induction values generalizing seen with
  | nil => exact .nil
  | cons value values ih =>
    have hroom := hfuel (List.cons_ne_nil _ _)
    have hfirst := hrender seen value hroom
    have hless := Finset.card_le_card (unseen_subset heap hfirst.subset)
    exact hfirst.append (ih fun _ => Nat.lt_of_le_of_lt hless hroom)

/-- With more fuel than there are unseen objects, every value is rendered in full. -/
theorem renders_render (seen : List ObjectId) (value : Value)
    (hfuel : (unseen heap seen).card < fuel) :
    Renders heap seen [value] [(render heap fuel seen value).1]
      (render heap fuel seen value).2 := by
  induction fuel generalizing seen value with
  | zero => omega
  | succ fuel ih =>
    cases value with
    | object id =>
      by_cases hmem : id ∈ seen
      · rw [render_of_mem hmem]
        exact .again hmem .nil
      -- Only an object that holds something needs room, and then there is less left to see.
      have hroom : children (heap.object id) ≠ [] → (unseen heap (id :: seen)).card < fuel := by
        intro hchildren
        have hless := card_unseen_lt hmem hchildren
        omega
      by_cases harray : IsArray (heap.object id)
      · rw [render_of_array hmem harray]
        exact .array hmem harray (renders_thread ih hroom) .nil
      · have hchildren : children (heap.object id) =
            propertyValues (heap.object id) ++ (heap.object id).items := by
          have hlisteners := Option.not_isSome_iff_eq_none.mp (not_or.mp harray).1
          rw [children, hlisteners, propertyValues]
        rw [hchildren, ne_eq, List.append_eq_nil_iff, not_and_or] at hroom
        have hvalues := renders_thread ih fun h => hroom (.inl h)
        have hless := Finset.card_le_card (unseen_subset heap hvalues.subset)
        have hitems := renders_thread ih fun h => Nat.lt_of_le_of_lt hless (hroom (.inr h))
        rw [render_of_members hmem harray]
        exact .object hmem harray hvalues hitems (keeps_members _ _ _) .nil
    | _ =>
      rw [render_of_not_object rfl]
      exact .scalar rfl .nil

/-- Every object that a dump writes out as a JSON object has a member for its type, one for each
name of a property and, if it has any, one for its items. The member for the type is its name unless
a property has that name. That of a property is its rendered value unless it is where the items
stand. The items are never lost. -/
theorem members_kept (heap : Heap) (value : Value) :
    ∃ later, Renders heap [] [value] [json heap value] later :=
  ⟨_, renders_render [] value (by simp [card_unseen_nil])⟩

/-- A document chooses the names, and so the name of a type may be lost, and so may an entry with an
object that nothing else refers to. -/
theorem members_lost :
    let r : Reader :=
      { Reader.plain with environment := { Reader.plain.environment with types := Demo.types } }
    let read := fun source : String => (r.parse Reader.read source.toList none).perform .initial
    let named := read "<HashMap xmlns='wtkx.collections' $type='x'/>"
    let filled := read ("<Both xmlns='demo' xmlns:c='wtkx.collections'>" ++
      "<$items><c:ArrayList/></$items>text</Both>")
    (named.1.toOption.map Document.root = some (.object ⟨0⟩) ∧
      (named.2.heap.object ⟨0⟩).typeName = "HashMap" ∧
      (named.2.heap.object ⟨0⟩).properties = [("$type", some (.string "x"))] ∧
      json named.2.heap (.object ⟨0⟩) = .object ⟨[("$type", .string "x")]⟩) ∧
    filled.1.toOption.map Document.root = some (.object ⟨0⟩) ∧
      (filled.2.heap.object ⟨0⟩).properties = [("$items", some (.object ⟨1⟩))] ∧
      (filled.2.heap.object ⟨0⟩).items = [.string "text"] ∧
      json filled.2.heap (.object ⟨0⟩) =
        .object ⟨[("$type", .string "Both"), ("$items", .array [.string "text"])]⟩ := by
  intro r read named filled
  have hnamed : named.1.toOption.map Document.root = some (.object ⟨0⟩) ∧
      named.2.heap = ⟨[{ Object.hashMap with
        dictionary := some ⟨[("$type", .string "x")]⟩ }]⟩ := by
    decide +kernel
  have hfilled : filled.1.toOption.map Document.root = some (.object ⟨0⟩) ∧
      filled.2.heap = ⟨[{ Demo.both.root with
        dictionary := some ⟨[("$items", .object ⟨1⟩)]⟩
        sequence := some ⟨[.string "text"], none, none⟩ }, .arrayList]⟩ := by
    decide +kernel
  rw [hnamed.2, hfilled.2]
  exact ⟨⟨hnamed.1, rfl, rfl, rfl⟩, hfilled.1, rfl, rfl, rfl⟩

end Dump

end ObjectMarkup
