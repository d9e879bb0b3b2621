import Mathlib.Data.Finset.Card
import ObjectMarkup.Proofs.Dump.Layout

namespace ObjectMarkup.Dump

/-- A place where an object occurs, and whether the object is written out there. -/
structure Occurrence where
  object : ObjectId
  isWhole : Bool
  deriving DecidableEq

/-- The JSON of values one after another, with the occurrences of objects in it from left to right.
An object that is written out comes before what it holds. -/
inductive Shows (heap : Heap) : List Value → List Occurrence → List Json → Prop where
  | nil : Shows heap [] [] []
  | scalar {value : Value} {rest : List Value} {occurrences : List Occurrence} {parts : List Json}
      (h : value.object? = none) (hrest : Shows heap rest occurrences parts) :
      Shows heap (value :: rest) occurrences (scalar value :: parts)
  | again {id : ObjectId} {rest : List Value} {occurrences : List Occurrence} {parts : List Json}
      (hrest : Shows heap rest occurrences parts) :
      Shows heap (.object id :: rest) (⟨id, false⟩ :: occurrences)
        (reference (heap.object id) :: parts)
  | whole {id : ObjectId} {inner occurrences : List Occurrence} {held parts : List Json}
      {rest : List Value} (hinner : Shows heap (children (heap.object id)) inner held)
      (hrest : Shows heap rest occurrences parts) :
      Shows heap (.object id :: rest) (⟨id, true⟩ :: (inner ++ occurrences))
        (layout (heap.object id) held :: parts)

/-- Going through occurrences, where exactly the objects that are not among those seen before are
written out. They are among those seen afterwards. -/
inductive Sees : List ObjectId → List Occurrence → List ObjectId → Prop where
  | nil {seen : List ObjectId} : Sees seen [] seen
  | again {seen seen' : List ObjectId} {id : ObjectId} {rest : List Occurrence} (h : id ∈ seen)
      (hrest : Sees seen rest seen') : Sees seen (⟨id, false⟩ :: rest) seen'
  | first {seen seen' : List ObjectId} {id : ObjectId} {rest : List Occurrence} (h : id ∉ seen)
      (hrest : Sees (id :: seen) rest seen') : Sees seen (⟨id, true⟩ :: rest) seen'

/-- An object that a value leads to. -/
inductive LeadsTo (heap : Heap) : Value → ObjectId → Prop where
  | here {id : ObjectId} : LeadsTo heap (.object id) id
  | inside {id other : ObjectId} {value : Value} (h : value ∈ children (heap.object id))
      (hrest : LeadsTo heap value other) : LeadsTo heap (.object id) other

variable {heap : Heap} {seen seen' later : List ObjectId} {occurrences more : List Occurrence}
  {values others : List Value} {parts rest : List Json} {id : ObjectId}

namespace Sees

theorem append (h : Sees seen occurrences seen') (hmore : Sees seen' more later) :
    Sees seen (occurrences ++ more) later := by
  induction h with
  | nil => exact hmore
  | again hmem _ ih => exact .again hmem (ih hmore)
  | first hnew _ ih => exact .first hnew (ih hmore)

theorem exists_of_append (h : Sees seen (occurrences ++ more) later) :
    ∃ seen', Sees seen occurrences seen' ∧ Sees seen' more later := by
  induction occurrences generalizing seen with
  | nil => exact ⟨seen, .nil, h⟩
  | cons o occurrences ih =>
    cases h with
    | again hmem hrest =>
      obtain ⟨seen', hfront, hback⟩ := ih hrest
      exact ⟨seen', .again hmem hfront, hback⟩
    | first hnew hrest =>
      obtain ⟨seen', hfront, hback⟩ := ih hrest
      exact ⟨seen', .first hnew hfront, hback⟩

theorem unique (h : Sees seen occurrences seen') (h' : Sees seen occurrences later) :
    seen' = later := by
  induction h with
  | nil =>
    cases h'
    rfl
  | again _ _ ih =>
    cases h' with
    | again _ hrest => exact ih hrest
  | first _ _ ih =>
    cases h' with
    | first _ hrest => exact ih hrest

/-- The objects seen afterwards are those seen before and those that occur. -/
theorem mem_iff (h : Sees seen occurrences seen') :
    id ∈ seen' ↔ id ∈ seen ∨ id ∈ occurrences.map Occurrence.object := by
  induction h with
  | nil => simp
  | again hmem _ ih =>
    rw [ih, List.map_cons, List.mem_cons]
    constructor
    · exact Or.imp_right .inr
    · rintro (hseen | rfl | hrest)
      · exact .inl hseen
      · exact .inl hmem
      · exact .inr hrest
  | first _ _ ih =>
    rw [ih, List.map_cons, List.mem_cons, List.mem_cons]
    tauto

/-- What has been seen once stays seen, so an object that was seen is not written out, and every
other one is written out once if it occurs. -/
theorem count_whole (h : Sees seen occurrences seen') :
    occurrences.count ⟨id, true⟩ =
      if id ∉ seen ∧ id ∈ occurrences.map Occurrence.object then 1 else 0 := by
  induction h with
  | nil => simp
  | again hmem _ ih =>
    rw [List.count_cons_of_ne (by simp), ih, List.map_cons]
    refine if_congr (and_congr_right fun hnew => ?_) rfl rfl
    rw [List.mem_cons]
    exact ⟨.inr, fun h => h.resolve_left fun heq => hnew (heq ▸ hmem)⟩
  | @first _ _ other _ hnew _ ih =>
    by_cases heq : other = id
    · subst heq
      simp [ih, hnew]
    · rw [List.count_cons_of_ne (by simpa using heq), ih]
      simp [Ne.symm heq]

/-- Starting from nothing, exactly the first occurrence of an object is whole. -/
theorem isWhole_iff {before after : List Occurrence} {o : Occurrence}
    (h : Sees [] (before ++ o :: after) seen') :
    o.isWhole = true ↔ o.object ∉ before.map Occurrence.object := by
  obtain ⟨between, hbefore, hrest⟩ := exists_of_append h
  have hmem : o.object ∈ between ↔ o.object ∈ before.map Occurrence.object := by
    simp [hbefore.mem_iff]
  cases hrest with
  | again hseen _ => simpa using hmem.mp hseen
  | first hnew _ => simpa using mt hmem.mpr hnew

end Sees

namespace Shows

theorem append (h : Shows heap values occurrences parts) (hmore : Shows heap others more rest) :
    Shows heap (values ++ others) (occurrences ++ more) (parts ++ rest) := by
  induction h with
  | nil => exact hmore
  | scalar hscalar _ ih => exact .scalar hscalar ih
  | again _ ih => exact .again ih
  | whole hinner _ _ ih =>
    rw [List.cons_append, List.cons_append, List.append_assoc]
    exact .whole hinner ih

/-- What has been seen determines what is written out, and so all of the JSON. -/
theorem unique {occurrences' : List Occurrence} {parts' : List Json}
    (h : Shows heap values occurrences parts) (hsees : Sees seen occurrences seen')
    (h' : Shows heap values occurrences' parts') (hsees' : Sees seen occurrences' later) :
    occurrences = occurrences' ∧ parts = parts' := by
  induction h generalizing seen seen' later occurrences' parts' with
  | nil =>
    cases h'
    exact ⟨rfl, rfl⟩
  | scalar hscalar _ ih =>
    cases h' with
    | scalar _ hrest' =>
      obtain ⟨rfl, rfl⟩ := ih hsees hrest' hsees'
      exact ⟨rfl, rfl⟩
    | again _ => cases hscalar
    | whole _ _ => cases hscalar
  | again _ ih =>
    obtain - | ⟨hmem, hseesRest⟩ := hsees
    cases h' with
    | scalar hscalar _ => cases hscalar
    | again hrest' =>
      cases hsees' with
      | again _ hseesRest' =>
        obtain ⟨rfl, rfl⟩ := ih hseesRest hrest' hseesRest'
        exact ⟨rfl, rfl⟩
    | whole _ _ =>
      cases hsees' with
      | first hnew _ => exact absurd hmem hnew
  | whole _ _ ihinner ihrest =>
    -- The object has not been seen, so it is written out the other way too.
    cases hsees with
    | first hnew hseesAll =>
      cases h' with
      | scalar hscalar _ => cases hscalar
      | again _ =>
        cases hsees' with
        | again hmem _ => exact absurd hmem hnew
      | whole hinner' hrest' =>
        cases hsees' with
        | first _ hseesAll' =>
          obtain ⟨between, hseesInner, hseesRest⟩ := hseesAll.exists_of_append
          obtain ⟨between', hseesInner', hseesRest'⟩ := hseesAll'.exists_of_append
          obtain ⟨rfl, rfl⟩ := ihinner hseesInner hinner' hseesInner'
          obtain rfl := hseesInner.unique hseesInner'
          obtain ⟨rfl, rfl⟩ := ihrest hseesRest hrest' hseesRest'
          exact ⟨rfl, rfl⟩

theorem mem_of_mem (h : Shows heap values occurrences parts) (hid : .object id ∈ values) :
    id ∈ occurrences.map Occurrence.object := by
  induction h with
  | nil => cases hid
  | scalar hscalar _ ih =>
    cases hid with
    | head => cases hscalar
    | tail _ hid => exact ih hid
  | again _ ih =>
    cases hid with
    | head => simp
    | tail _ hid => simp [ih hid]
  | whole _ _ _ ih =>
    cases hid with
    | head => simp
    | tail _ hid =>
      rw [List.map_cons, List.map_append]
      exact List.mem_cons_of_mem _ (List.mem_append_right _ (ih hid))

theorem mem_of_held {other : ObjectId} (h : Shows heap values occurrences parts)
    (hwhole : ⟨other, true⟩ ∈ occurrences) (hid : .object id ∈ children (heap.object other)) :
    id ∈ occurrences.map Occurrence.object := by
  induction h with
  | nil => cases hwhole
  | scalar _ _ ih => exact ih hwhole
  | again _ ih =>
    have hrest := (List.mem_cons.mp hwhole).resolve_left (by simp)
    exact List.mem_cons_of_mem _ (ih hrest)
  | whole hinner _ ihinner ihrest =>
    rw [List.map_cons, List.map_append]
    apply List.mem_cons_of_mem
    rcases List.mem_cons.mp hwhole with heq | hwhole
    · cases heq
      exact List.mem_append_left _ (hinner.mem_of_mem hid)
    · rcases List.mem_append.mp hwhole with hfront | hback
      · exact List.mem_append_left _ (ihinner hfront)
      · exact List.mem_append_right _ (ihrest hback)

theorem leadsTo {o : Occurrence} (h : Shows heap values occurrences parts)
    (ho : o ∈ occurrences) : ∃ value ∈ values, LeadsTo heap value o.object := by
  induction h with
  | nil => cases ho
  | scalar _ _ ih =>
    obtain ⟨value, hvalue, hleads⟩ := ih ho
    exact ⟨value, List.mem_cons_of_mem _ hvalue, hleads⟩
  | again _ ih =>
    rcases List.mem_cons.mp ho with rfl | ho
    · exact ⟨_, List.mem_cons_self, .here⟩
    · obtain ⟨value, hvalue, hleads⟩ := ih ho
      exact ⟨value, List.mem_cons_of_mem _ hvalue, hleads⟩
  | whole _ _ ihinner ihrest =>
    rcases List.mem_cons.mp ho with rfl | ho
    · exact ⟨_, List.mem_cons_self, .here⟩
    · rcases List.mem_append.mp ho with hfront | hback
      · obtain ⟨value, hvalue, hleads⟩ := ihinner hfront
        exact ⟨_, List.mem_cons_self, .inside hvalue hleads⟩
      · obtain ⟨value, hvalue, hleads⟩ := ihrest hback
        exact ⟨value, List.mem_cons_of_mem _ hvalue, hleads⟩

/-- Where every object that occurs is also written out, everything that it leads to occurs. -/
theorem mem_of_leadsTo {value : Value} (h : Shows heap values occurrences parts)
    (hwhole : ∀ other ∈ occurrences.map Occurrence.object, ⟨other, true⟩ ∈ occurrences)
    (hleads : LeadsTo heap value id)
    (hvalue : ∀ other, value = .object other → other ∈ occurrences.map Occurrence.object) :
    id ∈ occurrences.map Occurrence.object := by
  induction hleads with
  | here => exact hvalue _ rfl
  | inside hchild _ ih =>
    -- Where the holder is written out, what it holds occurs.
    apply ih
    rintro next rfl
    exact h.mem_of_held (hwhole _ (hvalue _ rfl)) hchild

end Shows

/-- The places in the heap of the objects that have not been seen. -/
def unseen (heap : Heap) (seen : List ObjectId) : Finset Nat :=
  (Finset.range heap.size).filter fun i => ⟨i⟩ ∉ seen

theorem card_unseen_nil : (unseen heap []).card = heap.size := by
  simp [unseen]

theorem unseen_subset (heap : Heap) (h : ∀ id ∈ seen, id ∈ seen') :
    unseen heap seen' ⊆ unseen heap seen := by
  intro i hi
  rw [unseen, Finset.mem_filter] at hi ⊢
  exact ⟨hi.1, fun hseen => hi.2 (h _ hseen)⟩

/-- An identity without an object stands for one that holds nothing. -/
theorem children_of_size_le (h : heap.size ≤ id.index) : children (heap.object id) = [] := by
  have hobject : heap.object id = default := by
    rw [Heap.object, List.getElem?_eq_none h, Option.getD_none]
  rw [hobject]
  rfl

/-- For the children of an object that is new, there are fewer unseen objects. -/
theorem card_unseen_lt (hnew : id ∉ seen) (hchildren : children (heap.object id) ≠ []) :
    (unseen heap (id :: seen)).card < (unseen heap seen).card := by
  have hindex : id.index < heap.size := by
    by_contra hdangling
    exact hchildren (children_of_size_le (Nat.le_of_not_lt hdangling))
  have hmem : id.index ∈ unseen heap seen :=
    Finset.mem_filter.mpr ⟨Finset.mem_range.mpr hindex, hnew⟩
  have hnotMem : id.index ∉ unseen heap (id :: seen) := by
    intro h
    exact (Finset.mem_filter.mp h).2 List.mem_cons_self
  apply Finset.card_lt_card
  exact (Finset.ssubset_iff_of_subset
    (unseen_subset heap fun _ => List.mem_cons_of_mem _)).mpr ⟨id.index, hmem, hnotMem⟩

variable {fuel : Nat}

/-- Values are rendered one after another as each of them is by itself. -/
theorem thread_spec
    (hrender : ∀ seen value, (unseen heap seen).card < fuel → ∃ occurrences,
      Shows heap [value] occurrences [(render heap fuel seen value).1] ∧
        Sees seen occurrences (render heap fuel seen value).2)
    (hfuel : values ≠ [] → (unseen heap seen).card < fuel) :
    ∃ occurrences, Shows heap values occurrences (thread (render heap fuel) seen values).1 ∧
      Sees seen occurrences (thread (render heap fuel) seen values).2 := by
  induction values generalizing seen with
  | nil => exact ⟨[], .nil, .nil⟩
  | cons value values ih =>
    have hfirst := hfuel (List.cons_ne_nil _ _)
    obtain ⟨occurrences, hshows, hsees⟩ := hrender seen value hfirst
    have hsubset := unseen_subset heap fun id hid => hsees.mem_iff.mpr (.inl hid)
    obtain ⟨more, hshowsRest, hseesRest⟩ :=
      ih fun _ => Nat.lt_of_le_of_lt (Finset.card_le_card hsubset) hfirst
    exact ⟨occurrences ++ more, hshows.append hshowsRest, hsees.append hseesRest⟩

/-- With more fuel than there are unseen objects, rendering does not run out of it. -/
theorem render_spec (hnamed : ∀ id, Named (heap.object id)) (seen : List ObjectId) (value : Value)
    (hfuel : (unseen heap seen).card < fuel) :
    ∃ occurrences, Shows heap [value] occurrences [(render heap fuel seen value).1] ∧
      Sees seen occurrences (render heap fuel seen value).2 := by
  induction fuel generalizing seen value with
  | zero => omega
  | succ fuel ih =>
    cases value with
    | object id =>
      by_cases hmem : id ∈ seen
      · rw [render_of_mem hmem]
        exact ⟨_, .again .nil, .again hmem .nil⟩
      · have hroom : children (heap.object id) ≠ [] → (unseen heap (id :: seen)).card < fuel := by
          intro hchildren
          have hless := card_unseen_lt hmem hchildren
          omega
        obtain ⟨inner, hshows, hsees⟩ := thread_spec ih hroom
        rw [render_of_not_mem hmem (hnamed id)]
        refine ⟨_, .whole hshows .nil, .first hmem ?_⟩
        rw [List.append_nil]
        exact hsees
    | _ =>
      rw [render_of_not_object rfl]
      exact ⟨[], .scalar rfl .nil, .nil⟩

/-- What rendering gives does not depend on how much more fuel there is. -/
theorem render_fuel {more : Nat} (hnamed : ∀ id, Named (heap.object id)) (value : Value)
    (hfuel : (unseen heap seen).card < fuel) (hmore : (unseen heap seen).card < more) :
    (render heap more seen value).1 = (render heap fuel seen value).1 := by
  obtain ⟨_, hshows, hsees⟩ := render_spec hnamed seen value hfuel
  obtain ⟨_, hshows', hsees'⟩ := render_spec hnamed seen value hmore
  exact List.singleton_inj.mp (hshows'.unique hsees' hshows hsees).2

theorem named_object (h : ∀ o ∈ heap.objects, Named o) (id : ObjectId) :
    Named (heap.object id) := by
  rw [Heap.object]
  cases hobject : heap.objects[id.index]? with
  | none => exact ⟨List.nodup_nil, List.not_mem_nil, List.not_mem_nil⟩
  | some o => exact h o (List.mem_of_getElem? hobject)

/-- A dump comes to an end: with more room than for each object inside another, it is the same. It
shows occurrences of objects, each either written out with what it holds or referred to by its type.
The first occurrence of an object, and no other, is written out. So every object that the value
leads to is written out exactly once, and no other object occurs. -/
theorem objects_written_once (heap : Heap) (hnamed : ∀ o ∈ heap.objects, Named o) (value : Value) :
    (∀ fuel, heap.size < fuel → (render heap fuel [] value).1 = json heap value) ∧
    ∃ occurrences, Shows heap [value] occurrences [json heap value] ∧
      (∀ before o after, occurrences = before ++ o :: after →
        (o.isWhole = true ↔ o.object ∉ before.map Occurrence.object)) ∧
      (∀ id, LeadsTo heap value id → occurrences.count ⟨id, true⟩ = 1) ∧
      ∀ o ∈ occurrences, LeadsTo heap value o.object := by
  have hnamed := named_object hnamed
  refine ⟨fun fuel hfuel => ?_, ?_⟩
  · exact render_fuel hnamed value (by simp [card_unseen_nil]) (by rwa [card_unseen_nil])
  have hroom : (unseen heap []).card < heap.size + 1 := by simp [card_unseen_nil]
  obtain ⟨occurrences, hshows, hsees⟩ := render_spec hnamed [] value hroom
  have hcount : ∀ id ∈ occurrences.map Occurrence.object, occurrences.count ⟨id, true⟩ = 1 := by
    intro id hid
    rw [hsees.count_whole, if_pos ⟨List.not_mem_nil, hid⟩]
  refine ⟨occurrences, hshows, ?_, fun id hleads => hcount id ?_, fun o ho => ?_⟩
  · rintro before o after rfl
    exact hsees.isWhole_iff
  · refine hshows.mem_of_leadsTo (fun other hother => ?_) hleads ?_
    · exact List.count_pos_iff.mp (by rw [hcount other hother]; exact Nat.one_pos)
    · rintro other rfl
      exact hshows.mem_of_mem List.mem_cons_self
  · obtain ⟨_, hvalue, hleads⟩ := hshows.leadsTo ho
    exact List.mem_singleton.mp hvalue ▸ hleads

/-- A list that holds a map twice and then itself, where the map leads back to the list. -/
theorem objects_written_once_of_cycle :
    let heap : Heap := ⟨[
      { typeName := "ArrayList"
        sequence := some ⟨[.object ⟨1⟩, .object ⟨1⟩, .object ⟨0⟩], none, none⟩ },
      { typeName := "HashMap", dictionary := some ⟨[("owner", .object ⟨0⟩)]⟩ }]⟩
    let list : Json := .object ⟨[("$ref", .string "ArrayList")]⟩
    (∀ o ∈ heap.objects, Named o) ∧ LeadsTo heap (.object ⟨0⟩) ⟨1⟩ ∧
      ∃ occurrences, occurrences.count ⟨⟨1⟩, true⟩ = 1 ∧
        Shows heap [.object ⟨0⟩] occurrences [.array
          [.object ⟨[("$type", .string "HashMap"), ("owner", list)]⟩,
            .object ⟨[("$ref", .string "HashMap")]⟩, list]] := by
  intro heap list
  have hnamed : ∀ o ∈ heap.objects, Named o :=
    List.forall_mem_cons.mpr ⟨⟨by decide, by decide, by decide⟩,
      List.forall_mem_singleton.mpr ⟨by decide, by decide, by decide⟩⟩
  have hleads : LeadsTo heap (.object ⟨0⟩) ⟨1⟩ := .inside List.mem_cons_self .here
  obtain ⟨-, occurrences, hshows, -, hcount, -⟩ :=
    objects_written_once heap hnamed (.object ⟨0⟩)
  exact ⟨hnamed, hleads, occurrences, hcount _ hleads, hshows⟩

end ObjectMarkup.Dump
