import ObjectMarkup.Proofs.Renaming.Object
import ObjectMarkup.Script

namespace ObjectMarkup

variable {f : ObjectId → ObjectId}

namespace Registry

mutual

/-- The registry with every reference renamed, in its inclusions too. -/
def mapRefs (f : ObjectId → ObjectId) : Registry → Registry
  | ⟨values, ⟨includes⟩⟩ => ⟨values.mapValues (Value.mapRefs f), ⟨mapIncludes f includes⟩⟩

def mapIncludes (f : ObjectId → ObjectId) : List (String × Registry) → List (String × Registry)
  | [] => []
  | (id, r) :: rest => (id, mapRefs f r) :: mapIncludes f rest

end

mutual

def refs : Registry → List ObjectId
  | ⟨values, ⟨includes⟩⟩ => values.entries.flatMap (fun e => e.2.refs) ++ refsOfIncludes includes

def refsOfIncludes : List (String × Registry) → List ObjectId
  | [] => []
  | (_, r) :: rest => refs r ++ refsOfIncludes rest

end

theorem mapIncludes_eq (includes : List (String × Registry)) :
    mapIncludes f includes = includes.map fun e => (e.1, e.2.mapRefs f) := by
  induction includes with
  | nil => rfl
  | cons e rest ih =>
    rw [mapIncludes, ih]
    rfl

theorem mem_refsOfIncludes {includes : List (String × Registry)} {o : ObjectId} :
    o ∈ refsOfIncludes includes ↔ ∃ e ∈ includes, o ∈ e.2.refs := by
  induction includes with
  | nil => simp [refsOfIncludes]
  | cons e rest ih => simp [refsOfIncludes, ih]

theorem mapRefs_eq (r : Registry) :
    r.mapRefs f = ⟨r.values.mapValues (·.mapRefs f), r.includes.mapValues (mapRefs f)⟩ := by
  obtain ⟨values, ⟨includes⟩⟩ := r
  rw [mapRefs, mapIncludes_eq]
  rfl

theorem mem_refs {r : Registry} {o : ObjectId} :
    o ∈ r.refs ↔ (∃ e ∈ r.values.entries, o ∈ e.2.refs) ∨
      ∃ e ∈ r.includes.entries, o ∈ e.2.refs := by
  obtain ⟨values, ⟨includes⟩⟩ := r
  rw [refs, List.mem_append, mem_refsOfIncludes, List.mem_flatMap]

mutual

@[simp] theorem refs_mapRefs : ∀ r : Registry, (r.mapRefs f).refs = r.refs.map f
  | ⟨values, ⟨includes⟩⟩ => by
    rw [mapRefs, refs, refs, refsOfIncludes_mapIncludes includes]
    simp [OrderedMap.mapValues, List.flatMap_map, List.map_flatMap]

theorem refsOfIncludes_mapIncludes : ∀ includes : List (String × Registry),
    refsOfIncludes (mapIncludes f includes) = (refsOfIncludes includes).map f
  | [] => rfl
  | (_, r) :: rest => by
    rw [mapIncludes, refsOfIncludes, refsOfIncludes, refs_mapRefs r,
      refsOfIncludes_mapIncludes rest, List.map_append]

end

@[simp] theorem child?_mapRefs (r : Registry) (id : String) :
    (r.mapRefs f).child? id = (r.child? id).map (mapRefs f) := by
  rw [mapRefs_eq, child?, OrderedMap.get?_mapValues, child?]

theorem lookup_mapRefs (r : Registry) (path : List String) :
    (r.mapRefs f).lookup path = (r.lookup path).map (·.mapRefs f) := by
  induction path generalizing r with
  | nil => rfl
  | cons segment rest ih =>
    cases rest with
    | nil => rw [lookup, lookup, mapRefs_eq, OrderedMap.get?_mapValues]
    | cons next rest =>
      rw [lookup, lookup, child?_mapRefs]
      · cases r.child? segment with
        | none => rfl
        | some child => exact ih child
      · intro h
        cases h
      · intro h
        cases h

@[simp] theorem get?_mapRefs (r : Registry) (path : String) :
    (r.mapRefs f).get? path = (r.get? path).map (·.mapRefs f) :=
  r.lookup_mapRefs _

@[simp] theorem contains_mapRefs (r : Registry) (path : String) :
    (r.mapRefs f).contains path = r.contains path := by
  simp [contains]

@[simp] theorem sortedIds_mapRefs (r : Registry) : (r.mapRefs f).sortedIds = r.sortedIds := by
  rw [mapRefs_eq, sortedIds, sortedIds, ids, ids, OrderedMap.keys_mapValues]

theorem put_mapRefs (r : Registry) (id : String) (v : Value) :
    (r.mapRefs f).put id (v.mapRefs f) = (r.put id v).mapRefs f := by
  rw [mapRefs_eq, mapRefs_eq, put, put, OrderedMap.insert_mapValues]

theorem bindInclude_mapRefs (r : Registry) (id : String) (v : Value) (inner : Registry) :
    (r.mapRefs f).bindInclude id (v.mapRefs f) (inner.mapRefs f) =
      (r.bindInclude id v inner).mapRefs f := by
  rw [mapRefs_eq, mapRefs_eq (r.bindInclude id v inner), bindInclude, bindInclude,
    OrderedMap.insert_mapValues, OrderedMap.insert_mapValues]

theorem remove_mapRefs (r : Registry) (id : String) :
    (r.mapRefs f).remove id = (r.remove id).mapRefs f := by
  rw [mapRefs_eq, mapRefs_eq, remove, remove, OrderedMap.erase_mapValues,
    OrderedMap.erase_mapValues]

theorem refs_child? {r child : Registry} {id : String} (h : r.child? id = some child) :
    ∀ o ∈ child.refs, o ∈ r.refs :=
  fun _ ho => mem_refs.mpr (.inr ⟨_, OrderedMap.mem_of_get? h, ho⟩)

theorem refs_lookup {r : Registry} {path : List String} {v : Value}
    (h : r.lookup path = some v) : ∀ o ∈ v.refs, o ∈ r.refs := by
  induction path generalizing r with
  | nil => cases h
  | cons segment rest ih =>
    cases rest with
    | nil =>
      intro o ho
      exact mem_refs.mpr (.inl ⟨_, OrderedMap.mem_of_get? h, ho⟩)
    | cons next rest =>
      rw [lookup] at h
      · obtain ⟨child, hchild, h⟩ := Option.bind_eq_some_iff.mp h
        exact fun o ho => refs_child? hchild o (ih h o ho)
      · intro h
        cases h

theorem refs_get? {r : Registry} {path : String} {v : Value} (h : r.get? path = some v) :
    ∀ o ∈ v.refs, o ∈ r.refs :=
  refs_lookup h

theorem refs_put {r : Registry} {id : String} {v : Value} {o : ObjectId}
    (h : o ∈ (r.put id v).refs) : o ∈ v.refs ∨ o ∈ r.refs := by
  rcases mem_refs.mp h with ⟨e, he, ho⟩ | h
  · rcases OrderedMap.mem_insert he with hv | he
    · exact .inl (hv ▸ ho)
    · exact .inr (mem_refs.mpr (.inl ⟨e, he, ho⟩))
  · exact .inr (mem_refs.mpr (.inr h))

theorem refs_bindInclude {r inner : Registry} {id : String} {v : Value} {o : ObjectId}
    (h : o ∈ (r.bindInclude id v inner).refs) : o ∈ v.refs ∨ o ∈ inner.refs ∨ o ∈ r.refs := by
  rcases mem_refs.mp h with ⟨e, he, ho⟩ | ⟨e, he, ho⟩
  · rcases OrderedMap.mem_insert he with hv | he
    · exact .inl (hv ▸ ho)
    · exact .inr (.inr (mem_refs.mpr (.inl ⟨e, he, ho⟩)))
  · rcases OrderedMap.mem_insert he with hv | he
    · exact .inr (.inl (hv ▸ ho))
    · exact .inr (.inr (mem_refs.mpr (.inr ⟨e, he, ho⟩)))

theorem refs_remove {r : Registry} {id : String} {o : ObjectId}
    (h : o ∈ (r.remove id).refs) : o ∈ r.refs := by
  rcases mem_refs.mp h with ⟨e, he, ho⟩ | ⟨e, he, ho⟩
  · exact mem_refs.mpr (.inl ⟨e, (List.mem_filter.mp he).1, ho⟩)
  · exact mem_refs.mpr (.inr ⟨e, (List.mem_filter.mp he).1, ho⟩)

end Registry

namespace Command

def refs : Command → List ObjectId
  | .assign _ v => v.refs
  | _ => []

/-- A command does to renamed names what it does to the names, if it holds no renamed object. -/
theorem run_mapRefs {c : Command} (names : Registry) (hc : ∀ o ∈ c.refs, f o = o) :
    c.run (names.mapRefs f) = (c.run names).map (·.mapRefs f) := by
  have hnull : Value.null.mapRefs f = .null := rfl
  cases c with
  | assign target v =>
    have hput := names.put_mapRefs target v (f := f)
    rw [Value.mapRefs_eq_self hc] at hput
    exact congrArg Except.ok hput
  | copy source target =>
    have hput := names.put_mapRefs target ((names.get? source).getD .null) (f := f)
    simp only [run, Registry.get?_mapRefs, Except.map, ← hput]
    cases names.get? source <;> rfl
  | remove target => exact congrArg Except.ok (names.remove_mapRefs target)
  | test source target =>
    have hput := names.put_mapRefs target (.boolean (names.contains source)) (f := f)
    simp only [run, Registry.contains_mapRefs, Except.map, ← hput]
    rfl
  | list target =>
    have hput := names.put_mapRefs target (.string (Text.join "," names.sortedIds)) (f := f)
    simp only [run, Registry.sortedIds_mapRefs, Except.map, ← hput]
    rfl
  | fail e => rfl

theorem refs_run {c : Command} {names after : Registry} (h : c.run names = .ok after) :
    ∀ o ∈ after.refs, o ∈ c.refs ∨ o ∈ names.refs := by
  intro o ho
  cases c with
  | assign target v =>
    cases h
    exact Registry.refs_put ho
  | copy source target =>
    cases h
    rcases Registry.refs_put ho with hv | hn
    · right
      cases hget : names.get? source with
      | none => simp [hget, Value.refs, Value.object?] at hv
      | some v => exact Registry.refs_get? hget o (by simpa [hget] using hv)
    · exact .inr hn
  | remove target =>
    cases h
    exact .inr (Registry.refs_remove ho)
  | test source target =>
    cases h
    exact .inr ((Registry.refs_put ho).resolve_left (by simp [Value.refs, Value.object?]))
  | list target =>
    cases h
    exact .inr ((Registry.refs_put ho).resolve_left (by simp [Value.refs, Value.object?]))
  | fail e => cases h

theorem runAll_mapRefs {commands : List Command} (names : Registry)
    (hc : ∀ c ∈ commands, ∀ o ∈ c.refs, f o = o) :
    runAll (names.mapRefs f) commands = (runAll names commands).map (·.mapRefs f) := by
  induction commands generalizing names with
  | nil => rfl
  | cons c rest ih =>
    rw [runAll, runAll, run_mapRefs names (hc c List.mem_cons_self)]
    cases c.run names with
    | error e => rfl
    | ok after => exact ih after fun c hm => hc c (List.mem_cons_of_mem _ hm)

theorem refs_runAll {commands : List Command} {names after : Registry}
    (h : runAll names commands = .ok after) :
    ∀ o ∈ after.refs, (∃ c ∈ commands, o ∈ c.refs) ∨ o ∈ names.refs := by
  induction commands generalizing names with
  | nil =>
    cases h
    exact fun o ho => .inr ho
  | cons c rest ih =>
    rw [runAll] at h
    intro o ho
    cases hrun : c.run names with
    | error e => simp [hrun] at h
    | ok next =>
      simp only [hrun] at h
      rcases ih h o ho with ⟨d, hd, ho⟩ | ho
      · exact .inl ⟨d, List.mem_cons_of_mem _ hd, ho⟩
      · exact (refs_run hrun o ho).imp_left fun ho => ⟨c, List.mem_cons_self, ho⟩

end Command

end ObjectMarkup
