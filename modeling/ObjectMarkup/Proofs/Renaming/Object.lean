import ObjectMarkup.Blueprint
import ObjectMarkup.Types

namespace ObjectMarkup

variable {f : ObjectId → ObjectId}

namespace OrderedMap

variable {κ α β : Type} [DecidableEq κ]

def mapValues (g : α → β) (m : OrderedMap κ α) : OrderedMap κ β :=
  ⟨m.entries.map fun e => (e.1, g e.2)⟩

@[simp] theorem get?_mapValues (g : α → β) (m : OrderedMap κ α) (key : κ) :
    (m.mapValues g).get? key = (m.get? key).map g := by
  obtain ⟨entries⟩ := m
  simp only [mapValues, get?]
  induction entries with
  | nil => rfl
  | cons e rest ih => by_cases hk : e.1 = key <;> simp [find?, hk, ih]

omit [DecidableEq κ] in
@[simp] theorem keys_mapValues (g : α → β) (m : OrderedMap κ α) :
    (m.mapValues g).keys = m.keys := by
  simp [mapValues, keys]

theorem insert_mapValues (g : α → β) (m : OrderedMap κ α) (key : κ) (value : α) :
    (m.mapValues g).insert key (g value) = (m.insert key value).mapValues g := by
  obtain ⟨entries⟩ := m
  simp only [mapValues, insert, mk.injEq]
  induction entries with
  | nil => rfl
  | cons e rest ih => by_cases hk : e.1 = key <;> simp [insertEntry, hk, ih]

theorem erase_mapValues (g : α → β) (m : OrderedMap κ α) (key : κ) :
    (m.mapValues g).erase key = (m.erase key).mapValues g := by
  simp [mapValues, erase, List.filter_map, Function.comp_def]

theorem mem_insert {m : OrderedMap κ α} {key : κ} {value : α} {e : κ × α}
    (h : e ∈ (m.insert key value).entries) : e.2 = value ∨ e ∈ m.entries := by
  obtain ⟨entries⟩ := m
  simp only [insert] at h
  induction entries with
  | nil => exact .inl (by simp [List.mem_singleton.mp h])
  | cons head rest ih =>
    simp only [insertEntry] at h
    split at h
    · rcases List.mem_cons.mp h with rfl | h
      · exact .inl rfl
      · exact .inr (List.mem_cons_of_mem _ h)
    · rcases List.mem_cons.mp h with rfl | h
      · exact .inr List.mem_cons_self
      · exact (ih h).imp_right (List.mem_cons_of_mem _)

theorem mem_of_get? {m : OrderedMap κ α} {key : κ} {value : α} (h : m.get? key = some value) :
    (key, value) ∈ m.entries := by
  obtain ⟨entries⟩ := m
  simp only [get?] at h
  induction entries with
  | nil => cases h
  | cons e rest ih =>
    simp only [find?] at h
    split at h
    · rename_i hk
      cases h
      exact hk ▸ List.mem_cons_self
    · exact List.mem_cons_of_mem _ (ih h)

end OrderedMap

namespace Value

@[simp] theorem object?_mapRefs (v : Value) : (v.mapRefs f).object? = v.object?.map f := by
  cases v <;> rfl

@[simp] theorem text?_mapRefs (v : Value) : (v.mapRefs f).text? = v.text? := by
  cases v <;> rfl

@[simp] theorem int?_mapRefs (v : Value) : (v.mapRefs f).int? = v.int? := by
  cases v <;> rfl

@[simp] theorem refs_mapRefs (v : Value) : (v.mapRefs f).refs = v.refs.map f := by
  cases v <;> rfl

@[simp] theorem bind_object?_mapRefs (v : Option Value) :
    (v.map (mapRefs f)).bind object? = (v.bind object?).map f := by
  cases v with
  | none => rfl
  | some v => exact v.object?_mapRefs

theorem mapRefs_of_object? {v : Value} (h : v.object? = none) : v.mapRefs f = v := by
  cases v <;> first | rfl | cases h

theorem mapRefs_congr {g : ObjectId → ObjectId} {v : Value} (h : ∀ o ∈ v.refs, f o = g o) :
    v.mapRefs f = v.mapRefs g := by
  cases v with
  | object o => exact congrArg Value.object (h o (by simp [refs, object?]))
  | _ => rfl

theorem mapRefs_eq_self {v : Value} (h : ∀ o ∈ v.refs, f o = o) : v.mapRefs f = v := by
  rw [mapRefs_congr h]
  exact v.mapRefs_id

/-- A renamed value goes by the same label where its object does. -/
theorem label_mapRefs {v : Value} {typeName typeName' : ObjectId → String}
    (h : ∀ o ∈ v.refs, typeName' (f o) = typeName o) :
    (v.mapRefs f).label typeName' = v.label typeName := by
  cases v with
  | object o => exact h o (by simp [refs, object?])
  | _ => rfl

end Value

/-- A property keeps of a renamed value what it keeps of the value, renamed. -/
theorem Intake.accept_mapRefs (intake : Intake) (property found : String) (v : Value) :
    intake.accept property found (v.mapRefs f) =
      (intake.accept property found v).map (·.mapRefs f) := by
  cases intake with
  | anything => rfl
  | text => cases v <;> rfl
  | link => cases v <;> rfl
  | flag => cases v <;> rfl
  | integer =>
    simp only [accept, Value.int?_mapRefs]
    cases v.int? <;> rfl
  | integral =>
    simp only [accept, Value.int?_mapRefs]
    cases v.int? <;> rfl
  | requiredText => cases v <;> rfl

/-- What a property keeps refers to nothing that the value given to it does not refer to. -/
theorem Intake.refs_accept {intake : Intake} {property found : String} {v kept : Value}
    (h : intake.accept property found v = .ok kept) : ∀ o ∈ kept.refs, o ∈ v.refs := by
  intro o ho
  cases intake with
  | anything =>
    cases h
    exact ho
  | text => cases v <;> cases h <;> cases ho
  | link => cases v <;> cases h <;> cases ho
  | flag =>
    cases v <;> cases h
    cases ho
  | integer =>
    simp only [accept] at h
    split at h <;> cases h
    cases ho
  | integral =>
    simp only [accept] at h
    split at h <;> cases h
    exact ho
  | requiredText =>
    cases v <;> cases h
    cases ho

namespace Property

def mapRefs (f : ObjectId → ObjectId) (p : Property) : Property :=
  { p with held := p.held.map (·.mapRefs f) }

end Property

namespace Bean

def mapRefs (f : ObjectId → ObjectId) (b : Bean) : Bean :=
  { b with properties := b.properties.map (·.mapRefs f) }

@[simp] theorem property?_mapRefs (b : Bean) (name : String) :
    (b.mapRefs f).property? name = (b.property? name).map (·.mapRefs f) := by
  simp only [property?, mapRefs, List.find?_map]
  rfl

theorem store_mapRefs (b : Bean) (name : String) (v : Value) :
    (b.mapRefs f).store name (v.mapRefs f) = (b.store name v).mapRefs f := by
  simp only [store, mapRefs, List.map_map, mk.injEq, and_true, List.map_inj_left]
  intro p _
  simp only [Function.comp_apply, Property.mapRefs]
  split <;> rfl

theorem set_mapRefs (b : Bean) (typeName name found : String) (v : Value) :
    (b.mapRefs f).set typeName name found (v.mapRefs f) =
      (b.set typeName name found v).map (·.mapRefs f) := by
  unfold set
  rw [property?_mapRefs]
  change (if b.frozen = true then _ else _) = _
  split
  · rfl
  · cases b.property? name with
    | none => rfl
    | some p =>
      have haccept := p.intake.accept_mapRefs name found v (f := f)
      simp only [Option.map_some, Property.mapRefs, haccept]
      split
      · rfl
      · rfl
      · cases p.intake.accept name found v with
        | error e => rfl
        | ok kept => exact congrArg Except.ok (b.store_mapRefs name kept)

/-- A property is found after a store where it was found before. -/
theorem property?_store (b : Bean) (name other : String) (v : Value) :
    (b.store name v).property? other = (b.property? other).map fun p =>
      if p.descriptor.name = name then { p with held := some v } else p := by
  simp only [property?, store, List.find?_map]
  congr 2
  funext p
  simp only [Function.comp_apply]
  split <;> rfl

/-- A bean takes assignments of properties that are neither composite nor lists of listeners, and
keeps of the value what the property accepts. -/
theorem set_ok {b b' : Bean} {typeName name found : String} {v : Value}
    (h : b.set typeName name found v = .ok b') :
    ∃ p kept, b.property? name = some p ∧ p.descriptor.kind ≠ .composite ∧
      p.descriptor.kind ≠ .listenerList ∧ p.intake.accept name found v = .ok kept ∧
      b' = b.store name kept := by
  unfold set at h
  split at h
  · cases h
  · split at h
    · cases h
    · rename_i p hp
      split at h
      · cases h
      · cases h
      · rename_i hcomposite hlist
        cases hkept : p.intake.accept name found v with
        | error e =>
          rw [hkept] at h
          cases h
        | ok kept =>
          rw [hkept] at h
          cases h
          exact ⟨p, kept, hp, hcomposite, hlist, hkept, rfl⟩

end Bean

namespace Sequence

def mapRefs (f : ObjectId → ObjectId) (s : Sequence) : Sequence :=
  { s with items := s.items.map (·.mapRefs f) }

@[simp] theorem forbids_mapRefs (s : Sequence) (v : Value) :
    (s.mapRefs f).forbids (v.mapRefs f) = s.forbids v := by
  simp [forbids, mapRefs]

theorem add_mapRefs (s : Sequence) (typeName found : String) (v : Value) :
    (s.mapRefs f).add typeName found (v.mapRefs f) =
      (s.add typeName found v).map (·.mapRefs f) := by
  unfold add
  rw [forbids_mapRefs]
  simp only [mapRefs, List.length_map]
  split
  · rfl
  · split
    · rfl
    · simp [Except.map]

theorem add_ok {s s' : Sequence} {typeName found : String} {v : Value}
    (h : s.add typeName found v = .ok s') : s' = { s with items := s.items ++ [v] } := by
  unfold add at h
  split at h
  · cases h
  · split at h <;> cases h
    rfl

end Sequence

namespace Access

def mapRefs (f : ObjectId → ObjectId) : Access → Access
  | .dictionary entries => .dictionary (entries.mapValues (·.mapRefs f))
  | .bean b => .bean (b.mapRefs f)

@[simp] theorem descriptor?_mapRefs (a : Access) (name : String) :
    (a.mapRefs f).descriptor? name = a.descriptor? name := by
  cases a with
  | dictionary entries => rfl
  | bean b =>
    simp only [mapRefs, descriptor?, Bean.property?_mapRefs, Option.map_map]
    rfl

@[simp] theorem get?_mapRefs (a : Access) (name : String) :
    (a.mapRefs f).get? name = (a.get? name).map (·.mapRefs f) := by
  cases a with
  | dictionary entries => simp [mapRefs, get?]
  | bean b =>
    simp only [mapRefs, get?, Bean.get?, Bean.property?_mapRefs]
    cases b.property? name <;> rfl

end Access

namespace Object

/-- The object of a composite property or a list of listeners. -/
def part? (o : Object) (name : String) : Option ObjectId := do
  let access ← o.access?
  let d ← access.descriptor? name
  if d.kind = .composite ∨ d.kind = .listenerList then (access.get? name).bind Value.object?
  else none

@[simp] theorem access?_mapRefs (o : Object) :
    (o.mapRefs f).access? = o.access?.map (·.mapRefs f) := by
  obtain ⟨typeName, dictionary, bean, sequence, listeners⟩ := o
  cases dictionary with
  | some entries => rfl
  | none => cases bean <;> rfl

@[simp] theorem typeName_mapRefs (o : Object) : (o.mapRefs f).typeName = o.typeName := rfl

theorem part?_mapRefs (o : Object) (name : String) :
    (o.mapRefs f).part? name = (o.part? name).map f := by
  unfold part?
  rw [access?_mapRefs]
  cases o.access? with
  | none => rfl
  | some a =>
    simp only [Option.map_some, Option.bind_eq_bind, Option.bind_some, Access.descriptor?_mapRefs,
      Access.get?_mapRefs]
    cases a.descriptor? name with
    | none => rfl
    | some d =>
      simp only [Option.bind_some]
      split
      · exact Value.bind_object?_mapRefs _
      · rfl

theorem put_mapRefs (o : Object) (name found : String) (v : Value) :
    (o.mapRefs f).put name found (v.mapRefs f) = (o.put name found v).map (·.mapRefs f) := by
  obtain ⟨typeName, dictionary, bean, sequence, listeners⟩ := o
  cases dictionary with
  | some entries =>
    have hentries := entries.insert_mapValues (·.mapRefs f) name v
    exact congrArg (fun m => Except.ok
      { (Object.mapRefs f ⟨typeName, some entries, bean, sequence, listeners⟩) with
        dictionary := some m }) hentries
  | none =>
    cases bean with
    | none => rfl
    | some b =>
      have hset := b.set_mapRefs typeName name found v (f := f)
      change ((b.mapRefs f).set typeName name found (v.mapRefs f)).map _ =
        ((b.set typeName name found v).map _).map _
      rw [hset]
      cases b.set typeName name found v <;> rfl

/-- Where composite properties and lists of listeners lead is not changed by an assignment. -/
theorem part?_put {o o' : Object} {name found : String} {v : Value}
    (h : o.put name found v = .ok o') (other : String) : o'.part? other = o.part? other := by
  obtain ⟨typeName, dictionary, bean, sequence, listeners⟩ := o
  cases dictionary with
  | some entries =>
    cases h
    rfl
  | none =>
    cases bean with
    | none => cases h
    | some b =>
      cases hset : b.set typeName name found v with
      | error e => simp [put, access?, hset, Except.map] at h
      | ok b' =>
        simp only [put, access?, Option.map_some, hset, Except.map, Except.ok.injEq] at h
        subst h
        obtain ⟨p, kept, hp, hcomposite, hlist, -, rfl⟩ := Bean.set_ok hset
        simp only [part?, access?, Option.map_some, Option.bind_eq_bind, Option.bind_some,
          Access.descriptor?, Access.get?, Bean.get?, Bean.property?_store]
        cases hq : b.property? other with
        | none => rfl
        | some q =>
          by_cases hname : q.descriptor.name = name
          · have hother : q.descriptor.name = other := by
              simpa using List.find?_some hq
            have hpq : q = p := by
              rw [← hname, hother, hq] at hp
              exact Option.some.inj hp
            subst hpq
            simp [hname, hcomposite, hlist]
          · simp [hname]

/-- An object refers to nothing new after an assignment but to what the value refers to. -/
theorem refs_put {o o' : Object} {name found : String} {v : Value}
    (h : o.put name found v = .ok o') : ∀ p ∈ o'.refs, p ∈ o.refs ∨ p ∈ v.refs := by
  intro p hp
  obtain ⟨typeName, dictionary, bean, sequence, listeners⟩ := o
  cases dictionary with
  | some entries =>
    cases h
    simp only [refs, Option.map_some, Option.getD_some, List.mem_append, List.mem_flatMap] at hp ⊢
    rcases hp with ((⟨e, he, hp⟩ | hp) | hp) | hp
    · rcases OrderedMap.mem_insert he with hv | he
      · exact .inr (hv ▸ hp)
      · exact .inl (.inl (.inl (.inl ⟨e, he, hp⟩)))
    · exact .inl (.inl (.inl (.inr hp)))
    · exact .inl (.inl (.inr hp))
    · exact .inl (.inr hp)
  | none =>
    cases bean with
    | none => cases h
    | some b =>
      cases hset : b.set typeName name found v with
      | error e => simp [put, access?, hset, Except.map] at h
      | ok b' =>
        simp only [put, access?, Option.map_some, hset, Except.map, Except.ok.injEq] at h
        subst h
        obtain ⟨q, kept, -, -, -, hkept, rfl⟩ := Bean.set_ok hset
        simp only [refs, Option.map_some, Option.getD_some, List.mem_append,
          List.mem_flatMap, Bean.store] at hp ⊢
        rcases hp with ((hp | ⟨r, hr, w, hw, hp⟩) | hp) | hp
        · exact .inl (.inl (.inl (.inl hp)))
        · obtain ⟨old, hold, rfl⟩ := List.mem_map.mp hr
          split at hw
          · simp only [Option.toList_some, List.mem_singleton] at hw
            subst hw
            exact .inr (Intake.refs_accept hkept p hp)
          · exact .inl (.inl (.inl (.inr ⟨old, hold, w, hw, hp⟩)))
        · exact .inl (.inl (.inr hp))
        · exact .inl (.inr hp)

@[simp] theorem refs_mapRefs (o : Object) : (o.mapRefs f).refs = o.refs.map f := by
  obtain ⟨typeName, dictionary, bean, sequence, listeners⟩ := o
  have hheld : ∀ p : Property, ((p.held.map (·.mapRefs f)).toList.flatMap Value.refs) =
      (p.held.toList.flatMap Value.refs).map f := by
    intro p
    cases p.held <;> simp
  cases dictionary <;> cases bean <;> cases sequence <;> cases listeners <;>
    simp [refs, mapRefs, List.flatMap_map, List.map_flatMap, hheld]

theorem mapRefs_congr {g : ObjectId → ObjectId} {o : Object} (h : ∀ p ∈ o.refs, f p = g p) :
    o.mapRefs f = o.mapRefs g := by
  obtain ⟨typeName, dictionary, bean, sequence, listeners⟩ := o
  simp only [refs, List.mem_append] at h
  simp only [mapRefs, mk.injEq, true_and]
  refine ⟨?_, ?_, ?_, ?_⟩
  · cases dictionary with
    | none => rfl
    | some entries =>
      simp only [Option.map_some, Option.some.injEq, OrderedMap.mk.injEq, List.map_inj_left,
        Prod.mk.injEq, true_and]
      intro e he
      apply Value.mapRefs_congr
      intro p hp
      exact h p (.inl (.inl (.inl (List.mem_flatMap.mpr ⟨e, he, hp⟩))))
  · cases bean with
    | none => rfl
    | some b =>
      simp only [Option.map_some, Option.some.injEq, Bean.mk.injEq, and_true, List.map_inj_left]
      intro q hq
      cases hheld : q.held with
      | none => rfl
      | some v =>
        rw [Option.map_some, Option.map_some, Value.mapRefs_congr]
        intro p hp
        exact h p (.inl (.inl (.inr (List.mem_flatMap.mpr ⟨q, hq, by simpa [hheld] using hp⟩))))
  · cases sequence with
    | none => rfl
    | some s =>
      simp only [Option.map_some, Option.some.injEq, Sequence.mk.injEq, and_true,
        List.map_inj_left]
      intro v hv
      apply Value.mapRefs_congr
      intro p hp
      exact h p (.inl (.inr (List.mem_flatMap.mpr ⟨v, hv, hp⟩)))
  · cases listeners with
    | none => rfl
    | some ls =>
      simp only [Option.map_some, Option.some.injEq, List.map_inj_left]
      exact fun p hp => h p (.inr hp)

theorem mapRefs_mapRefs (g : ObjectId → ObjectId) (o : Object) :
    (o.mapRefs f).mapRefs g = o.mapRefs (g ∘ f) := by
  obtain ⟨typeName, dictionary, bean, sequence, listeners⟩ := o
  simp [mapRefs, Function.comp_def, Value.mapRefs_mapRefs]

theorem mapRefs_id (o : Object) : o.mapRefs id = o := by
  obtain ⟨typeName, dictionary, bean, sequence, listeners⟩ := o
  simp [mapRefs, Value.mapRefs_id]

theorem mapRefs_eq_self {o : Object} (h : ∀ p ∈ o.refs, f p = p) : o.mapRefs f = o := by
  rw [mapRefs_congr h]
  exact o.mapRefs_id

end Object

def AttachedValue.mapRefs (f : ObjectId → ObjectId) (a : AttachedValue) : AttachedValue :=
  { a with target := f a.target, value := a.value.mapRefs f }

/-- An attached property is set on a renamed object as it is on the object. -/
theorem AttachedProperty.set_mapRefs (p : AttachedProperty) (owner found : String)
    (target : ObjectId) (v : Value) (log : List AttachedValue) :
    p.set owner found (f target) (v.mapRefs f) log =
      (p.set owner found target v []).map fun new => log ++ new.map (AttachedValue.mapRefs f) := by
  unfold set
  rw [Intake.accept_mapRefs]
  cases p.intake.accept p.descriptor.name found v <;> rfl

end ObjectMarkup
