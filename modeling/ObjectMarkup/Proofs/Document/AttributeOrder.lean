import ObjectMarkup.Proofs.Document.Listeners
import ObjectMarkup.Proofs.Document.PropertyForms
import ObjectMarkup.Proofs.Renaming.Object

namespace ObjectMarkup

open Markup

/-- What a plain attribute does to the objects when it succeeds. -/
inductive Change where
  /-- The bean keeps a value. -/
  | store (name : String) (value : Value)
  /-- Objects join a list of listeners. -/
  | listen (list : ObjectId) (objects : List ObjectId)

namespace Change

def target (id : ObjectId) : Change → ObjectId
  | .store _ _ => id
  | .listen list _ => list

def onObject : Change → Object → Object
  | .store name value, o => { o with bean := o.bean.map fun b => b.store name value }
  | .listen _ objects, o => o.listen objects

def onBean : Change → Bean → Bean
  | .store name value, b => b.store name value
  | .listen _ _, b => b

def apply (id : ObjectId) (h : Heap) (c : Change) : Heap := h.modify (c.target id) c.onObject

def Apart : Change → Change → Prop
  | .store name _, .store other _ => name ≠ other
  | .listen list _, .listen other _ => list ≠ other
  | .store _ _, .listen _ _ => True
  | .listen _ _, .store _ _ => True

end Change

def Property.list? (p : Property) : Option ObjectId :=
  if p.descriptor.kind = .listenerList then p.held.bind Value.object? else none

/-- No two properties of the bean hold one list of listeners, so that setting one of them never
shows in the other. -/
def Bean.ListsApart (b : Bean) : Prop :=
  ∀ p ∈ b.properties, ∀ q ∈ b.properties, p.list?.isSome = true → p.list? = q.list? →
    p.descriptor.name = q.descriptor.name

instance (b : Bean) : Decidable b.ListsApart :=
  inferInstanceAs (Decidable (∀ p ∈ b.properties, ∀ q ∈ b.properties, p.list?.isSome = true →
    p.list? = q.list? → p.descriptor.name = q.descriptor.name))

/-- What an attribute of a bean is to do: its text stands for a value that the property accepts, or
the property holds a list and all names in the text stand for objects. -/
inductive Due (c : Context) (h : Heap) (bean : Bean) (a : Attribute) : Change → Prop
  | store {p : Property} {value kept : Value} (free : bean.frozen = false)
      (declared : bean.property? a.name.localName = some p)
      (single : p.descriptor.kind ≠ .composite) (plain : p.descriptor.kind ≠ .listenerList)
      (resolved : c.resolve a.value (some p.descriptor.type) = .ok value)
      (accepted : p.intake.accept a.name.localName "" value = .ok kept) :
      Due c h bean a (.store a.name.localName kept)
  | listen {p : Property} {list : ObjectId} {objects : List ObjectId}
      (declared : bean.property? a.name.localName = some p) (holds : p.list? = some list)
      (named : List.Forall₂ c.names.Names (Builder.listenerIds a.value) objects)
      (takes : objects = [] ∨ (h.object list).listeners.isSome = true) :
      Due c h bean a (.listen list objects)

variable {s t : Session} {h h' : Heap} {id : ObjectId} {bean bean' : Bean} {a a' : Attribute}
  {c : Context} {b : Builder} {element : Element} {change other : Change}
  {nested : Reader → String → Reading Document}

theorem Bean.store_comm (bean : Bean) {name other : String} (hne : name ≠ other) (v w : Value) :
    (bean.store name v).store other w = (bean.store other w).store name v := by
  simp only [store, List.map_map]
  congr 1
  apply List.map_congr_left
  intro p _
  simp only [Function.comp_apply]
  by_cases hname : p.descriptor.name = name
  · simp [hname, hne]
  · by_cases hother : p.descriptor.name = other
    · simp [hother, Ne.symm hne]
    · simp [hname, hother]

theorem Heap.modify_comm (h : Heap) {id other : ObjectId} {f g : Object → Object}
    (hfg : id = other → ∀ o, g (f o) = f (g o)) :
    (h.modify id f).modify other g = (h.modify other g).modify id f := by
  by_cases hid : id = other
  · subst hid
    simp only [modify_modify, hfg rfl]
  · simp only [modify, object_update, hid, Ne.symm hid, false_and, if_false]
    exact h.update_comm hid _ _

namespace Change

/-- Changes to different properties or lists may come in either order. -/
theorem apply_comm (hapart : change.Apart other) (id : ObjectId) (h : Heap) :
    other.apply id (change.apply id h) = change.apply id (other.apply id h) := by
  apply h.modify_comm
  intro hid o
  cases change with
  | store name v =>
    cases other with
    | store name' w =>
      have hstores : ∀ bean : Bean, (bean.store name v).store name' w =
          (bean.store name' w).store name v := fun bean => bean.store_comm hapart v w
      simp only [onObject, Option.map_map, Function.comp_def, hstores]
    | listen list objects => rfl
  | listen list objects =>
    cases other with
    | store name v => rfl
    | listen list' objects' => exact absurd hid hapart

theorem isSome_listeners_apply (change : Change) (id list : ObjectId) (h : Heap) :
    ((change.apply id h).object list).listeners.isSome = (h.object list).listeners.isSome := by
  rw [apply, Heap.object_modify]
  split
  · rename_i hlist
    rw [← hlist.1]
    cases change with
    | store name v => rfl
    | listen list objects => exact Object.isSome_listeners_listen _ _
  · rfl

end Change

theorem Object.access?_eq_bean {o : Object} :
    o.access? = some (.bean bean) ↔ o.dictionary = none ∧ o.bean = some bean := by
  obtain ⟨typeName, dictionary, own, sequence, listeners⟩ := o
  cases dictionary with
  | none => cases own <;> simp [access?]
  | some entries => simp [access?]

theorem Heap.lt_size_of_access (hbean : (h.object id).access? = some (.bean bean)) :
    id.index < h.size := by
  by_contra hsize
  rw [object, List.getElem?_eq_none (Nat.le_of_not_lt hsize)] at hbean
  cases hbean

theorem Change.access?_apply (hbean : (h.object id).access? = some (.bean bean))
    (change : Change) :
    ((change.apply id h).object id).access? = some (.bean (change.onBean bean)) := by
  have hsize := Heap.lt_size_of_access hbean
  rw [Object.access?_eq_bean] at hbean ⊢
  rw [apply, Heap.object_modify]
  cases change with
  | store name v =>
    rw [if_pos ⟨rfl, hsize⟩]
    exact ⟨hbean.1, by simp [onObject, onBean, target, hbean.2]⟩
  | listen list objects =>
    split
    · rename_i hlist
      have hlist' : list = id := hlist.1
      subst hlist'
      exact hbean
    · exact hbean

theorem Bean.set_eq_ok {typeName name found : String} {v : Value} :
    bean.set typeName name found v = .ok bean' ↔
      bean.frozen = false ∧ ∃ p kept, bean.property? name = some p ∧
        p.descriptor.kind ≠ .composite ∧ p.descriptor.kind ≠ .listenerList ∧
        p.intake.accept name "" v = .ok kept ∧ bean' = bean.store name kept := by
  constructor
  · intro h
    obtain ⟨p, kept, hp, hcomposite, hlist, hkept, rfl⟩ := set_ok h
    refine ⟨?_, p, kept, hp, hcomposite, hlist, p.intake.accept_found hkept "", rfl⟩
    by_contra hfrozen
    rw [set, if_pos (by simpa using hfrozen)] at h
    cases h
  · rintro ⟨hfrozen, p, kept, hp, hcomposite, hlist, hkept, rfl⟩
    rw [set, hfrozen, if_neg Bool.false_ne_true, hp]
    simp only [Intake.accept_found hkept]
    rfl

namespace Builder

theorem perform_addListener_ok {names : Registry} {property name : String} {list : ObjectId} :
    (addListener names property list name).perform s = (.ok (), t) ↔
      ∃ listener, names.Names name listener ∧ (s.heap.object list).listeners.isSome = true ∧
        t = s.listen list [listener] := by
  constructor
  · intro h
    cases hname : names.get? name with
    | none =>
      rw [perform_addListener_unbound hname] at h
      cases h
    | some value =>
      cases hvalue : value.object? with
      | none =>
        rw [perform_addListener_plain hname hvalue] at h
        cases h
      | some listener =>
        rw [Value.eq_of_object? hvalue] at hname
        cases hlist : (s.heap.object list).listeners with
        | none =>
          unfold addListener at h
          simp only [Reading.perform_bind, Reading.perform_heap, hname, Heap.addListener?, hlist,
            Option.map_none, Reading.perform_fail] at h
          cases h
        | some present =>
          have hisList : (s.heap.object list).listeners.isSome = true := by rw [hlist]; rfl
          rw [perform_addListener hisList hname] at h
          cases h
          exact ⟨listener, hname, rfl, rfl⟩
  · rintro ⟨listener, hname, hlist, rfl⟩
    exact perform_addListener hlist hname

theorem perform_addListeners_ok {names : Registry} {property : String} {list : ObjectId}
    {ids : List String} :
    (addListeners names property list ids).perform s = (.ok (), t) ↔
      ∃ objects, List.Forall₂ names.Names ids objects ∧
        (objects = [] ∨ (s.heap.object list).listeners.isSome = true) ∧
        t = s.listen list objects := by
  constructor
  · intro h
    induction ids generalizing s with
    | nil =>
      cases h
      exact ⟨[], .nil, .inl rfl, (Session.listen_nil _ list).symm⟩
    | cons name rest ih =>
      obtain ⟨_, u, hname, hrest⟩ := Reading.bind_eq_ok.mp h
      obtain ⟨listener, hnames, hlist, rfl⟩ := perform_addListener_ok.mp hname
      obtain ⟨objects, hall, -, rfl⟩ := ih hrest
      exact ⟨listener :: objects, .cons hnames hall, .inr hlist, Session.listen_listen _ list _ _⟩
  · rintro ⟨objects, hall, rfl | hlist, rfl⟩
    · cases hall
      rw [s.listen_nil]
      rfl
    · rw [← List.append_nil ids, perform_addListeners_append hlist hall]
      rfl

/-- A bean that takes a value keeps what the property accepts of it. -/
theorem perform_put_ok (hbean : (s.heap.object id).access? = some (.bean bean)) {name : String}
    {value : Value} :
    (Reading.put id name value).perform s = (.ok (), t) ↔
      bean.frozen = false ∧ ∃ p kept, bean.property? name = some p ∧
        p.descriptor.kind ≠ .composite ∧ p.descriptor.kind ≠ .listenerList ∧
        p.intake.accept name "" value = .ok kept ∧
        t = { s with heap := (Change.store name kept).apply id s.heap } := by
  have hown : (s.heap.object id).bean = some bean := (Object.access?_eq_bean.mp hbean).2
  have hstore : ∀ kept, (Change.store name kept).apply id s.heap =
      s.heap.update id { s.heap.object id with bean := some (bean.store name kept) } := by
    intro kept
    rw [Change.apply, Heap.modify, Change.target, Change.onObject, hown, Option.map_some]
  rw [Reading.perform_put hbean, Session.set]
  constructor
  · intro h
    split at h
    · rename_i bean' hset
      obtain ⟨hfree, p, kept, hp, hsingle, hplain, hkept, rfl⟩ := Bean.set_eq_ok.mp hset
      cases h
      exact ⟨hfree, p, kept, hp, hsingle, hplain, hkept, by rw [hstore]⟩
    · cases h
  · rintro ⟨hfree, p, kept, hp, hsingle, hplain, hkept, rfl⟩
    rw [Bean.set_eq_ok.mpr ⟨hfree, p, kept, hp, hsingle, hplain, hkept, rfl⟩, hstore]

/-- An attribute of a bean succeeds when it is known what it is to do, and does that. -/
theorem perform_applyProperty_ok (hbean : (s.heap.object id).access? = some (.bean bean)) :
    (applyProperty c id a).perform s = (.ok (), t) ↔
      ∃ change, Due c s.heap bean a change ∧ t = { s with heap := change.apply id s.heap } := by
  unfold applyProperty
  simp only [Reading.perform_bind, Reading.perform_heap, hbean, Access.descriptor?, Access.get?,
    Bean.get?]
  constructor
  · intro h
    split at h
    · rename_i hkind
      obtain ⟨d, hd, hkind⟩ := Option.map_eq_some_iff.mp hkind
      obtain ⟨p, hp, rfl⟩ := Option.map_eq_some_iff.mp hd
      cases hlist : (p.held.bind Value.object?) with
      | none =>
        simp only [hp, Option.bind_some, hlist] at h
        cases h
      | some list =>
        simp only [hp, Option.bind_some, hlist] at h
        obtain ⟨objects, hall, htakes, rfl⟩ := perform_addListeners_ok.mp h
        exact ⟨.listen list objects, .listen hp (by rw [Property.list?, if_pos hkind, hlist]) hall
          htakes, rfl⟩
    · cases h
    · rename_i hlist hcomposite
      obtain ⟨value, u, hvalue, hput⟩ := Reading.bind_eq_ok.mp h
      obtain ⟨hresolved, rfl⟩ := Reading.lift_eq_ok.mp hvalue
      obtain ⟨hfree, p, kept, hp, hsingle, hplain, hkept, rfl⟩ := (perform_put_ok hbean).mp hput
      rw [hp] at hresolved
      exact ⟨.store a.name.localName kept, .store hfree hp hsingle hplain hresolved hkept, rfl⟩
  · rintro ⟨change, hdue, rfl⟩
    cases hdue with
    | store hfree hp hsingle hplain hresolved hkept =>
      simp only [hp, Option.map_some]
      split
      · rename_i hkind
        exact absurd (Option.some.inj hkind) hplain
      · rename_i hkind
        exact absurd (Option.some.inj hkind) hsingle
      · exact Reading.bind_eq_ok.mpr ⟨_, s, Reading.lift_eq_ok.mpr ⟨hresolved, rfl⟩,
          (perform_put_ok hbean).mpr ⟨hfree, _, _, hp, hsingle, hplain, hkept, rfl⟩⟩
    | listen hp hlist hall htakes =>
      rename_i p list objects
      have hkind : p.descriptor.kind = .listenerList := by
        by_contra hkind
        rw [Property.list?, if_neg hkind] at hlist
        cases hlist
      rw [Property.list?, if_pos hkind] at hlist
      simp only [hp, Option.map_some, hkind, Option.bind_some, hlist]
      exact perform_addListeners_ok.mpr ⟨objects, hall, htakes, rfl⟩

end Builder

theorem Bean.name_of_property? {p : Property} {name : String} (hp : bean.property? name = some p) :
    p ∈ bean.properties ∧ p.descriptor.name = name :=
  ⟨List.mem_of_find?_eq_some hp, by simpa using List.find?_some hp⟩

theorem Bean.property?_store_of_ne (bean : Bean) {name other : String} (hne : other ≠ name)
    (v : Value) : (bean.store name v).property? other = bean.property? other := by
  rw [property?_store]
  cases hp : bean.property? other with
  | none => rfl
  | some p =>
    have hname : p.descriptor.name ≠ name := by rwa [(name_of_property? hp).2]
    rw [Option.map_some, if_neg hname]

theorem Property.kind_of_list? {p : Property} {list : ObjectId} (hlist : p.list? = some list) :
    p.descriptor.kind = .listenerList := by
  by_contra hkind
  rw [list?, if_neg hkind] at hlist
  cases hlist

theorem Registry.Names.unique {names : Registry} : Relator.RightUnique names.Names := by
  intro name o o' ho ho'
  rw [Names, ho, Option.some.injEq] at ho'
  exact Value.object.inj ho'

namespace Due

theorem unique (hdue : Due c h bean a change) (hdue' : Due c h bean a other) : change = other := by
  cases hdue with
  | store hfree hp hsingle hplain hresolved hkept =>
    cases hdue' with
    | store hfree' hp' hsingle' hplain' hresolved' hkept' =>
      cases hp.symm.trans hp'
      cases hresolved.symm.trans hresolved'
      cases hkept.symm.trans hkept'
      rfl
    | listen hp' hlist' hall' htakes' =>
      cases hp.symm.trans hp'
      exact absurd (Property.kind_of_list? hlist') hplain
  | listen hp hlist hall htakes =>
    cases hdue' with
    | store hfree' hp' hsingle' hplain' hresolved' hkept' =>
      cases hp.symm.trans hp'
      exact absurd (Property.kind_of_list? hlist) hplain'
    | listen hp' hlist' hall' htakes' =>
      cases hp.symm.trans hp'
      cases hlist.symm.trans hlist'
      rw [List.right_unique_forall₂' Registry.Names.unique hall hall']

/-- What an attribute is to do is told by the property with its name, whether the bean is frozen,
and which objects are lists. -/
theorem congr (hfrozen : bean'.frozen = bean.frozen)
    (hproperty : bean'.property? a.name.localName = bean.property? a.name.localName)
    (hlists : ∀ list, (h'.object list).listeners.isSome = (h.object list).listeners.isSome)
    (hdue : Due c h bean a change) : Due c h' bean' a change := by
  cases hdue with
  | store hfree hp hsingle hplain hresolved hkept =>
    exact .store (hfrozen.trans hfree) (hproperty.trans hp) hsingle hplain hresolved hkept
  | listen hp hlist hall htakes =>
    exact .listen (hproperty.trans hp) hlist hall (htakes.imp_right fun h => (hlists _).trans h)

/-- An attribute with another name is to do the same after a change. -/
theorem after_iff (hdue : Due c h bean a change) (hname : a'.name.localName ≠ a.name.localName) :
    Due c (change.apply id h) (change.onBean bean) a' other ↔ Due c h bean a' other := by
  have hfrozen : (change.onBean bean).frozen = bean.frozen := by cases change <;> rfl
  have hproperty : (change.onBean bean).property? a'.name.localName =
      bean.property? a'.name.localName := by
    cases hdue with
    | store hfree hp hsingle hplain hresolved hkept => exact bean.property?_store_of_ne hname _
    | listen hp hlist hall htakes => rfl
  have hlists := fun list => change.isSome_listeners_apply id list h
  exact ⟨congr hfrozen.symm hproperty.symm fun list => (hlists list).symm,
    congr hfrozen hproperty hlists⟩

/-- Attributes with different names are to do things that are apart. -/
theorem apart (hapart : bean.ListsApart) (hdue : Due c h bean a change)
    (hdue' : Due c h bean a' other) (hname : a.name.localName ≠ a'.name.localName) :
    change.Apart other := by
  cases hdue with
  | store hfree hp hsingle hplain hresolved hkept =>
    cases hdue' with
    | store hfree' hp' hsingle' hplain' hresolved' hkept' => exact hname
    | listen hp' hlist' hall' htakes' => trivial
  | listen hp hlist hall htakes =>
    cases hdue' with
    | store hfree' hp' hsingle' hplain' hresolved' hkept' => trivial
    | listen hp' hlist' hall' htakes' =>
      obtain ⟨hmem, hpname⟩ := Bean.name_of_property? hp
      obtain ⟨hmem', hpname'⟩ := Bean.name_of_property? hp'
      rintro rfl
      refine hname ?_
      rw [← hpname, ← hpname']
      exact hapart _ hmem _ hmem' (by rw [hlist]; rfl) (hlist.trans hlist'.symm)

end Due

section Related

variable {α β : Type} {R S : α → β → Prop} {xs : List α} {ys : List β}

theorem forall₂_congr_of_mem (hrel : ∀ x ∈ xs, ∀ y, R x y → S x y) (hall : List.Forall₂ R xs ys) :
    List.Forall₂ S xs ys :=
  ((List.forall₂_and_left xs ys).mpr ⟨fun _ hx => hx, hall⟩).imp fun x y h => hrel x h.1 y h.2

theorem exists_of_mem_forall₂ (hall : List.Forall₂ R xs ys) {y : β} (hy : y ∈ ys) :
    ∃ x ∈ xs, R x y := by
  induction hall with
  | nil => cases hy
  | cons hxy _ ih =>
    rcases List.mem_cons.mp hy with rfl | hy
    · exact ⟨_, List.mem_cons_self, hxy⟩
    · obtain ⟨x, hx, hrel⟩ := ih hy
      exact ⟨x, List.mem_cons_of_mem _ hx, hrel⟩

end Related

namespace Builder

/-- Attributes succeed when it is known of each what it is to do before any of them is applied, and
do that in their order. -/
theorem perform_applyAll_ok {attributes : List Attribute}
    (hplain : ∀ a ∈ attributes, a.isAttached = false)
    (hdistinct : (attributes.map fun a => a.name.localName).Nodup)
    (hbean : (s.heap.object id).access? = some (.bean bean)) :
    (b.applyAll element id attributes).perform s = (.ok (), t) ↔
      ∃ changes, List.Forall₂ (Due b.context s.heap bean) attributes changes ∧
        t = { s with heap := changes.foldl (Change.apply id) s.heap } := by
  induction attributes generalizing s bean with
  | nil =>
    constructor
    · intro h
      cases h
      exact ⟨[], .nil, rfl⟩
    · rintro ⟨changes, hall, rfl⟩
      cases hall
      rfl
  | cons a rest ih =>
    obtain ⟨hnew, hdistinct⟩ := List.nodup_cons.mp hdistinct
    have hother : ∀ a' ∈ rest, a'.name.localName ≠ a.name.localName := fun a' ha' hsame =>
      hnew (List.mem_map.mpr ⟨a', ha', hsame⟩)
    have hhead : b.applyAttribute element id a = applyProperty b.context id a := by
      rw [applyAttribute, if_neg (by simpa [Attribute.isAttached] using hplain a List.mem_cons_self)]
    -- What the rest is to do is the same before and after the first attribute.
    have hrest : ∀ {change : Change}, Due b.context s.heap bean a change → ∀ changes,
        List.Forall₂ (Due b.context (change.apply id s.heap) (change.onBean bean)) rest changes ↔
          List.Forall₂ (Due b.context s.heap bean) rest changes := by
      intro change hdue changes
      exact ⟨forall₂_congr_of_mem fun a' ha' _ => (hdue.after_iff (hother a' ha')).mp,
        forall₂_congr_of_mem fun a' ha' _ => (hdue.after_iff (hother a' ha')).mpr⟩
    have ih' := fun change : Change => ih (s := { s with heap := change.apply id s.heap })
      (fun a ha => hplain a (List.mem_cons_of_mem _ ha)) hdistinct (change.access?_apply hbean)
    rw [applyAll, hhead, Reading.bind_eq_ok]
    constructor
    · rintro ⟨_, u, hfirst, hlater⟩
      obtain ⟨change, hdue, rfl⟩ := (perform_applyProperty_ok hbean).mp hfirst
      obtain ⟨changes, hall, rfl⟩ := (ih' change).mp hlater
      exact ⟨change :: changes, .cons hdue ((hrest hdue changes).mp hall), rfl⟩
    · rintro ⟨changes, hall, rfl⟩
      cases hall with
      | cons hdue hall =>
        exact ⟨(), _, (perform_applyProperty_ok hbean).mpr ⟨_, hdue, rfl⟩,
          (ih' _).mpr ⟨_, (hrest hdue _).mpr hall, rfl⟩⟩

theorem applyAttributes_of_object (hobject : element.value.object? = some id)
    (attributes : List Attribute) :
    b.applyAttributes element attributes = b.applyAll element id attributes := by
  cases attributes with
  | nil => rfl
  | cons a rest =>
    unfold applyAttributes
    simp only [List.isEmpty_cons, Bool.false_eq_true, if_false, hobject]

/-- Attributes that succeed in one order do so in every other, with the same changes. -/
theorem perform_applyAll_perm {attributes attributes' : List Attribute} (hapart : bean.ListsApart)
    (hplain : ∀ a ∈ attributes, a.isAttached = false)
    (hdistinct : (attributes.map fun a => a.name.localName).Nodup)
    (hbean : (s.heap.object id).access? = some (.bean bean))
    (horder : attributes.Perm attributes') (element' : Element)
    (happly : (b.applyAll element id attributes).perform s = (.ok (), t)) :
    (b.applyAll element' id attributes').perform s = (.ok (), t) := by
  have hplain' : ∀ a ∈ attributes', a.isAttached = false := fun a ha =>
    hplain a (horder.mem_iff.mpr ha)
  have hdistinct' := (horder.map fun a => a.name.localName).nodup hdistinct
  rw [perform_applyAll_ok hplain hdistinct hbean] at happly
  rw [perform_applyAll_ok hplain' hdistinct' hbean]
  obtain ⟨changes, hall, rfl⟩ := happly
  obtain ⟨changes', hall', hperm⟩ := List.perm_comp_forall₂ horder.symm hall
  -- Two changes by one attribute are one change, and any other two are apart.
  have hcomm : ∀ d ∈ changes, ∀ e ∈ changes, ∀ h,
      e.apply id (d.apply id h) = d.apply id (e.apply id h) := by
    intro d hd e he h
    obtain ⟨a, ha, hdue⟩ := exists_of_mem_forall₂ hall hd
    obtain ⟨a', ha', hdue'⟩ := exists_of_mem_forall₂ hall he
    by_cases hname : a.name.localName = a'.name.localName
    · obtain rfl := List.inj_on_of_nodup_map hdistinct ha ha' hname
      rw [hdue.unique hdue']
    · exact Change.apply_comm (hdue.apart hapart hdue' hname) id h
  exact ⟨changes', hall', by rw [hperm.symm.foldl_eq' hcomm s.heap]⟩

end Builder

/-- An element that stands for a bean ends alike in whatever order its attributes are written: it
succeeds in one order when it does in the other, and then with the same names, the same open elements
around it and the same objects, so with the same values in the bean, the same lists of listeners and
the same place in the object around it. -/
theorem attributes_unordered {attributes attributes' : List Attribute}
    (hholder : element.holder? = some id)
    (hbean : (s.heap.object id).access? = some (.bean bean)) (hapart : bean.ListsApart)
    (hplain : ∀ a ∈ attributes, a.isAttached = false)
    (hdistinct : (attributes.map fun a => a.name.localName).Nodup)
    (horder : attributes.Perm attributes') (place : Location) (b' : Builder) (t : Session) :
    ((b.push (element.withPending attributes)).step nested (.closed place)).perform s =
        (.ok b', t) ↔
      ((b.push (element.withPending attributes')).step nested (.closed place)).perform s =
        (.ok b', t) := by
  have hplain' : ∀ a ∈ attributes', a.isAttached = false := fun a ha =>
    hplain a (horder.mem_iff.mpr ha)
  have hdistinct' := (horder.map fun a => a.name.localName).nodup hdistinct
  have hobject : ∀ pending, (element.withPending pending).value.object? = some id := fun pending => by
    rw [element.value_withPending, Element.object?_of_holder hholder]
  rw [Element.closed_withPending hholder, Element.closed_withPending hholder,
    Builder.applyAttributes_of_object (hobject _), Builder.applyAttributes_of_object (hobject _),
    Reading.bind_eq_ok, Reading.bind_eq_ok]
  constructor
  · rintro ⟨_, u, happly, hsettle⟩
    exact ⟨(), u, Builder.perform_applyAll_perm hapart hplain hdistinct hbean horder _ happly,
      hsettle⟩
  · rintro ⟨_, u, happly, hsettle⟩
    exact ⟨(), u, Builder.perform_applyAll_perm hapart hplain' hdistinct' hbean horder.symm _ happly,
      hsettle⟩

/-- A text, a number and a listener, written from the first to the last and from the last to the
first. The bean joins the panel around it either way. -/
theorem attributes_unordered_of_three :
    let heap : List Object → Object → Heap := fun parts panel =>
      ⟨panel :: (parts ++ [Demo.handler.root])⟩
    let s : Session := ⟨heap (Demo.foo.copyAt 1) Demo.panel.root, [], .idle⟩
    let panel : Element := ⟨⟨none, "Panel", some "demo"⟩, ⟨1, 1⟩, .created ⟨0⟩ ⟨none, []⟩⟩
    let foo : Element := ⟨⟨none, "Foo", some "demo"⟩, ⟨2, 1⟩, .created ⟨1⟩ ⟨some "foo", []⟩⟩
    let b : Builder :=
      { Builder.start .plain none with
        names := Registry.empty.put "h" (.object ⟨4⟩)
        stack := [panel] }
    let plain : String → String → Attribute := fun name value => ⟨⟨none, name, none⟩, value⟩
    let attributes := [plain "bar" "x", plain "count" "3", plain "listeners" "h,h"]
    let closes : List Attribute → Except ReadError Builder × Session := fun attributes =>
      ((b.push (foo.withPending attributes)).step (Reader.readNested 0) (.closed ⟨2, 40⟩)).perform s
    ∃ b' t, closes attributes = (.ok b', t) ∧ closes attributes.reverse = (.ok b', t) ∧
      b'.names.get? "foo" = some (.object ⟨1⟩) ∧
      (t.heap.object ⟨0⟩).items = [.object ⟨1⟩] ∧
      (t.heap.object ⟨3⟩).listeners = some [⟨4⟩, ⟨4⟩] ∧
      ((t.heap.object ⟨1⟩).access?.bind fun access => access.get? "count") = some (.int 3) := by
  intro heap s panel foo b plain attributes closes
  have hbuilder : (closes attributes).1 =
      .ok { b with names := b.names.put "foo" (.object ⟨1⟩) } := by
    dsimp only [closes, attributes, b, s, panel, foo, plain, heap]
    rfl
  have hfirst : closes attributes =
      (.ok { b with names := b.names.put "foo" (.object ⟨1⟩) }, (closes attributes).2) :=
    Prod.ext hbuilder rfl
  have hholder : foo.holder? = some ⟨1⟩ := rfl
  have hlast := (attributes_unordered hholder rfl (by decide) (by decide) (by decide)
    attributes.reverse_perm.symm ⟨2, 40⟩ _ _).mp hfirst
  exact ⟨_, _, hfirst, hlast, by decide, by decide, by decide, by decide⟩

/-- No two properties of a sample type hold one list. -/
example : ∀ f ∈ Demo.factories, ∀ blueprint ∈ f.2.toOption, ∀ bean ∈ blueprint.root.bean,
    bean.ListsApart := by
  decide

end ObjectMarkup
