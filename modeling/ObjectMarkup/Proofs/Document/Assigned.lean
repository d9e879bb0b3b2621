import ObjectMarkup.Proofs.Document.Steps
import ObjectMarkup.Proofs.Markup.Balance
import ObjectMarkup.Proofs.Renaming.Object

namespace ObjectMarkup

open Markup

def Markup.Attribute.isAttached (a : Attribute) : Bool := Unicode.startsUppercase a.name.localName

/-- The last of the attributes that assign a property of the object itself. -/
def lastAssigning? (name : String) (attributes : List Attribute) : Option Attribute :=
  (attributes.filter fun a => !a.isAttached && a.name.localName = name).getLast?

theorem lastAssigning?_cons (name : String) (a : Attribute) (rest : List Attribute) :
    lastAssigning? name (a :: rest) =
      (lastAssigning? name rest).or (lastAssigning? name [a]) := by
  simp only [lastAssigning?, List.filter_cons, List.filter_nil]
  split
  · rw [List.getLast?_cons, List.getLast?_singleton]
    cases (List.filter _ rest).getLast? <;> rfl
  · rw [List.getLast?_nil, Option.or_none]

theorem Element.exists_closing {e : Element} {a : Attribute} {attributes : List Attribute}
    (h : e.pending = a :: attributes) :
    ∃ closing, e.closing? = some closing ∧ closing.attributes = a :: attributes := by
  cases hclosing : e.closing? with
  | none => simp [pending, hclosing] at h
  | some closing => exact ⟨closing, rfl, by simpa [pending, hclosing] using h⟩

/-- What a property accepts does not depend on the label of the value. -/
theorem Intake.accept_found {intake : Intake} {property found : String} {v kept : Value}
    (h : intake.accept property found v = .ok kept) (found' : String) :
    intake.accept property found' v = .ok kept := by
  unfold accept at h ⊢
  cases intake <;> grind

namespace Object

open Builder (propertyKind?)

variable {o o' o'' : Object} {name found : String} {v : Value}

def get? (o : Object) (name : String) : Option Value := o.access?.bind fun a => a.get? name

/-- The declared type of a property. Entries of a dictionary have none. -/
def type? (o : Object) (name : String) : Option ValueType :=
  (o.access?.bind fun a => a.descriptor? name).map PropertyDescriptor.type

/-- What a property keeps of a value that it takes: the value itself in a dictionary. -/
def kept? (o : Object) (name : String) (v : Value) : Option Value :=
  match o.access? with
  | some (.dictionary _) => some v
  | some (.bean b) => (b.property? name).bind fun p => (p.intake.accept name "" v).toOption
  | none => none

theorem access?_of_dictionary (h : o.dictionary.isSome = true) :
    ∃ entries, o.access? = some (.dictionary entries) := by
  obtain ⟨entries, hentries⟩ := Option.isSome_iff_exists.mp h
  exact ⟨entries, by simp only [access?, hentries]⟩

theorem propertyKind?_of_dictionary (h : o.dictionary.isSome = true) (name : String) :
    propertyKind? o name = none := by
  obtain ⟨entries, hentries⟩ := access?_of_dictionary h
  simp [propertyKind?, hentries, Access.descriptor?]

/-- The properties are of the same kinds and types, and keep the same of every value. -/
structure Declares (o o' : Object) : Prop where
  kind : ∀ name, propertyKind? o' name = propertyKind? o name
  type : ∀ name, o'.type? name = o.type? name
  kept : ∀ name v, o'.kept? name v = o.kept? name v

theorem Declares.trans (h : o.Declares o') (h' : o'.Declares o'') : o.Declares o'' where
  kind := fun name => (h'.kind name).trans (h.kind name)
  type := fun name => (h'.type name).trans (h.type name)
  kept := fun name v => (h'.kept name v).trans (h.kept name v)

theorem Declares.of_access (h : o'.access? = o.access?) : o.Declares o' where
  kind := fun name => by rw [propertyKind?, propertyKind?, h]
  type := fun name => by rw [type?, type?, h]
  kept := fun name v => by rw [kept?, kept?, h]

theorem get?_of_access (h : o'.access? = o.access?) (name : String) : o'.get? name = o.get? name := by
  rw [get?, get?, h]

theorem Declares.of_store {b : Bean} (ho : o.access? = some (.bean b))
    (ho' : o'.access? = some (.bean (b.store name v))) : o.Declares o' := by
  have hproperty : ∀ other, ∀ (α : Type) (f : Property → α),
      (∀ p held, f { p with held } = f p) →
      ((b.store name v).property? other).map f = (b.property? other).map f := by
    intro other α f hf
    rw [Bean.property?_store, Option.map_map]
    congr 1
    funext p
    simp only [Function.comp_apply]
    split
    · exact hf p _
    · rfl
  have hdescriptor : ∀ other, ((b.store name v).property? other).map Property.descriptor =
      (b.property? other).map Property.descriptor :=
    fun other => hproperty other _ Property.descriptor fun _ _ => rfl
  refine ⟨fun other => ?_, fun other => ?_, fun other w => ?_⟩
  · simp [propertyKind?, ho, ho', Access.descriptor?, hdescriptor]
  · simp [type?, ho, ho', Access.descriptor?, hdescriptor]
  · have hintake := hproperty other _ Property.intake fun _ _ => rfl
    simp only [kept?, ho, ho']
    cases hp : b.property? other <;> cases hq : (b.store name v).property? other <;>
      simp_all

/-- An assignment stores what the property keeps of the value, and nothing else. -/
theorem put_ok (h : o.put name found v = .ok o') :
    o.Declares o' ∧ ∃ kept, o.kept? name v = some kept ∧
      ∀ other, o'.get? other = if name = other then some kept else o.get? other := by
  unfold put at h
  split at h
  · rename_i entries haccess
    cases h
    have hafter : access? { o with dictionary := some (entries.insert name v) } =
        some (.dictionary (entries.insert name v)) := rfl
    refine ⟨⟨fun _ => ?_, fun _ => ?_, fun _ _ => ?_⟩, v, by simp only [kept?, haccess], fun other => ?_⟩
    · simp [propertyKind?, haccess, hafter, Access.descriptor?]
    · simp [type?, haccess, hafter, Access.descriptor?]
    · simp only [kept?, haccess, hafter]
    · simp [get?, haccess, hafter, Access.get?, OrderedMap.get?_insert]
  · rename_i b haccess
    obtain ⟨b', hset, rfl⟩ := exists_of_map_ok h
    obtain ⟨p, kept, hp, -, -, hkept, rfl⟩ := Bean.set_ok hset
    have hdictionary : o.dictionary = none := by
      cases hdictionary : o.dictionary with
      | none => rfl
      | some entries => simp [access?, hdictionary] at haccess
    have hafter : access? { o with bean := some (b.store name kept) } =
        some (.bean (b.store name kept)) := by simp [access?, hdictionary]
    refine ⟨.of_store haccess hafter, kept, ?_, fun other => ?_⟩
    · simp [kept?, haccess, hp, p.intake.accept_found hkept "", Except.toOption]
    · simp only [get?, haccess, hafter, Option.bind_some, Access.get?, Bean.get?,
        Bean.property?_store]
      cases hq : b.property? other with
      | none =>
        split
        · rename_i hname
          rw [← hname, hp] at hq
          cases hq
        · rfl
      | some q =>
        have hother : q.descriptor.name = other := by simpa using List.find?_some hq
        by_cases hname : name = other
        · simp [hname, hother]
        · simp [hname, hother, Ne.symm hname]
  · cases h

end Object

theorem Reading.heap_of_put {s t : Session} {o : ObjectId} {name : String} {v : Value}
    (h : (put o name v).perform s = (.ok (), t)) : s.heap.put o name v = .ok t.heap := by
  obtain ⟨heap, u, hheap, hrest⟩ := Reading.bind_eq_ok.mp h
  cases hheap
  obtain ⟨heap, u, hlift, hset⟩ := Reading.bind_eq_ok.mp hrest
  obtain ⟨hput, rfl⟩ := Reading.lift_eq_ok.mp hlift
  cases hset
  exact hput

theorem Heap.object_of_put {h h' : Heap} {o : ObjectId} {name : String} {v : Value}
    (hput : h.put o name v = .ok h') :
    ∃ new, (h.object o).put name (h.labelDuring o v) v = .ok new ∧ h'.object o = new := by
  obtain ⟨new, hnew, rfl⟩ := exists_of_map_ok hput
  have hthere : o.index < h.size := by
    refine Nat.lt_of_not_le fun hsize => ?_
    rw [object, List.getElem?_eq_none hsize] at hnew
    cases hnew
  exact ⟨new, hnew, by rw [object_update, if_pos ⟨rfl, hthere⟩]⟩

/-- The properties of every object are reached as before, and hold the same. -/
def Heap.SameAccess (h h' : Heap) : Prop := ∀ o, (h'.object o).access? = (h.object o).access?

namespace Heap.SameAccess

variable {h h' h'' : Heap} {o p : ObjectId} {v : Value}

theorem refl (h : Heap) : h.SameAccess h := fun _ => rfl

theorem trans (hh : h.SameAccess h') (hh' : h'.SameAccess h'') : h.SameAccess h'' :=
  fun o => (hh' o).trans (hh o)

theorem update {new : Object} (hnew : new.access? = (h.object o).access?) :
    h.SameAccess (h.update o new) := by
  intro p
  rw [object_update]
  split
  · rename_i hop
    rw [hnew, hop.1]
  · rfl

theorem addItem {added : Except PropertyError Heap} (hadd : h.addItem? o v = some added)
    (hok : added = .ok h') : h.SameAccess h' := by
  subst hok
  obtain ⟨q, -, hadd⟩ := Option.map_eq_some_iff.mp hadd
  obtain ⟨q', -, rfl⟩ := exists_of_map_ok hadd
  exact update rfl

theorem addListener (hadd : h.addListener? o p = some h') : h.SameAccess h' := by
  obtain ⟨ls, -, rfl⟩ := Option.map_eq_some_iff.mp hadd
  exact update rfl

end Heap.SameAccess

namespace Context

variable {c : Context} {first last : Option Attribute} {name : String} {o o' o'' : Object}

/-- What an object holds under a name after an attribute, if any, that assigns the property: what it
keeps of the value that the attribute stands for in the context. -/
def Assigns (c : Context) (a : Option Attribute) (name : String) (o o' : Object) : Prop :=
  match a with
  | none => o'.get? name = o.get? name
  | some a => ∃ v kept, c.resolve a.value (o.type? name) = .ok v ∧ o.kept? name v = some kept ∧
      o'.get? name = some kept

theorem Assigns.of_get? (h : c.Assigns first name o o') (hsame : o''.get? name = o'.get? name) :
    c.Assigns first name o o'' := by
  cases first with
  | none => exact hsame.trans h
  | some a =>
    obtain ⟨v, kept, hv, hkept, hget⟩ := h
    exact ⟨v, kept, hv, hkept, hsame.trans hget⟩

/-- A dictionary holds what the attribute stands for itself. -/
theorem Assigns.get?_of_dictionary {a : Attribute} {v : Value} (h : c.Assigns first name o o')
    (hfirst : first = some a) (ho : o.dictionary.isSome = true)
    (hv : c.resolve a.value none = .ok v) : o'.get? name = some v := by
  subst hfirst
  obtain ⟨w, kept, hw, hkept, hget⟩ := h
  obtain ⟨entries, hentries⟩ := Object.access?_of_dictionary ho
  have htype : o.type? name = none := by simp [Object.type?, hentries, Access.descriptor?]
  rw [htype, hv] at hw
  cases hw
  rw [Object.kept?, hentries] at hkept
  exact hget.trans hkept.symm

/-- Of two attributes in a row the later one counts. -/
theorem Assigns.trans (h : c.Assigns first name o o') (hdeclares : o.Declares o')
    (h' : c.Assigns last name o' o'') : c.Assigns (last.or first) name o o'' := by
  cases last with
  | none => exact h.of_get? h'
  | some a =>
    obtain ⟨v, kept, hv, hkept, hget⟩ := h'
    exact ⟨v, kept, by rw [← hdeclares.type, hv], by rw [← hdeclares.kept, hkept], hget⟩

end Context

namespace Builder

variable {c : Context} {b b' : Builder} {e : Element} {s t : Session} {o : ObjectId} {a : Attribute}
  {name : String} {attributes : List Attribute}

theorem addListeners_access {names : Registry} {property : String} {list : ObjectId}
    {ids : List String} (h : (addListeners names property list ids).perform s = (.ok (), t)) :
    s.heap.SameAccess t.heap := by
  induction ids generalizing s with
  | nil =>
    cases h
    exact .refl _
  | cons id rest ih =>
    obtain ⟨⟨⟩, u, hfirst, hrest⟩ := Reading.bind_eq_ok.mp h
    refine .trans ?_ (ih hrest)
    unfold addListener at hfirst
    obtain ⟨heap, w, hheap, hadd⟩ := Reading.bind_eq_ok.mp hfirst
    cases hheap
    split at hadd
    · cases hadd
    · split at hadd
      · rename_i hlist
        cases hadd
        exact .addListener hlist
      · cases hadd
    · cases hadd

/-- An attribute of the object itself stores the value that it stands for, and one that fills a list
of listeners stores nothing. -/
theorem applyProperty_assigns (h : (applyProperty c o a).perform s = (.ok (), t)) :
    (s.heap.object o).Declares (t.heap.object o) ∧
      ∀ name, propertyKind? (s.heap.object o) name ≠ some .listenerList →
        c.Assigns (if a.name.localName = name then some a else none) name (s.heap.object o)
          (t.heap.object o) := by
  unfold applyProperty at h
  obtain ⟨heap, u, hheap, hrest⟩ := Reading.bind_eq_ok.mp h
  cases hheap
  dsimp only at hrest
  split at hrest
  · cases hrest
  · rename_i access haccess
    have hkind : propertyKind? (s.heap.object o) a.name.localName =
        (access.descriptor? a.name.localName).map PropertyDescriptor.kind := by
      simp [propertyKind?, haccess]
    split at hrest
    · rename_i hlist
      split at hrest
      · cases hrest
      · have hsame := addListeners_access hrest o
        refine ⟨.of_access hsame, fun name hname => ?_⟩
        rw [if_neg]
        · exact Object.get?_of_access hsame name
        · rintro rfl
          exact hname (hkind.trans hlist)
    · cases hrest
    · obtain ⟨v, u, hlift, hput⟩ := Reading.bind_eq_ok.mp hrest
      obtain ⟨hresolve, rfl⟩ := Reading.lift_eq_ok.mp hlift
      obtain ⟨new, hnew, hobject⟩ := Heap.object_of_put (Reading.heap_of_put hput)
      obtain ⟨hdeclares, kept, hkept, hget⟩ := Object.put_ok hnew
      rw [hobject]
      refine ⟨hdeclares, fun name _ => ?_⟩
      split
      · rename_i hname
        refine ⟨v, kept, ?_, hname ▸ hkept, by rw [hget, if_pos hname]⟩
        rw [← hresolve, Object.type?, haccess, hname]
        rfl
      · rename_i hname
        exact (hget name).trans (if_neg hname)

theorem applyAttribute_assigns (h : (b.applyAttribute e o a).perform s = (.ok (), t)) :
    (s.heap.object o).Declares (t.heap.object o) ∧
      ∀ name, propertyKind? (s.heap.object o) name ≠ some .listenerList →
        b.context.Assigns (lastAssigning? name [a]) name (s.heap.object o) (t.heap.object o) := by
  unfold applyAttribute at h
  split at h
  · rename_i hupper
    have hheap : t.heap = s.heap := by
      unfold applyAttached at h
      split at h
      · cases h
      · split at h
        · cases h
        · dsimp only at h
          split at h
          · cases h
          · obtain ⟨v, u, hresolve, hnote⟩ := Reading.bind_eq_ok.mp h
            obtain ⟨-, rfl⟩ := Reading.lift_eq_ok.mp hresolve
            obtain ⟨w, u, hget, hnoted⟩ := Reading.bind_eq_ok.mp hnote
            cases hget
            obtain ⟨log, w, hlog, hset⟩ := Reading.bind_eq_ok.mp hnoted
            obtain ⟨-, rfl⟩ := Reading.lift_eq_ok.mp hlog
            cases hset
            rfl
    rw [hheap]
    refine ⟨.of_access rfl, fun name _ => ?_⟩
    have hattached : a.isAttached = true := hupper
    simp [lastAssigning?, hattached, Context.Assigns]
  · rename_i hlower
    have hplain : a.isAttached = false := by simpa [Attribute.isAttached] using hlower
    obtain ⟨hdeclares, hassigns⟩ := applyProperty_assigns h
    refine ⟨hdeclares, fun name hname => ?_⟩
    have hlast : lastAssigning? name [a] = if a.name.localName = name then some a else none := by
      by_cases hlocal : a.name.localName = name <;> simp [lastAssigning?, hplain, hlocal]
    rw [hlast]
    exact hassigns name hname

theorem applyAll_assigns (h : (b.applyAll e o attributes).perform s = (.ok (), t)) :
    (s.heap.object o).Declares (t.heap.object o) ∧
      ∀ name, propertyKind? (s.heap.object o) name ≠ some .listenerList →
        b.context.Assigns (lastAssigning? name attributes) name (s.heap.object o)
          (t.heap.object o) := by
  induction attributes generalizing s with
  | nil =>
    cases h
    exact ⟨.of_access rfl, fun _ _ => rfl⟩
  | cons a rest ih =>
    obtain ⟨⟨⟩, u, hfirst, hrest⟩ := Reading.bind_eq_ok.mp h
    obtain ⟨hdeclares, hassigns⟩ := applyAttribute_assigns hfirst
    obtain ⟨hdeclares', hassigns'⟩ := ih hrest
    refine ⟨hdeclares.trans hdeclares', fun name hname => ?_⟩
    rw [lastAssigning?_cons]
    exact (hassigns name hname).trans hdeclares
      (hassigns' name (by rwa [hdeclares.kind]))

/-- The attributes of an element leave in its object what each of them that counts stands for. -/
theorem applyAttributes_assigns (h : (b.applyAttributes e attributes).perform s = (.ok (), t))
    (ho : e.value.object? = some o)
    (hname : propertyKind? (s.heap.object o) name ≠ some .listenerList) :
    b.context.Assigns (lastAssigning? name attributes) name (s.heap.object o) (t.heap.object o) := by
  unfold applyAttributes at h
  split at h
  · rename_i hempty
    cases h
    rw [List.isEmpty_iff.mp hempty]
    rfl
  · rw [ho] at h
    exact (applyAll_assigns h).2 name hname

theorem joinObject_access {v : Value} {place : Location}
    (h : (joinObject e v place).perform s = (.ok (), t)) : s.heap.SameAccess t.heap := by
  unfold joinObject at h
  split at h
  · cases h
  · obtain ⟨heap, u, hheap, hrest⟩ := Reading.bind_eq_ok.mp h
    cases hheap
    split at hrest
    · rename_i hadd
      obtain ⟨heap, u, hlift, hset⟩ := Reading.bind_eq_ok.mp hrest
      obtain ⟨hok, rfl⟩ := Reading.lift_eq_ok.mp hlift
      cases hset
      exact .addItem hadd hok
    · split at hrest
      · rename_i p _ _
        cases hrest
        change Heap.SameAccess _ ((s.heap.addListener? _ p).getD s.heap)
        cases hadd : s.heap.addListener? _ p with
        | none => exact .refl _
        | some h => exact .addListener hadd
      · cases hrest
      · cases hrest

theorem join_access {v : Value} {place : Location}
    (h : (b.join v place).perform s = (.ok b', t)) : s.heap.SameAccess t.heap := by
  unfold join at h
  split at h
  · cases h
    exact .refl _
  · split at h
    · cases h
      exact .refl _
    · cases h
    · obtain ⟨⟨⟩, u, hjoin, hret⟩ := Reading.bind_eq_ok.mp h
      cases hret
      exact joinObject_access hjoin

end Builder

end ObjectMarkup
