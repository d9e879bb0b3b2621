import ObjectMarkup.Proofs.Document.Edits
import ObjectMarkup.Proofs.Document.Visit
import ObjectMarkup.Proofs.Renaming.Heap

namespace ObjectMarkup

open Markup

open Builder (propertyKind? Reached)

/-- Whether markup works on what the property holds, and never assigns it. -/
def PropertyKind.isInPlace : PropertyKind → Bool
  | .composite => true
  | .listenerList => true
  | _ => false

namespace Object

variable {o o' o'' : Object} {name found : String} {v : Value} {kind : PropertyKind}

def property? (o : Object) (name : String) : Option Property :=
  o.bean.bind fun b => b.property? name

/-- What stays of an object when it changes: whether it is a dictionary, what its type declares, and
what its composites and listener lists are. -/
structure Keeps (o o' : Object) : Prop where
  dictionary : o'.dictionary.isSome = o.dictionary.isSome
  declared : ∀ name, (o'.property? name).map Property.descriptor =
    (o.property? name).map Property.descriptor
  held : ∀ name p, o.property? name = some p → p.descriptor.kind.isInPlace = true →
    o'.property? name = some p

/-- The properties are of the same kinds, and the getters of composites and listener lists yield the
same. Those of a bean do even if the object is a dictionary too. -/
structure SameParts (o o' : Object) : Prop where
  kind : ∀ name, propertyKind? o' name = propertyKind? o name
  get : ∀ name kind, propertyKind? o name = some kind → kind.isInPlace = true →
    o'.get? name = o.get? name
  bean : ∀ name p, o.property? name = some p → p.descriptor.kind.isInPlace = true →
    o'.property? name = some p

theorem propertyKind?_eq (o : Object) (name : String) :
    propertyKind? o name = if o.dictionary.isSome then none
      else ((o.property? name).map Property.descriptor).map PropertyDescriptor.kind := by
  obtain ⟨typeName, dictionary, bean, sequence, listeners⟩ := o
  cases dictionary <;> cases bean <;> rfl

theorem get?_of_kind (h : propertyKind? o name = some kind) :
    ∃ p, o.property? name = some p ∧ p.descriptor.kind = kind ∧ o.get? name = p.held := by
  obtain ⟨typeName, dictionary, bean, sequence, listeners⟩ := o
  cases dictionary with
  | some entries => cases h
  | none =>
    cases bean with
    | none => cases h
    | some b =>
      obtain ⟨d, hd, rfl⟩ := Option.map_eq_some_iff.mp h
      obtain ⟨p, hp, rfl⟩ := Option.map_eq_some_iff.mp hd
      exact ⟨p, hp, rfl, by simp [get?, access?, Access.get?, Bean.get?, hp]⟩

namespace Keeps

theorem refl (o : Object) : o.Keeps o := ⟨rfl, fun _ => rfl, fun _ _ hp _ => hp⟩

theorem trans (h : o.Keeps o') (h' : o'.Keeps o'') : o.Keeps o'' where
  dictionary := h'.dictionary.trans h.dictionary
  declared := fun name => (h'.declared name).trans (h.declared name)
  held := fun name p hp hk => h'.held name p (h.held name p hp hk) hk

theorem of_bean (hdictionary : o'.dictionary.isSome = o.dictionary.isSome)
    (hbean : o'.bean = o.bean) : o.Keeps o' := by
  have hproperty : ∀ name, o'.property? name = o.property? name := by
    intro name
    rw [property?, property?, hbean]
  exact ⟨hdictionary, fun name => by rw [hproperty], fun name p hp _ => (hproperty name).trans hp⟩

theorem kind_eq (h : o.Keeps o') (name : String) :
    propertyKind? o' name = propertyKind? o name := by
  rw [propertyKind?_eq, propertyKind?_eq, h.dictionary, h.declared]

theorem get_eq (h : o.Keeps o') (hkind : propertyKind? o name = some kind)
    (hplace : kind.isInPlace = true) : o'.get? name = o.get? name := by
  obtain ⟨p, hp, rfl, hget⟩ := get?_of_kind hkind
  obtain ⟨p', hp', -, hget'⟩ := get?_of_kind ((h.kind_eq name).trans hkind)
  rw [h.held name p hp hplace, Option.some.injEq] at hp'
  rw [hget, hget', hp']

theorem sameParts (h : o.Keeps o') : o.SameParts o' := ⟨h.kind_eq, fun _ _ => h.get_eq, h.held⟩

/-- An assignment reaches neither a composite nor a list of listeners. -/
theorem of_put (h : o.put name found v = .ok o') : o.Keeps o' := by
  obtain ⟨typeName, dictionary, bean, sequence, listeners⟩ := o
  cases dictionary with
  | some entries =>
    cases h
    exact of_bean rfl rfl
  | none =>
    cases bean with
    | none => cases h
    | some b =>
      obtain ⟨b', hset, rfl⟩ := exists_of_map_ok h
      obtain ⟨p, kept, hp, hcomposite, hlist, -, rfl⟩ := Bean.set_ok hset
      refine ⟨rfl, fun other => ?_, fun other q hq hplace => ?_⟩
      · simp only [property?, Option.bind_some, Bean.property?_store, Option.map_map]
        congr 1
        funext q
        simp only [Function.comp_apply]
        split <;> rfl
      · simp only [property?, Option.bind_some] at hq ⊢
        rw [Bean.property?_store, hq, Option.map_some, if_neg]
        intro hname
        have hother : q.descriptor.name = other := by simpa using List.find?_some hq
        have hpq : p = q := by
          rw [← hname, hother, hq] at hp
          exact (Option.some.inj hp).symm
        subst hpq
        cases hkind : p.descriptor.kind <;> simp_all [PropertyKind.isInPlace]

end Keeps

theorem typeName_of_put (h : o.put name found v = .ok o') : o'.typeName = o.typeName := by
  unfold put at h
  split at h
  · cases h
    rfl
  · obtain ⟨b', -, rfl⟩ := exists_of_map_ok h
    rfl
  · cases h

end Object

/-- The objects have become no fewer, and those that were there keep their parts. -/
structure Heap.Keeps (h h' : Heap) : Prop where
  grown : h.size ≤ h'.size
  object : ∀ o, o.index < h.size → (h.object o).Keeps (h'.object o)

namespace Heap

variable {h h' h'' : Heap} {o : ObjectId} {name : String} {kind : PropertyKind}

instance : IsPreorder Heap Heap.Keeps where
  refl _ := ⟨Nat.le_refl _, fun _ _ => .refl _⟩
  trans _ _ _ h h' := ⟨Nat.le_trans h.grown h'.grown, fun o ho =>
    (h.object o ho).trans (h'.object o (Nat.lt_of_lt_of_le ho h.grown))⟩

theorem Edit.eq_update (h₁ : h.Edit h') :
    ∃ o new, (h.object o).Keeps new ∧ new.typeName = h.typeName o ∧ h' = h.update o new := by
  cases h₁ with
  | @put o name v stored =>
    obtain ⟨new, hnew, rfl⟩ := exists_of_map_ok stored
    exact ⟨o, new, .of_put hnew, Object.typeName_of_put hnew, rfl⟩
  | @item o v added sequence taken =>
    subst taken
    obtain ⟨q, -, hadd⟩ := Option.map_eq_some_iff.mp sequence
    obtain ⟨q', -, rfl⟩ := exists_of_map_ok hadd
    exact ⟨o, { h.object o with sequence := some q' }, .of_bean rfl rfl, rfl, rfl⟩
  | @listener o p list =>
    obtain ⟨ls, -, rfl⟩ := Option.map_eq_some_iff.mp list
    exact ⟨o, { h.object o with listeners := some (ls ++ [p]) }, .of_bean rfl rfl, rfl, rfl⟩

theorem Edit.keeps (h₁ : h.Edit h') : h.Keeps h' := by
  obtain ⟨o, new, hnew, -, rfl⟩ := h₁.eq_update
  refine ⟨Nat.le_of_eq (size_update ..).symm, fun p hp => ?_⟩
  rw [object_update]
  split
  · rename_i hop
    rw [← hop.1]
    exact hnew
  · exact .refl _

theorem Edits.size_eq (edits : h.Edits h') : h'.size = h.size := by
  induction edits with
  | refl => rfl
  | tail _ edit ih =>
    obtain ⟨o, new, -, -, rfl⟩ := edit.eq_update
    rw [size_update, ih]

theorem Edits.keeps (edits : h.Edits h') : h.Keeps h' := edits.changes fun _ _ => Edit.keeps

theorem keeps_build (h : Heap) (blueprint : Blueprint) : h.Keeps (h.build blueprint).2 where
  grown := by
    rw [size_build]
    exact Nat.le_add_right ..
  object := fun o ho => by
    rw [object_build, if_pos ho]
    exact .refl _

theorem lt_size_of_kind (hkind : propertyKind? (h.object o) name = some kind) :
    o.index < h.size := by
  refine Nat.lt_of_not_le fun hsize => ?_
  rw [object, List.getElem?_eq_none hsize] at hkind
  cases hkind

end Heap

theorem Builder.keeps_step {b : Builder} {s : Session} (e : Event) :
    Reading.Changes Heap.Keeps s (b.step Reader.read e) :=
  changes_step (fun _ _ => Heap.Edit.keeps) Heap.keeps_build
    (Reader.changes_readNested (fun _ _ => Heap.Edit.keeps) Heap.keeps_build _) e

namespace Visit

variable {first v w : Visit} {outers : List Visit} {u : Session} {o : ObjectId} {new : Object}
  {h h' : Heap}

/-- The sessions of a run: between its events, and at its end, whether it succeeds or fails. -/
inductive Passes (v : Visit) : Session → Prop
  | moment {taken : List Delivery} {b : Builder} {u : Session} {ahead : List Signal}
      (reached : Reached Reader.read v.reader v.text v.location v.session taken b u ahead) :
      Passes v u
  | ending : Passes v v.run.2

/-- An object as it was made: at the start tag of an element, in the first document or one that is
open inside it, a blueprint of the type in the tag was copied. -/
inductive Made (first : Visit) (o : ObjectId) : Object → Prop
  | intro {outers : List Visit} {v : Visit} {taken : List Delivery} {b : Builder} {u : Session}
      {name : QualifiedName} {attributes : List Attribute} {place : Location}
      {ahead : List Signal} {space : String} {blueprint : Blueprint}
      (trail : Trail first outers v)
      (reached : Reached Reader.read v.reader v.text v.location v.session taken b u
        (.event (.opened name attributes place) :: ahead))
      (qualified : name.space = some space)
      (known : v.reader.environment.types.blueprint space name.localName = .ok blueprint)
      (built : ((b.step Reader.read (.opened name attributes place)).perform u).2.heap =
        (u.heap.build blueprint).2)
      (fresh : u.heap.size ≤ o.index) (there : o.index < (u.heap.build blueprint).2.size) :
      Made first o ((u.heap.build blueprint).2.object o)

/-- Every object that was made since the first document was opened keeps its parts. -/
def Accounted (first : Visit) (h : Heap) : Prop :=
  ∀ o, first.session.heap.size ≤ o.index → o.index < h.size →
    ∃ new, first.Made o new ∧ new.Keeps (h.object o)

theorem Accounted.edits (ha : first.Accounted h) (edits : h.Edits h') : first.Accounted h' := by
  intro o hfirst ho
  rw [edits.size_eq] at ho
  obtain ⟨new, hmade, hkeeps⟩ := ha o hfirst ho
  exact ⟨new, hmade, hkeeps.trans (edits.keeps.object o ho)⟩

/-- Reading a document for an inclusion leaves the objects as they are, or enters it and leaves what
its run does. -/
theorem Asks.read_heap {i : Inclusion} {reader : Reader} (hasks : v.Asks u i reader) :
    ((reader.read (i.path v.location)).perform u).2.heap = u.heap ∨
      ∃ w, v.Enters w ∧ w.session.heap = u.heap ∧
        ((reader.read (i.path v.location)).perform u).2.heap = w.run.2.heap := by
  rw [Reader.read_eq_readSource]
  unfold Reader.readSource
  rw [Reading.perform_within]
  cases henter : u.guard.enter (some (i.path v.location)) with
  | error n => exact .inl rfl
  | ok guard =>
    cases hsource : reader.sourceAt (i.path v.location) with
    | error cause => exact .inl rfl
    | ok text =>
      exact .inr ⟨_, .intro hasks henter (hasks.textAt_of_sourceAt hsource), rfl, rfl⟩

/-- An event leaves the objects accounted for, if the documents that it includes do. -/
theorem accounted_step {taken : List Delivery} {b : Builder} {e : Event} {ahead : List Signal}
    (trail : Trail first outers v)
    (reached : Reached Reader.read v.reader v.text v.location v.session taken b u
      (.event e :: ahead))
    (hu : first.Accounted u.heap)
    (hentered : ∀ w, v.Enters w → w.session.heap = u.heap → first.Accounted w.run.2.heap) :
    first.Accounted ((b.step Reader.read e).perform u).2.heap := by
  have hleaves : b.Leaves Reader.read u e ((b.step Reader.read e).perform u).2.heap :=
    Builder.step_leaves e
  generalize hafter : ((b.step Reader.read e).perform u).2.heap = after at hleaves ⊢
  cases hleaves with
  | edited edits => exact hu.edits edits
  | made qualified known =>
    rw [reached.reader_eq] at known
    intro o hfirst ho
    by_cases hold : o.index < u.heap.size
    · obtain ⟨new, hmade, hkeeps⟩ := hu o hfirst hold
      exact ⟨new, hmade, hkeeps.trans ((Heap.keeps_build _ _).object o hold)⟩
    · exact ⟨_, .intro trail reached qualified known hafter (Nat.le_of_not_lt hold) ho, .refl _⟩
  | @included _ i reader inclusion own =>
    rw [reached.reader_eq] at own
    rw [reached.location_eq]
    have hasks : v.Asks u i reader := ⟨⟨taken, b, e, ahead, inclusion, reached⟩, own⟩
    rcases hasks.read_heap with hsame | ⟨w, henters, hsession, hrun⟩
    · rw [hsame]
      exact hu
    · rw [hrun]
      exact hentered w henters hsession

theorem run_end (v : Visit) :
    ∃ taken b u ahead,
      Reached Reader.read v.reader v.text v.location v.session taken b u ahead ∧
      (v.run.2 = u ∨ ∃ e rest, ahead = .event e :: rest ∧
        v.run.2 = ((b.step Reader.read e).perform u).2) := by
  have hend := (Reached.start :
    Reached Reader.read v.reader v.text v.location v.session _ _ _ _).deliver
  unfold run Reader.parse
  dsimp only
  rw [Reading.perform_bind]
  rcases hdeliver : (deliver (fun b e => Builder.step Reader.read b e) Builder.finished
    (fun _ f => .fail (.markup f)) (signals (Text.dropMark v.text))
      (Builder.start v.reader v.location) : Reading Builder).perform v.session with ⟨error | b, u⟩
  · rw [hdeliver] at hend
    obtain ⟨taken, b, u', ahead, hreached, ⟨e, rest, rfl, hstep⟩ | ⟨f, rest, -, -, rfl⟩⟩ := hend
    · exact ⟨taken, b, u', _, hreached, .inr ⟨e, rest, rfl, by rw [hstep]⟩⟩
    · exact ⟨taken, b, u, ahead, hreached, .inl rfl⟩
  · rw [hdeliver] at hend
    obtain ⟨taken, ahead, hreached, -⟩ := hend
    refine ⟨taken, b, u, ahead, hreached, .inl ?_⟩
    dsimp only
    rw [Reading.perform_lift]

theorem Trail.accounted_of_session (trail : Trail first outers v)
    (hv : first.Accounted v.session.heap) (hu : v.Passes u) : first.Accounted u.heap := by
  -- A document is entered with the objects of the one around it, and the guard lets in only so many
  -- inside one another.
  generalize hroom : Guard.maxDepth - v.session.guard.depth = room
  induction room using Nat.strongRecOn generalizing outers v u with
  | ind room ih =>
    have hentered : ∀ {t : Session}, first.Accounted t.heap → ∀ w, v.Enters w →
        w.session.heap = t.heap → first.Accounted w.run.2.heap := by
      intro t ht w henters hsession
      obtain ⟨hdepth, -, hguard⟩ := Guard.enter_ok henters.guard_eq
      refine ih _ ?_ (trail.enters henters) (hsession ▸ ht) .ending rfl
      rw [hguard]
      dsimp only
      omega
    have hmoment : ∀ {taken b t ahead},
        Reached Reader.read v.reader v.text v.location v.session taken b t ahead →
        first.Accounted t.heap := by
      intro taken b t ahead reached
      induction reached with
      | start => exact hv
      | event before step ihe =>
        have hafter := accounted_step trail before ihe (hentered ihe)
        rw [step] at hafter
        exact hafter
      | checkpoint before unfinished ihe => exact ihe
    cases hu with
    | moment reached => exact hmoment reached
    | ending =>
      obtain ⟨taken, b, t, ahead, reached, hsame | ⟨e, rest, rfl, hfails⟩⟩ := v.run_end
      · rw [hsame]
        exact hmoment reached
      · rw [hfails]
        exact accounted_step trail reached (hmoment reached) (hentered (hmoment reached))

/-- In every session of every document that is opened, the objects are accounted for. -/
theorem Trail.accounted (trail : Trail first outers v) (hu : v.Passes u) :
    first.Accounted u.heap := by
  refine trail.accounted_of_session ?_ hu
  clear hu
  induction trail with
  | first => exact fun o hfirst ho => absurd ho (Nat.not_lt.mpr hfirst)
  | enters around enters ih =>
    cases enters with
    | intro asks entered found =>
      obtain ⟨taken, b, e, ahead, -, reached⟩ := asks.moment
      have ht := around.accounted_of_session ih (.moment reached)
      exact ht

end Visit

end ObjectMarkup
