import ObjectMarkup.Document.Builder
import ObjectMarkup.Proofs.Renaming.Registry
import ObjectMarkup.Proofs.Renaming.Session

namespace ObjectMarkup

open Markup

theorem object?_coerce (raw : String) (type : ValueType) : (coerce raw type).object? = none := by
  have hliteral : ∀ v, literal? raw type = some v → v.object? = none := by
    intro v hv
    cases type
    case char =>
      simp only [literal?] at hv
      split at hv <;> cases hv
      rfl
    case string | url | object | any => cases hv
    all_goals
      simp only [literal?, Option.map_eq_some_iff] at hv
      obtain ⟨_, -, rfl⟩ := hv
      rfl
  unfold coerce
  cases hl : literal? raw type with
  | none => rfl
  | some v => exact hliteral v hl

namespace Correspondence

variable {c : Correspondence} {g g' : Guard} {excused : ReadError → Prop} {o : ObjectId}
  {v : Value} {names names' : Registry} {ctx ctx' : Context} {raw : String}

theorem values_of_object? (hv : v.object? = none) : c.Values v v := by
  refine ⟨?_, (Value.mapRefs_of_object? hv).symm⟩
  intro p hp
  simp [Value.refs, hv] at hp

/-- What the text of an attribute stands for in one document is the counterpart of what it stands
for in the other. The sessions are inside the documents `g` and `g'`. -/
structure Resolves (c : Correspondence) (g g' : Guard) (excused : ReadError → Prop)
    (ctx ctx' : Context) (raw : String) : Prop where
  value : ∀ target, Agree c.Values (ctx.resolve raw target) (ctx'.resolve raw target)
  listeners : ∀ property list, c.Own list →
    Reading.Follows (c.Sessions g g') excused (fun _ _ => True)
      (Builder.addListeners ctx.names property list (Builder.listenerIds raw))
      (Builder.addListeners ctx'.names property (c.rename list) (Builder.listenerIds raw))

open Reading (Follows)

theorem dereference_agree (hlocation : ctx'.location = ctx.location)
    (hresources : ctx'.resources = ctx.resources)
    (hshared : ∀ bundle key v, ctx.resources = some bundle → bundle.get? key = some v →
      ∀ p ∈ v.refs, c.shared p)
    (hknown : ∀ p ∈ ctx.names.refs, c.Known p) (hnames : ctx'.names = ctx.names.mapRefs c.rename)
    (sigil : Char) (rest : String) :
    Agree c.Values (ctx.dereference sigil rest) (ctx'.dereference sigil rest) := by
  unfold Context.dereference
  rw [hlocation, hresources, hnames]
  split
  · split
    · exact .error _
    · exact .ok (values_of_object? rfl)
  · split
    · split
      · exact .error _
      · rename_i bundle hbundle
        cases hget : bundle.get? rest with
        | none => exact .ok (values_of_object? rfl)
        | some v =>
          have hv := hshared bundle rest v hbundle hget
          exact .ok ⟨fun p hp => .inl (hv p hp),
            (Value.mapRefs_eq_self fun p hp => rename_shared (hv p hp)).symm⟩
    · rw [Registry.get?_mapRefs]
      cases hget : ctx.names.get? rest with
      | none => exact .ok (values_of_object? rfl)
      | some v => exact .ok ⟨fun p hp => hknown p (Registry.refs_get? hget p hp), rfl⟩

/-- A text stands for counterparts where its reference does. -/
theorem resolve_agree
    (hdereference : ∀ sigil next rest, raw.toList = sigil :: next :: rest → isSigil sigil = true →
      next ≠ sigil → Agree c.Values (ctx.dereference sigil (String.ofList (next :: rest)))
        (ctx'.dereference sigil (String.ofList (next :: rest)))) (target : Option ValueType) :
    Agree c.Values (ctx.resolve raw target) (ctx'.resolve raw target) := by
  have hreference : Agree c.Values (ctx.resolveReference raw) (ctx'.resolveReference raw) := by
    unfold Context.resolveReference
    split
    · rename_i sigil next rest hraw
      split
      · rename_i hsigil
        split
        · exact .ok (values_of_object? rfl)
        · rename_i hnext
          exact hdereference sigil next rest hraw hsigil hnext
      · exact .ok (values_of_object? rfl)
    · exact .ok (values_of_object? rfl)
  unfold Context.resolve
  cases target with
  | none => exact hreference
  | some type =>
    dsimp only
    split
    · exact .ok (values_of_object? (object?_coerce raw type))
    · exact hreference

theorem follows_addListener (hknown : ∀ p ∈ names.refs, c.Known p)
    (hnames : names' = names.mapRefs c.rename) (property id : String) {list : ObjectId}
    (hlist : c.Own list) :
    Follows (c.Sessions g g') excused (fun _ _ => True)
      (Builder.addListener names property list id)
      (Builder.addListener names' property (c.rename list) id) := by
  subst hnames
  unfold Builder.addListener
  refine .bind follows_heap fun h h' hh => ?_
  rw [Registry.get?_mapRefs]
  cases hget : names.get? id with
  | none => exact .fail _
  | some v =>
    have hv : ∀ p ∈ v.refs, c.Known p := fun p hp => hknown p (Registry.refs_get? hget p hp)
    have hlabel := hh.label_eq hv
    cases v with
    | object listener =>
      have hadd := hh.addListener hlist (hv listener (by simp [Value.refs, Value.object?]))
      simp only [Option.map_some, Value.mapRefs, hh.typeName_eq (.inr hlist)]
      revert hadd
      generalize h.addListener? list listener = added
      generalize h'.addListener? (c.rename list) (c.rename listener) = added'
      intro hadd
      cases hadd with
      | some hadded => exact follows_setHeap hadded
      | none => exact .fail _
    | _ => exact .fail _

theorem follows_addListeners (hknown : ∀ p ∈ names.refs, c.Known p)
    (hnames : names' = names.mapRefs c.rename) (property : String) {list : ObjectId}
    (hlist : c.Own list) (ids : List String) :
    Follows (c.Sessions g g') excused (fun _ _ => True)
      (Builder.addListeners names property list ids)
      (Builder.addListeners names' property (c.rename list) ids) := by
  induction ids with
  | nil => exact .pure trivial
  | cons id rest ih =>
    exact .bind (follows_addListener hknown hnames property id hlist) fun _ _ _ => ih

/-- In a document whose names are renamed every text stands for the counterpart. -/
theorem Resolves.of_names (hlocation : ctx'.location = ctx.location)
    (hresources : ctx'.resources = ctx.resources)
    (hshared : ∀ bundle key v, ctx.resources = some bundle → bundle.get? key = some v →
      ∀ p ∈ v.refs, c.shared p)
    (hknown : ∀ p ∈ ctx.names.refs, c.Known p) (hnames : ctx'.names = ctx.names.mapRefs c.rename)
    (raw : String) : c.Resolves g g' excused ctx ctx' raw where
  value := resolve_agree fun sigil _ _ _ _ _ =>
    dereference_agree hlocation hresources hshared hknown hnames sigil _
  listeners := fun property _ hlist => follows_addListeners hknown hnames property hlist _

end Correspondence

end ObjectMarkup
