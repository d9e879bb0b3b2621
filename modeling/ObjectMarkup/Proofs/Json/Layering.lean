import ObjectMarkup.Proofs.Json.Distinct

namespace ObjectMarkup.Json

theorem overlay_objects (base members : OrderedMap String Json) :
    overlay (some (.object base)) (.object members) = .object (merge base members) :=
  rfl

theorem overlay_of_not_object {base : Option Json} (h : ∀ members, base ≠ some (.object members))
    (value : Json) : overlay base value = value := by
  unfold overlay
  split
  · exact absurd rfl (h _)
  · rfl

/-- What is under a name after members have been laid over an object. -/
theorem get?_merge {members : OrderedMap String Json} (h : members.keys.Nodup)
    (base : OrderedMap String Json) (name : String) :
    (merge base members).get? name =
      ((members.get? name).map (overlay (base.get? name))).or (base.get? name) := by
  obtain ⟨entries⟩ := members
  simp only [OrderedMap.keys, merge, OrderedMap.get?] at h ⊢
  induction entries generalizing base with
  | nil => rfl
  | cons e rest ih =>
    obtain ⟨key, value⟩ := e
    obtain ⟨hnew, hrest⟩ := List.nodup_cons.mp h
    rw [overlayMembers, ih _ hrest]
    change ((OrderedMap.find? name rest).map
      (overlay ((base.insert key (overlay (base.get? key) value)).get? name))).or
        ((base.insert key (overlay (base.get? key) value)).get? name) = _
    rw [OrderedMap.get?_insert, OrderedMap.find?]
    by_cases hkey : key = name
    · subst hkey
      -- No later member has the name, so the one that was stored stays.
      have hnone : OrderedMap.find? key rest = none := by
        have hmem := (not_congr (OrderedMap.mem_keys_iff ⟨rest⟩ key)).mp hnew
        simpa [OrderedMap.get?] using hmem
      simp [hnone, OrderedMap.get?]
    · simp [hkey, OrderedMap.get?]

/-- Where a layer leads along a path, it does so over another, to what it leads to by itself laid over
what the other leads to. -/
theorem descend?_overlay {value found : Json} (hvalue : value.Distinct) {path : List String}
    (h : value.descend? path = some found) (base : Option Json) :
    (overlay base value).descend? path =
      some (overlay (base.bind fun b => b.descend? path) found) := by
  induction path generalizing value base with
  | nil =>
    cases h
    cases base <;> rfl
  | cons name path ih =>
    cases value with
    | object members =>
      obtain ⟨next, hnext, hrest⟩ := Option.bind_eq_some_iff.mp h
      by_cases hbase : ∃ below, base = some (.object below)
      · obtain ⟨below, rfl⟩ := hbase
        have hget : (merge below members).get? name = some (overlay (below.get? name) next) := by
          simp [get?_merge hvalue.keys, hnext]
        rw [overlay_objects, descend?, hget, Option.bind_some,
          ih (hvalue.member hnext) hrest]
        rfl
      · have hnone : (base.bind fun b => b.descend? (name :: path)) = none := by
          rcases base with _ | b
          · rfl
          · cases b with
            | object below => exact absurd ⟨below, rfl⟩ hbase
            | _ => rfl
        rw [overlay_of_not_object (fun below heq => hbase ⟨below, heq⟩), h, hnone,
          overlay_of_not_object (by simp)]
    | _ => cases h

def isObject : Json → Bool
  | .object _ => true
  | _ => false

/-- Whether on the way along a path, before its end, there is something other than an object. -/
def Blocks (value : Json) (path : List String) : Prop :=
  ∃ front found, front <+: path ∧ front ≠ path ∧ value.descend? front = some found ∧
    found.isObject = false

theorem isObject_iff {value : Json} :
    value.isObject = true ↔ ∃ members, value = .object members := by
  cases value <;> simp [isObject]

@[simp] theorem isObject_overlay (base : Option Json) (value : Json) :
    (overlay base value).isObject = value.isObject := by
  unfold overlay
  split <;> rfl

theorem overlay_of_plain {value : Json} (h : value.isObject = false) (base : Option Json) :
    overlay base value = value := by
  unfold overlay
  split
  · cases h
  · rfl

/-- A value that is no object is never made by merging. -/
theorem overlay_eq_iff {base : Option Json} {value result : Json} (h : result.isObject = false) :
    overlay base value = result ↔ value = result := by
  cases hvalue : value.isObject with
  | false => rw [overlay_of_plain hvalue]
  | true =>
    constructor
    · intro heq
      rw [← heq, isObject_overlay, hvalue] at h
      cases h
    · intro heq
      rw [heq, h] at hvalue
      cases hvalue

theorem descend?_cons_of_not_object {value : Json} (h : value.isObject = false) (name : String)
    (path : List String) : value.descend? (name :: path) = none := by
  cases value with
  | object members => cases h
  | _ => rfl

theorem blocks_of_not_object {value : Json} (h : value.isObject = false) (name : String)
    (path : List String) : value.Blocks (name :: path) :=
  ⟨[], value, List.nil_prefix, (List.cons_ne_nil name path).symm, rfl, h⟩

/-- An object blocks a path where its member with the first name blocks the rest of it. -/
theorem blocks_object_cons {members : OrderedMap String Json} {name : String}
    {path : List String} : (object members).Blocks (name :: path) ↔
      ∃ next, members.get? name = some next ∧ next.Blocks path := by
  constructor
  · intro h
    obtain ⟨front, found, hprefix, hne, hfound, hobject⟩ := h
    cases front with
    | nil =>
      cases hfound
      cases hobject
    | cons first front =>
      obtain ⟨rfl, htail⟩ := List.cons_prefix_cons.mp hprefix
      obtain ⟨next, hnext, hrest⟩ := Option.bind_eq_some_iff.mp hfound
      refine ⟨next, hnext, front, found, htail, ?_, hrest, hobject⟩
      intro heq
      exact hne (congrArg (List.cons first) heq)
  · intro h
    obtain ⟨next, hnext, front, found, hprefix, hne, hfound, hobject⟩ := h
    refine ⟨name :: front, found, List.cons_prefix_cons.mpr ⟨rfl, hprefix⟩, ?_, ?_, hobject⟩
    · intro heq
      exact hne (List.cons.inj heq).2
    · exact Option.bind_eq_some_iff.mpr ⟨next, hnext, hfound⟩

/-- Where a layer leads to nothing along a path, what is below it leads to what it leads to by
itself, unless the layer blocks the path. -/
theorem descend?_overlay_of_none {value : Json} (hvalue : value.Distinct) {path : List String}
    (h : value.descend? path = none) (base : Option Json) :
    (value.Blocks path → (overlay base value).descend? path = none) ∧
      (¬value.Blocks path →
        (overlay base value).descend? path = base.bind fun b => b.descend? path) := by
  -- The induction is on the path, along which the layer and what is below it are followed together.
  induction path generalizing value base with
  | nil => cases h
  | cons name path ih =>
    cases value with
    | object members =>
      by_cases hbase : ∃ below, base = some (.object below)
      · obtain ⟨below, rfl⟩ := hbase
        have hget : (merge below members).get? name = _ := get?_merge hvalue.keys below name
        rw [overlay_objects, descend?, hget, blocks_object_cons]
        cases hnext : members.get? name with
        | none => simp [descend?]
        | some next =>
          have hrest : next.descend? path = none := by simpa [descend?, hnext] using h
          have hih := ih (hvalue.member hnext) hrest (below.get? name)
          simpa [hnext, descend?] using hih
      · -- There is nothing to merge with, and nothing below the layer along the path.
        have hoverlay : overlay base (object members) = object members :=
          overlay_of_not_object (fun below heq => hbase ⟨below, heq⟩) _
        have hnone : (base.bind fun b => b.descend? (name :: path)) = none := by
          rw [Option.bind_eq_none_iff]
          intro b hb
          apply descend?_cons_of_not_object
          rw [Bool.eq_false_iff]
          intro hobject
          obtain ⟨below, rfl⟩ := isObject_iff.mp hobject
          exact hbase ⟨below, hb⟩
        rw [hoverlay, h, hnone]
        exact ⟨fun _ => rfl, fun _ => rfl⟩
    | _ =>
      -- The layer replaces what is below it, and blocks every path that goes on.
      refine ⟨fun _ => ?_, fun hfree => absurd (blocks_of_not_object rfl name path) hfree⟩
      rw [overlay_of_plain rfl, h]

/-- Along a path through objects, one object merged over another has a value that is no object where
the upper one has it, or else the lower one where the upper one has nothing at the path and nothing
but objects on the way. With objects it is the same. So nothing of the upper object is lost, and of
the lower one only what is at or below a path at which the upper one has something else. -/
theorem merged_along_path (base : OrderedMap String Json) {layer : OrderedMap String Json}
    (hlayer : (object layer).Distinct) (path : List String) :
    let upper := (object layer).descend? path
    let lower := (object base).descend? path
    let merged := (object (merge base layer)).descend? path
    (∀ value, value.isObject = false → (merged = some value ↔ upper = some value ∨
      upper = none ∧ ¬(object layer).Blocks path ∧ lower = some value)) ∧
    ((∃ members, merged = some (object members)) ↔ (∃ members, upper = some (object members)) ∨
      upper = none ∧ ¬(object layer).Blocks path ∧ ∃ members, lower = some (object members)) ∧
    (merged.isSome ↔ upper.isSome ∨ ¬(object layer).Blocks path ∧ lower.isSome) := by
  intro upper lower merged
  cases hupper : upper with
  | some found =>
    have hmerged : merged = some (overlay lower found) :=
      descend?_overlay hlayer hupper (some (object base))
    refine ⟨fun value hvalue => ?_, ?_, by simp [hmerged]⟩
    · simp [hmerged, overlay_eq_iff hvalue]
    · simp [hmerged, ← isObject_iff]
  | none =>
    obtain ⟨hblocked, hopen⟩ := descend?_overlay_of_none hlayer hupper (some (object base))
    by_cases hblocks : (object layer).Blocks path
    · have hmerged : merged = none := hblocked hblocks
      simp [hmerged, hblocks]
    · have hmerged : merged = lower := hopen hblocks
      simp [hmerged, hblocks]

/-- A layer with a group and a text over a table with two groups: the groups are merged, and the text
takes the place of the other group. -/
theorem merged_along_path_of_groups :
    let base : OrderedMap String Json :=
      ⟨[("menu", object ⟨[("file", .string "File"), ("edit", .string "Edit")]⟩),
        ("title", object ⟨[("long", .string "Demo")]⟩)]⟩
    let layer : OrderedMap String Json :=
      ⟨[("menu", object ⟨[("file", .string "Fichier")]⟩), ("title", .string "Démo")]⟩
    let merged := fun path => (object (merge base layer)).descend? path
    (object layer).Distinct ∧ merged ["menu", "file"] = some (.string "Fichier") ∧
      merged ["menu", "edit"] = some (.string "Edit") ∧
      (∃ members, merged ["menu"] = some (object members)) ∧
      (merged ["title", "long"]).isSome = false := by
  intro base layer merged
  have hlayer : (object layer).Distinct := by
    refine distinct_object (by decide) fun name value hvalue => ?_
    simp only [layer, OrderedMap.get?, OrderedMap.find?] at hvalue
    split at hvalue
    · cases hvalue
      refine distinct_object (by decide) fun name value hvalue => ?_
      simp only [OrderedMap.get?, OrderedMap.find?] at hvalue
      split at hvalue
      · cases hvalue
        exact distinct_of_not_object (by rintro _ ⟨⟩)
      · cases hvalue
    · split at hvalue
      · cases hvalue
        exact distinct_of_not_object (by rintro _ ⟨⟩)
      · cases hvalue
  have hfile := merged_along_path base hlayer ["menu", "file"]
  have hedit := merged_along_path base hlayer ["menu", "edit"]
  have hmenu := merged_along_path base hlayer ["menu"]
  have hlong := merged_along_path base hlayer ["title", "long"]
  refine ⟨hlayer, (hfile.1 _ rfl).mpr (.inl rfl), (hedit.1 _ rfl).mpr (.inr ⟨rfl, ?_, rfl⟩),
    hmenu.2.1.mpr (.inl ⟨_, rfl⟩), ?_⟩
  · intro hblocks
    obtain ⟨menu, hmenu, hblocks⟩ := blocks_object_cons.mp hblocks
    cases hmenu
    obtain ⟨edit, hedit, -⟩ := blocks_object_cons.mp hblocks
    cases hedit
  · rw [Bool.eq_false_iff]
    intro hsome
    rcases hlong.2.2.mp hsome with hupper | ⟨hopen, -⟩
    · cases hupper
    · exact hopen (blocks_object_cons.mpr ⟨_, rfl, blocks_of_not_object rfl "long" []⟩)

end ObjectMarkup.Json
