import Mathlib.Data.List.Induction
import ObjectMarkup.Proofs.Json.Layering
import ObjectMarkup.Resource.JsonBundle

namespace ObjectMarkup

@[simp] theorem Json.scalar?_overlay (base : Option Json) (value : Json) :
    (overlay base value).scalar? = value.scalar? := by
  unfold overlay
  split <;> rfl

namespace JsonBundle

def present (provider : Provider) (paths : List String) : List (OrderedMap String Json) :=
  paths.filterMap fun path => (layer? provider path).toOption.join

def stacked (layers : List (OrderedMap String Json)) : Option (OrderedMap String Json) :=
  layers.foldl (fun below layer => layOver below (some layer)) none

variable {provider : Provider} {path key : String} {layer : OrderedMap String Json}

theorem stacked_concat (front : List (OrderedMap String Json)) (layer : OrderedMap String Json) :
    stacked (front ++ [layer]) = layOver (stacked front) (some layer) := by
  simp [stacked]

/-- The names in a layer that a file gives are distinct. -/
theorem distinct_layer (h : layer? provider path = .ok (some layer)) :
    (Json.object layer).Distinct := by
  unfold layer? at h
  split at h
  · split at h <;> cases h
  · split at h
    · rename_i hread
      cases h
      exact Json.distinct_ofBytes hread
    · cases h
    · cases h

theorem distinct_of_present {paths : List String} (h : layer ∈ present provider paths) :
    (Json.object layer).Distinct := by
  obtain ⟨path, -, hpath⟩ := List.mem_filterMap.mp h
  cases hlayer : layer? provider path with
  | error e =>
    rw [hlayer] at hpath
    cases hpath
  | ok found =>
    rw [hlayer] at hpath
    have hfound : found = some layer := hpath
    exact distinct_layer (hfound ▸ hlayer)

/-- Loading layers that can all be used lays those that there are over one another. -/
theorem layers_ok {paths : List String} {base result : Option (OrderedMap String Json)}
    (h : layers provider base paths = .ok result) :
    result =
      (present provider paths).foldl (fun below layer => layOver below (some layer)) base := by
  induction paths generalizing base with
  | nil =>
    cases h
    rfl
  | cons path rest ih =>
    rw [layers] at h
    cases hlayer : layer? provider path with
    | error e =>
      rw [hlayer] at h
      cases h
    | ok found =>
      rw [hlayer] at h
      rw [ih h]
      cases found with
      | none =>
        have hskip : layOver base none = base := by cases base <;> rfl
        simp [present, hlayer, hskip, Except.toOption]
      | some layer => simp [present, hlayer, Except.toOption]

theorem loader_ok {baseName : String} {locale : Option Locale} {b : Bundle}
    (h : loader provider baseName locale = .ok b) :
    ∃ members, stacked (present provider (layerPaths baseName locale)) = some members ∧
      b = bundle baseName members := by
  unfold loader at h
  split at h
  · cases h
  · cases h
  · rename_i members hlayers
    cases h
    exact ⟨members, (layers_ok hlayers).symm, rfl⟩

/-- The member with a name in layers over one another is as good as that of the last layer that has
one. -/
theorem get?_stacked {layers : List (OrderedMap String Json)}
    (h : ∀ layer ∈ layers, (Json.object layer).Distinct) (key : String) :
    ((stacked layers).bind fun members => members.get? key).map Json.scalar? =
      (layers.filterMap fun layer => layer.get? key).getLast?.map Json.scalar? := by
  induction layers using List.reverseRecOn with
  | nil => rfl
  | append_singleton front layer ih =>
    have hfront := ih fun l hl => h l (List.mem_append_left _ hl)
    have hkeys := (h layer (by simp)).keys
    rw [stacked_concat, List.filterMap_append]
    cases hbelow : stacked front with
    | none =>
      rw [hbelow] at hfront
      cases hget : layer.get? key with
      | none => simpa [layOver, hget] using hfront
      | some value => simp [layOver, hget]
    | some below =>
      rw [hbelow] at hfront
      cases hget : layer.get? key with
      | none => simpa [layOver, Json.get?_merge hkeys, hget] using hfront
      | some value => simp [layOver, Json.get?_merge hkeys, hget]

/-- A key without dots is looked up as the name of a member only. -/
theorem find?_of_undotted (hdot : '.' ∉ key.toList) (members : OrderedMap String Json) :
    find? members key = members.get? key := by
  have hsegments : Text.segments '.' key = [key] := by
    rw [Text.segments, Text.pieces_of_not_mem hdot, List.map_singleton, String.ofList_toList]
  unfold find?
  cases hget : members.get? key <;> simp [hsegments, Json.descend?, hget]

/-- A layer that leads along a path leads to the same scalar over others. -/
theorem descend?_stacked {front : List (OrderedMap String Json)}
    {top members : OrderedMap String Json} {found : Json} {path : List String}
    (htop : (Json.object top).Distinct)
    (hmembers : layOver (stacked front) (some top) = some members)
    (h : (Json.object top).descend? path = some found) :
    ((Json.object members).descend? path).bind Json.scalar? = found.scalar? := by
  cases hbelow : stacked front with
  | none =>
    rw [hbelow] at hmembers
    cases hmembers
    rw [h]
    rfl
  | some below =>
    rw [hbelow] at hmembers
    cases hmembers
    rw [← Json.overlay_objects, Json.descend?_overlay htop h, Option.bind_some,
      Json.scalar?_overlay]

theorem get?_bundle_of_member {baseName : String} {members : OrderedMap String Json}
    {scalar : Option Value} (h : (members.get? key).map Json.scalar? = some scalar) :
    (bundle baseName members).get? key = scalar := by
  obtain ⟨j, hj, rfl⟩ := Option.map_eq_some_iff.mp h
  simp [bundle, find?, hj]

theorem get?_bundle_of_path {baseName : String} {members : OrderedMap String Json}
    (h : (members.get? key).map Json.scalar? = none) :
    (bundle baseName members).get? key =
      ((Json.object members).descend? (Text.segments '.' key)).bind Json.scalar? := by
  simp [bundle, find?, Option.map_eq_none_iff.mp h]

end JsonBundle

open JsonBundle

/-- A bundle answers for a key as its most specific layer does by itself, if that has an answer. The
only exception is a key that this layer has as a path but not as the name of a member, where a less
specific layer has a member with that name: then the most specific such member answers, if it is a
scalar. So it does not concern keys without dots. -/
theorem specific_layer_answers (provider : Provider) {baseName : String} {locale : Option Locale}
    {b : Bundle} (h : loader provider baseName locale = .ok b) :
    ∃ front top, present provider (layerPaths baseName locale) = front ++ [top] ∧
      ∀ key value, (bundle baseName top).get? key = some value →
        (b.get? key =
          match top.get? key, (front.filterMap fun layer => layer.get? key).getLast? with
          | none, some member => member.scalar?
          | _, _ => some value) ∧
        ('.' ∉ key.toList → b.get? key = some value) := by
  obtain ⟨members, hstacked, rfl⟩ := loader_ok h
  have hdistinct : ∀ layer ∈ present provider (layerPaths baseName locale),
      (Json.object layer).Distinct := fun _ => distinct_of_present
  rcases List.eq_nil_or_concat (present provider (layerPaths baseName locale)) with
    hnil | ⟨front, top, hpresent⟩
  · rw [hnil] at hstacked
    cases hstacked
  rw [List.concat_eq_append] at hpresent
  refine ⟨front, top, hpresent, fun key value hvalue => ?_⟩
  rw [hpresent] at hdistinct hstacked
  have hlookup := get?_stacked hdistinct key
  rw [hstacked, Option.bind_some, List.filterMap_append] at hlookup
  obtain ⟨found, hfound, hscalar⟩ := Option.bind_eq_some_iff.mp hvalue
  have hmember : top.get? key = some found → (bundle baseName members).get? key = some value := by
    intro hget
    exact get?_bundle_of_member (by simpa [hget, hscalar] using hlookup)
  constructor
  · cases hget : top.get? key with
    | some j =>
      have hj : j = found := by simpa [find?, hget] using hfound
      exact hmember (hj ▸ hget)
    | none =>
      cases hbelow : (front.filterMap fun layer => layer.get? key).getLast? with
      | some member => exact get?_bundle_of_member (by simpa [hget, hbelow] using hlookup)
      | none =>
        rw [get?_bundle_of_path (by simpa [hget, hbelow] using hlookup)]
        have hpath : (Json.object top).descend? (Text.segments '.' key) = some found := by
          simpa [find?, hget] using hfound
        rw [stacked_concat] at hstacked
        exact (descend?_stacked (hdistinct top (by simp)) hstacked hpath).trans hscalar
  · intro hdot
    exact hmember (find?_of_undotted hdot top ▸ hfound)

/-- A group in the layer for French hides one key of the same group in the base layer. -/
theorem specific_layer_answers_of_groups :
    let provider := ((Library.empty.addText "s.json"
      "\x7b\"a\": \x7b\"b\": \"x\", \"c\": \"z\"\x7d\x7d").addText "s_fr.json"
      "\x7b\"a\": \x7b\"b\": \"y\"\x7d\x7d").provider
    ∃ b, loader provider "s" (some ⟨"fr", none⟩) = .ok b ∧
      ∃ front top, present provider (layerPaths "s" (some ⟨"fr", none⟩)) = front ++ [top] ∧
        (bundle "s" top).get? "a.b" = some (.string "y") ∧ b.get? "a.b" = some (.string "y") := by
  intro provider
  have hloads : (loader provider "s" (some ⟨"fr", none⟩)).toOption.isSome := by decide +kernel
  obtain ⟨b, hb⟩ : ∃ b, loader provider "s" (some ⟨"fr", none⟩) = .ok b := by
    cases hload : loader provider "s" (some ⟨"fr", none⟩) with
    | ok b => exact ⟨b, rfl⟩
    | error e => simp [hload, Except.toOption] at hloads
  have hanswer : (present provider (layerPaths "s" (some ⟨"fr", none⟩))).getLast?.bind
      (fun top => (bundle "s" top).get? "a.b") = some (.string "y") := by
    decide +kernel
  have hgroups : ∀ layer ∈ present provider (layerPaths "s" (some ⟨"fr", none⟩)),
      (layer.get? "a.b").isNone := by
    decide +kernel
  obtain ⟨front, top, hpresent, hanswers⟩ := specific_layer_answers provider hb
  rw [hpresent] at hanswer hgroups
  have htop : (bundle "s" top).get? "a.b" = some (.string "y") := by simpa using hanswer
  refine ⟨b, hb, front, top, hpresent, htop, (hanswers "a.b" _ htop).1.trans ?_⟩
  have hfront : (front.filterMap fun layer => layer.get? "a.b") = [] :=
    List.filterMap_eq_nil_iff.mpr fun layer hl =>
      Option.isNone_iff_eq_none.mp (hgroups layer (List.mem_append_left _ hl))
  simp [hfront]

/-- A key that the base layer has as a name is not hidden by the path that the layer for French has
for it. -/
theorem flat_key_answers_for_path :
    let provider := ((Library.empty.addText "s.json" "\x7b\"a.b\": \"flat\"\x7d").addText
      "s_fr.json" "\x7b\"a\": \x7b\"b\": \"nested\"\x7d\x7d").provider
    ((present provider (layerPaths "s" (some ⟨"fr", none⟩))).getLast?.bind
        fun top => (bundle "s" top).get? "a.b") = some (.string "nested") ∧
      ((loader provider "s" (some ⟨"fr", none⟩)).toOption.bind
        fun b => b.get? "a.b") = some (.string "flat") := by
  decide +kernel

end ObjectMarkup
