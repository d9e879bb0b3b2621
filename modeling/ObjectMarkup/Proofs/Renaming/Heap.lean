import ObjectMarkup.Proofs.Reading.Follows
import ObjectMarkup.Proofs.Renaming.Object

namespace ObjectMarkup

/-- The objects after a copy of a blueprint was made: those from before, and then its own. -/
theorem Heap.object_build (h : Heap) (b : Blueprint) (o : ObjectId) :
    (h.build b).2.object o = if o.index < h.size then h.object o
      else (b.objects[o.index - h.size]?.getD default).mapRefs fun id => ⟨h.size + id.index⟩ := by
  split
  · rename_i ho
    exact Heap.object_extend_of_lt ho
  · rename_i ho
    have hsize : h.objects.length ≤ o.index := Nat.le_of_not_lt ho
    simp only [build, extend, object, size, Blueprint.copyAt, List.getElem?_append_right hsize,
      List.getElem?_map]
    cases b.objects[o.index - h.objects.length]? <;> rfl

theorem Heap.size_build (h : Heap) (b : Blueprint) :
    (h.build b).2.size = h.size + b.objects.length := by
  simp [build, Blueprint.copyAt]

/-- The identity of an object as it is when `m` objects are there before it was made, and not `n`. -/
def ObjectId.shift (n m : Nat) (o : ObjectId) : ObjectId :=
  if o.index < n then o else ⟨m + (o.index - n)⟩

theorem ObjectId.shift_self (n : Nat) (o : ObjectId) : o.shift n n = o := by
  obtain ⟨i⟩ := o
  unfold shift
  split
  · rfl
  · rename_i hi
    simp only [ObjectId.mk.injEq] at hi ⊢
    omega

/-- Two sessions to start from, with the objects that both of them have. -/
structure Correspondence where
  left : Session
  right : Session
  shared : ObjectId → Prop
  bounded : ∀ o, shared o → o.index < left.heap.size ∧ o.index < right.heap.size
  same : ∀ o, shared o → right.heap.object o = left.heap.object o
  closed : ∀ o, shared o → ∀ p ∈ (left.heap.object o).refs,
    (shared p ∨ left.heap.size ≤ p.index) ∧ p.shift left.heap.size right.heap.size = p

namespace Correspondence

variable {c : Correspondence} {o p : ObjectId} {h h' : Heap} {v : Value}

def rename (c : Correspondence) (o : ObjectId) : ObjectId :=
  o.shift c.left.heap.size c.right.heap.size

def Own (c : Correspondence) (o : ObjectId) : Prop := c.left.heap.size ≤ o.index

def Known (c : Correspondence) (o : ObjectId) : Prop := c.shared o ∨ c.Own o

theorem rename_shared (ho : c.shared o) : c.rename o = o :=
  if_pos (c.bounded o ho).1

theorem rename_own (ho : c.Own o) :
    c.rename o = ⟨c.right.heap.size + (o.index - c.left.heap.size)⟩ :=
  if_neg (Nat.not_lt.mpr ho)

theorem rename_add (c : Correspondence) (k : Nat) :
    c.rename ⟨c.left.heap.size + k⟩ = ⟨c.right.heap.size + k⟩ := by
  rw [rename_own (Nat.le_add_right ..), Nat.add_sub_cancel_left]

theorem rename_inj (ho : c.Known o) (hp : c.Known p) (h : c.rename o = c.rename p) : o = p := by
  obtain ⟨i⟩ := o
  obtain ⟨j⟩ := p
  rcases ho with ho | ho <;> rcases hp with hp | hp
  · rwa [rename_shared ho, rename_shared hp] at h
  · have hi := (c.bounded _ ho).2
    rw [rename_shared ho, rename_own hp] at h
    simp only [ObjectId.mk.injEq] at h hi
    omega
  · have hj := (c.bounded _ hp).2
    rw [rename_shared hp, rename_own ho] at h
    simp only [ObjectId.mk.injEq] at h hj
    omega
  · rw [rename_own ho, rename_own hp] at h
    simp only [ObjectId.mk.injEq, Own] at h ho hp ⊢
    omega

/-- When the heaps start out equal, identities are the same on both sides. -/
theorem rename_eq_self (hc : c.right.heap = c.left.heap) (o : ObjectId) : c.rename o = o := by
  rw [rename, hc]
  exact o.shift_self _

/-- What two heaps keep to while they grow in step. What is made is made in both, so that the
objects made on the right are those made on the left with their identities shifted. No object from
before is ever changed. -/
structure Heaps (c : Correspondence) (h h' : Heap) : Prop where
  grown : c.left.heap.size ≤ h.size
  level : h.size + c.right.heap.size = h'.size + c.left.heap.size
  kept : ∀ o, o.index < c.left.heap.size → h.object o = c.left.heap.object o
  kept' : ∀ o, o.index < c.right.heap.size → h'.object o = c.right.heap.object o
  alike : ∀ o, c.Own o → h'.object (c.rename o) = (h.object o).mapRefs c.rename
  known : ∀ o, c.Own o → ∀ p ∈ (h.object o).refs, c.Known p
  parts : ∀ o, c.Own o → ∀ name p, (h.object o).part? name = some p → c.Own p

theorem object_of_size_le (hi : h.size ≤ o.index) : h.object o = default := by
  simp only [Heap.object, List.getElem?_eq_none hi, Option.getD_none]

theorem Heaps.start (c : Correspondence) : c.Heaps c.left.heap c.right.heap where
  grown := Nat.le_refl _
  level := Nat.add_comm ..
  kept := fun _ _ => rfl
  kept' := fun _ _ => rfl
  alike := by
    intro o ho
    rw [object_of_size_le ho, rename_own ho, object_of_size_le (Nat.le_add_right ..)]
    rfl
  known := by
    intro o ho p hp
    rw [object_of_size_le ho] at hp
    cases hp
  parts := by
    intro o ho name p hp
    rw [object_of_size_le ho] at hp
    cases hp

namespace Heaps

variable (hh : c.Heaps h h')

include hh

theorem object_eq (ho : c.Known o) : h'.object (c.rename o) = (h.object o).mapRefs c.rename := by
  rcases ho with ho | ho
  · obtain ⟨hleft, hright⟩ := c.bounded o ho
    rw [rename_shared ho, hh.kept o hleft, hh.kept' o hright, c.same o ho]
    exact (Object.mapRefs_eq_self fun p hp => (c.closed o ho p hp).2).symm
  · exact hh.alike o ho

theorem refs_known (ho : c.Known o) : ∀ p ∈ (h.object o).refs, c.Known p := by
  rcases ho with ho | ho
  · intro p hp
    rw [hh.kept o (c.bounded o ho).1] at hp
    exact (c.closed o ho p hp).1
  · exact hh.known o ho

/-- An object is there on the left when its counterpart is on the right. -/
theorem index_lt_iff (ho : c.Known o) : o.index < h.size ↔ (c.rename o).index < h'.size := by
  have hgrown := hh.grown
  have hlevel := hh.level
  rcases ho with ho | ho
  · have hbounded := c.bounded o ho
    rw [rename_shared ho]
    omega
  · rw [rename_own ho]
    change o.index < h.size ↔ c.right.heap.size + (o.index - c.left.heap.size) < h'.size
    unfold Own at ho
    omega

theorem typeName_eq (ho : c.Known o) : h'.typeName (c.rename o) = h.typeName o := by
  rw [Heap.typeName, hh.object_eq ho]
  rfl

theorem label_eq (hv : ∀ o ∈ v.refs, c.Known o) : h'.label (v.mapRefs c.rename) = h.label v :=
  Value.label_mapRefs fun o ho => hh.typeName_eq (hv o ho)

theorem labelDuring_eq (ho : c.Known o) (hv : ∀ p ∈ v.refs, c.Known p) :
    h'.labelDuring (c.rename o) (v.mapRefs c.rename) = h.labelDuring o v := by
  apply Value.label_mapRefs
  intro p hp
  by_cases hpo : p = o
  · simp [hpo]
  · have hne : c.rename p ≠ c.rename o := fun he => hpo (rename_inj (hv p hp) ho he)
    simp only [if_neg hpo, if_neg hne, hh.typeName_eq (hv p hp)]

theorem update {new : Object} (ho : c.Own o) (hrefs : ∀ p ∈ new.refs, c.Known p)
    (hparts : ∀ name p, new.part? name = some p → c.Own p) :
    c.Heaps (h.update o new) (h'.update (c.rename o) (new.mapRefs c.rename)) where
  grown := by simpa using hh.grown
  level := by simpa using hh.level
  kept := by
    intro p hp
    have hne : o ≠ p := by
      rintro rfl
      exact Nat.lt_irrefl _ (Nat.lt_of_lt_of_le hp ho)
    rw [Heap.object_update, if_neg (fun h => hne h.1), hh.kept p hp]
  kept' := by
    intro p hp
    have hne : c.rename o ≠ p := by
      rw [rename_own ho]
      rintro rfl
      simp only at hp
      omega
    rw [Heap.object_update, if_neg (fun h => hne h.1), hh.kept' p hp]
  alike := by
    intro p hp
    have hindex := hh.index_lt_iff (.inr ho)
    rw [Heap.object_update, Heap.object_update]
    by_cases hpo : o = p
    · subst hpo
      by_cases hin : o.index < h.size
      · simp [hin, hindex.mp hin]
      · simp [hin, mt hindex.mpr hin, hh.alike o ho]
    · have hne : c.rename o ≠ c.rename p := fun he => hpo (rename_inj (.inr ho) (.inr hp) he)
      simp [hpo, hne, hh.alike p hp]
  known := by
    intro p hp q hq
    rw [Heap.object_update] at hq
    split at hq
    · exact hrefs q hq
    · exact hh.known p hp q hq
  parts := by
    intro p hp name q hq
    rw [Heap.object_update] at hq
    split at hq
    · exact hparts name q hq
    · exact hh.parts p hp name q hq

theorem put {name : String} (ho : c.Own o) (hv : ∀ p ∈ v.refs, c.Known p) :
    Agree c.Heaps (h.put o name v) (h'.put (c.rename o) name (v.mapRefs c.rename)) := by
  unfold Heap.put
  rw [hh.labelDuring_eq (.inr ho) hv, hh.alike o ho, Object.put_mapRefs]
  cases hput : (h.object o).put name (h.labelDuring o v) v with
  | error e => exact .error e
  | ok new =>
    refine .ok (hh.update ho ?_ ?_)
    · intro p hp
      exact (Object.refs_put hput p hp).elim (hh.known o ho p) (hv p)
    · intro other p hp
      rw [Object.part?_put hput] at hp
      exact hh.parts o ho other p hp

theorem addItem (ho : c.Own o) (hv : ∀ p ∈ v.refs, c.Known p) :
    Option.Rel (Agree c.Heaps) (h.addItem? o v)
      (h'.addItem? (c.rename o) (v.mapRefs c.rename)) := by
  unfold Heap.addItem?
  rw [hh.labelDuring_eq (.inr ho) hv, hh.alike o ho]
  have hknown := hh.known o ho
  have hparts := hh.parts o ho
  generalize h.object o = old at hknown hparts
  obtain ⟨typeName, dictionary, bean, sequence, listeners⟩ := old
  cases sequence with
  | none => exact .none
  | some s =>
    have hadd := s.add_mapRefs typeName (h.labelDuring o v) v (f := c.rename)
    simp only [Object.mapRefs, Option.map_some] at hadd ⊢
    unfold Sequence.mapRefs at hadd
    rw [hadd]
    cases hs : s.add typeName (h.labelDuring o v) v with
    | error e => exact .some (.error e)
    | ok new =>
      refine .some (.ok (hh.update ho ?_ hparts))
      intro p hp
      simp only [Object.refs, Option.map_some, Option.getD_some, Sequence.add_ok hs,
        List.flatMap_append, List.mem_append] at hp
      rcases hp with ((hp | hp) | (hp | hp)) | hp
      · exact hknown p (by simp [Object.refs, hp])
      · exact hknown p (by simp [Object.refs, hp])
      · exact hknown p (by
          simp only [Object.refs, Option.map_some, Option.getD_some, List.mem_append]
          exact .inl (.inr hp))
      · exact hv p (by simpa using hp)
      · exact hknown p (by simp [Object.refs, hp])

theorem addListener (ho : c.Own o) (hp : c.Known p) :
    Option.Rel c.Heaps (h.addListener? o p) (h'.addListener? (c.rename o) (c.rename p)) := by
  unfold Heap.addListener?
  rw [hh.alike o ho]
  have hknown := hh.known o ho
  have hparts := hh.parts o ho
  generalize h.object o = old at hknown hparts
  obtain ⟨typeName, dictionary, bean, sequence, listeners⟩ := old
  cases listeners with
  | none => exact .none
  | some ls =>
    have hrefs : ∀ q ∈ Object.refs ⟨typeName, dictionary, bean, sequence, some (ls ++ [p])⟩,
        c.Known q := by
      intro q hq
      simp only [Object.refs, Option.getD_some, List.mem_append, List.mem_singleton] at hq
      rcases hq with ((hq | hq) | hq) | (hq | rfl)
      · exact hknown q (by simp [Object.refs, hq])
      · exact hknown q (by simp [Object.refs, hq])
      · exact hknown q (by simp [Object.refs, hq])
      · exact hknown q (by simp [Object.refs, hq])
      · exact hp
    have hupdate := hh.update ho hrefs hparts
    simp only [Object.mapRefs, Option.map_some, List.map_append, List.map_cons,
      List.map_nil] at hupdate ⊢
    exact .some hupdate

theorem build (b : Blueprint) : c.Heaps (h.build b).2 (h'.build b).2 ∧ c.Own (h.build b).1 ∧
    c.rename (h.build b).1 = (h'.build b).1 := by
  have hgrown := hh.grown
  have hlevel := hh.level
  have hroot : c.rename ⟨h.size⟩ = ⟨h'.size⟩ := by
    have hsize : h.size = c.left.heap.size + (h.size - c.left.heap.size) := by omega
    rw [hsize, rename_add]
    simp only [ObjectId.mk.injEq]
    omega
  have hshift : (c.rename ∘ fun id : ObjectId => ⟨h.size + id.index⟩) =
      fun id => ⟨h'.size + id.index⟩ := by
    funext id
    have hsize : h.size + id.index =
        c.left.heap.size + (h.size + id.index - c.left.heap.size) := by omega
    rw [Function.comp_apply, hsize, rename_add]
    simp only [ObjectId.mk.injEq]
    omega
  refine ⟨⟨?_, ?_, ?_, ?_, ?_, ?_, ?_⟩, hgrown, hroot⟩
  · rw [Heap.size_build]
    omega
  · rw [Heap.size_build, Heap.size_build]
    omega
  · intro o ho
    rw [Heap.object_build, if_pos (by omega), hh.kept o ho]
  · intro o ho
    rw [Heap.object_build, if_pos (by omega), hh.kept' o ho]
  · intro o ho
    have hindex := hh.index_lt_iff (.inr ho)
    rw [Heap.object_build, Heap.object_build]
    by_cases hin : o.index < h.size
    · rw [if_pos hin, if_pos (hindex.mp hin), hh.alike o ho]
    · have hplace : (c.rename o).index - h'.size = o.index - h.size := by
        rw [rename_own ho]
        change c.right.heap.size + (o.index - c.left.heap.size) - h'.size = _
        omega
      rw [if_neg hin, if_neg (mt hindex.mpr hin), hplace, Object.mapRefs_mapRefs, hshift]
  · intro o ho p hp
    rw [Heap.object_build] at hp
    split at hp
    · exact hh.known o ho p hp
    · rw [Object.refs_mapRefs] at hp
      obtain ⟨q, -, rfl⟩ := List.mem_map.mp hp
      exact .inr (Nat.le_trans hgrown (Nat.le_add_right ..))
  · intro o ho name p hp
    rw [Heap.object_build] at hp
    split at hp
    · exact hh.parts o ho name p hp
    · rw [Object.part?_mapRefs] at hp
      obtain ⟨q, -, rfl⟩ := Option.map_eq_some_iff.mp hp
      exact Nat.le_trans hgrown (Nat.le_add_right ..)

end Heaps

theorem Heaps.eq_of_start (hh : c.Heaps h h') (hc : c.right.heap = c.left.heap) : h' = h := by
  have hgrown := hh.grown
  have hlevel := hh.level
  rw [hc] at hlevel
  have hsize : h'.size = h.size := by omega
  have hrename := rename_eq_self hc
  have hobject : ∀ o, h'.object o = h.object o := by
    intro o
    by_cases ho : o.index < c.left.heap.size
    · rw [hh.kept o ho, hh.kept' o (hc ▸ ho), hc]
    · have halike := hh.alike o (Nat.le_of_not_lt ho)
      rw [hrename] at halike
      rw [halike, Object.mapRefs_eq_self fun p _ => hrename p]
  obtain ⟨objects⟩ := h
  obtain ⟨objects'⟩ := h'
  simp only [Heap.mk.injEq]
  apply List.ext_getElem hsize
  intro i hi hi'
  have hat := hobject ⟨i⟩
  simpa [Heap.object, hi, hi'] using hat

end Correspondence

end ObjectMarkup
