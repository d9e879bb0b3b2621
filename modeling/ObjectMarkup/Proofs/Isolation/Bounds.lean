import ObjectMarkup.Proofs.Renaming.Reader

namespace ObjectMarkup

open Markup

/-- Every object that an object refers to is there. -/
def Heap.Closed (h : Heap) : Prop := ∀ o, ∀ p ∈ (h.object o).refs, p.index < h.size

def Value.Within (v : Value) (n : Nat) : Prop := ∀ o ∈ v.refs, o.index < n

/-- The objects that the named objects refer to are among the first `n`. -/
def Registry.Within (names : Registry) (n : Nat) : Prop := ∀ o ∈ names.refs, o.index < n

structure Element.Within (e : Element) (n : Nat) : Prop where
  value : e.value.Within n
  names : ∀ names, e.names? = some names → names.Within n

/-- What the reader holds, the names, the open elements and the root refer to the first `n` objects
only. -/
structure Builder.Within (b : Builder) (n : Nat) : Prop where
  held : ∀ o, b.reader.Holds o → o.index < n
  names : b.names.Within n
  stack : ∀ e ∈ b.stack, e.Within n
  root : ∀ v, b.root = some v → v.Within n

structure Document.Within (d : Document) (n : Nat) : Prop where
  root : d.root.Within n
  names : d.names.Within n

theorem Value.within_of_object? {v : Value} (hv : v.object? = none) (n : Nat) : v.Within n := by
  intro o ho
  simp [Value.refs, hv] at ho

theorem Value.within_object {o : ObjectId} {n : Nat} (ho : o.index < n) :
    (Value.object o).Within n := by
  intro p hp
  rwa [List.mem_singleton.mp hp]

theorem Value.Within.index {v : Value} {n : Nat} {o : ObjectId} (hv : v.Within n)
    (ho : v.object? = some o) : o.index < n :=
  hv o (by simp [Value.refs, ho])

theorem Value.Within.mono {v : Value} {n m : Nat} (h : v.Within n) (hnm : n ≤ m) : v.Within m :=
  fun o ho => Nat.lt_of_lt_of_le (h o ho) hnm

theorem Registry.Within.mono {names : Registry} {n m : Nat} (h : names.Within n) (hnm : n ≤ m) :
    names.Within m :=
  fun o ho => Nat.lt_of_lt_of_le (h o ho) hnm

theorem Registry.Within.put {names : Registry} {n : Nat} {v : Value} (h : names.Within n)
    (hv : v.Within n) (id : String) : (names.put id v).Within n :=
  fun o ho => (Registry.refs_put ho).elim (hv o) (h o)

theorem Registry.Within.bindInclude {names inner : Registry} {n : Nat} {v : Value}
    (h : names.Within n) (hv : v.Within n) (hinner : inner.Within n) (id : String) :
    (names.bindInclude id v inner).Within n := by
  intro o ho
  rcases Registry.refs_bindInclude ho with ho | ho | ho
  · exact hv o ho
  · exact hinner o ho
  · exact h o ho

theorem Element.Within.mono {e : Element} {n m : Nat} (h : e.Within n) (hnm : n ≤ m) :
    e.Within m :=
  ⟨h.value.mono hnm, fun names hn => (h.names names hn).mono hnm⟩

/-- An element that includes no document refers to what its value refers to. -/
theorem Element.within_of_value {e : Element} {n : Nat} (hv : e.value.Within n)
    (hn : e.names? = none) : e.Within n :=
  ⟨hv, fun names h => by rw [hn] at h; cases h⟩

namespace Builder.Within

variable {b : Builder} {n m : Nat}

theorem mono (h : b.Within n) (hnm : n ≤ m) : b.Within m where
  held := fun o ho => Nat.lt_of_lt_of_le (h.held o ho) hnm
  names := h.names.mono hnm
  stack := fun e he => (h.stack e he).mono hnm
  root := fun v hv => (h.root v hv).mono hnm

theorem restacked {stack : List Element} (h : b.Within n) (hs : ∀ e ∈ stack, e.Within n) :
    ({ b with stack } : Builder).Within n :=
  ⟨h.held, h.names, hs, h.root⟩

theorem renamed {names : Registry} (h : b.Within n) (hn : names.Within n) :
    ({ b with names } : Builder).Within n :=
  ⟨h.held, hn, h.stack, h.root⟩

theorem push {e : Element} (h : b.Within n) (he : e.Within n) : (b.push e).Within n :=
  h.restacked (List.forall_mem_cons.mpr ⟨he, h.stack⟩)

theorem pop {e : Element} {rest : List Element} (h : b.Within n) (hstack : b.stack = e :: rest) :
    e.Within n ∧ ∀ el ∈ rest, el.Within n :=
  List.forall_mem_cons.mp (hstack ▸ h.stack)

theorem rooted {v : Value} (h : b.Within n) (hv : v.Within n) : (b.rooted v).Within n := by
  unfold Builder.rooted
  split
  · refine ⟨h.held, h.names, h.stack, ?_⟩
    intro w hw
    cases hw
    exact hv
  · exact h

theorem bindName {v : Value} (h : b.Within n) (hv : v.Within n) (id : Option String)
    (inner : Option Registry) (hinner : ∀ names, inner = some names → names.Within n) :
    (b.bindName id v inner).Within n := by
  cases id with
  | none => exact h
  | some id =>
    cases inner with
    | none => exact h.renamed (h.names.put hv id)
    | some names => exact h.renamed (h.names.bindInclude hv (hinner names rfl) id)

theorem resolve {raw : String} {target : Option ValueType} {v : Value} (h : b.Within n)
    (hv : b.context.resolve raw target = .ok v) : v.Within n := by
  have hreference : b.context.resolveReference raw = .ok v → v.Within n := by
    intro hv
    unfold Context.resolveReference at hv
    split at hv
    · split at hv
      · split at hv
        · cases hv
          exact Value.within_of_object? rfl n
        · unfold Context.dereference at hv
          split at hv
          · split at hv <;> cases hv
            exact Value.within_of_object? rfl n
          · split at hv
            · split at hv
              · cases hv
              · rename_i bundle hbundle
                cases hv
                cases hget : bundle.get? _ with
                | none => exact Value.within_of_object? rfl n
                | some w => exact fun o ho => h.held o (.resource hbundle hget ho)
            · cases hv
              cases hget : b.context.names.get? _ with
              | none => exact Value.within_of_object? rfl n
              | some w => exact fun o ho => h.names o (Registry.refs_get? hget o ho)
      · cases hv
        exact Value.within_of_object? rfl n
    · cases hv
      exact Value.within_of_object? rfl n
  unfold Context.resolve at hv
  split at hv
  · split at hv
    · cases hv
      exact Value.within_of_object? (object?_coerce raw _) n
    · exact hreference hv
  · exact hreference hv

end Builder.Within

theorem Object.refs_get? {o : Object} {name : String} {p : ObjectId}
    (h : (o.access?.bind fun a => a.get? name).bind Value.object? = some p) : p ∈ o.refs := by
  obtain ⟨typeName, dictionary, bean, sequence, listeners⟩ := o
  cases dictionary with
  | some entries =>
    obtain ⟨v, hv, hp⟩ := Option.bind_eq_some_iff.mp h
    have hmem := OrderedMap.mem_of_get? (m := entries) (by simpa [access?, Access.get?] using hv)
    have hp : p ∈ entries.entries.flatMap fun e => e.2.refs :=
      List.mem_flatMap.mpr ⟨_, hmem, by simp [Value.refs, hp]⟩
    simp [refs, hp]
  | none =>
    cases bean with
    | none => cases h
    | some b =>
      obtain ⟨v, hv, hp⟩ := Option.bind_eq_some_iff.mp h
      obtain ⟨q, hq, hheld⟩ := Option.bind_eq_some_iff.mp
        (show (b.property? name).bind Property.held = some v by
          simpa [access?, Access.get?, Bean.get?] using hv)
      have hp : p ∈ b.properties.flatMap fun p => p.held.toList.flatMap Value.refs :=
        List.mem_flatMap.mpr ⟨q, List.mem_of_find?_eq_some hq, by simp [hheld, Value.refs, hp]⟩
      simp only [refs, Option.map_some, Option.getD_some, List.mem_append]
      exact .inl (.inl (.inr hp))

namespace Heap.Closed

variable {h h' : Heap} {o p : ObjectId} {v : Value}

theorem empty : Heap.empty.Closed := by
  intro o p hp
  cases hp

theorem update {new : Object} (hh : h.Closed)
    (hnew : ∀ p ∈ new.refs, p ∈ (h.object o).refs ∨ p.index < h.size) : (h.update o new).Closed := by
  intro q p hp
  rw [Heap.size_update]
  rw [Heap.object_update] at hp
  split at hp
  · exact (hnew p hp).elim (hh o p) id
  · exact hh q p hp

theorem put {name : String} (hh : h.Closed) (hv : v.Within h.size)
    (hput : h.put o name v = .ok h') : h'.Closed ∧ h'.size = h.size := by
  unfold Heap.put at hput
  cases hnew : (h.object o).put name (h.labelDuring o v) v with
  | error e =>
    rw [hnew] at hput
    cases hput
  | ok new =>
    rw [hnew] at hput
    cases hput
    exact ⟨hh.update fun p hp => (Object.refs_put hnew p hp).imp_right (hv p), Heap.size_update ..⟩

theorem addItem {added : Except PropertyError Heap} (hh : h.Closed) (hv : v.Within h.size)
    (hadd : h.addItem? o v = some added) (hok : added = .ok h') : h'.Closed ∧ h'.size = h.size := by
  subst hok
  unfold Heap.addItem? at hadd
  obtain ⟨s, hs, hadd⟩ := Option.map_eq_some_iff.mp hadd
  cases hnew : s.add (h.object o).typeName (h.labelDuring o v) v with
  | error e =>
    rw [hnew] at hadd
    cases hadd
  | ok new =>
    rw [hnew] at hadd
    cases hadd
    refine ⟨hh.update fun p hp => ?_, Heap.size_update ..⟩
    simp only [Object.refs, Option.map_some, Option.getD_some, List.mem_append, hs,
      Sequence.add_ok hnew, List.flatMap_append] at hp ⊢
    rcases hp with ((hp | hp) | (hp | hp)) | hp
    · exact .inl (.inl (.inl (.inl hp)))
    · exact .inl (.inl (.inl (.inr hp)))
    · exact .inl (.inl (.inr hp))
    · exact .inr (hv p (by simpa using hp))
    · exact .inl (.inr hp)

theorem addListener (hh : h.Closed) (hp : p.index < h.size)
    (hadd : h.addListener? o p = some h') : h'.Closed ∧ h'.size = h.size := by
  unfold Heap.addListener? at hadd
  obtain ⟨ls, hls, rfl⟩ := Option.map_eq_some_iff.mp hadd
  refine ⟨hh.update fun q hq => ?_, Heap.size_update ..⟩
  simp only [Object.refs, Option.getD_some, List.mem_append, hls, List.mem_singleton] at hq ⊢
  rcases hq with hq | (hq | rfl)
  · exact .inl (.inl hq)
  · exact .inl (.inr hq)
  · exact .inr hp

theorem build (hh : h.Closed) (b : Blueprint) : (h.build b).2.Closed := by
  intro o p hp
  rw [Heap.size_build]
  rw [Heap.object_build] at hp
  split at hp
  · exact Nat.lt_of_lt_of_le (hh o p hp) (Nat.le_add_right ..)
  · rw [Object.refs_mapRefs] at hp
    obtain ⟨q, hq, rfl⟩ := List.mem_map.mp hp
    have hq : q.index < b.parts.length + 1 := by
      cases hat : b.objects[o.index - h.size]? with
      | none =>
        rw [hat] at hq
        cases hq
      | some new =>
        rw [hat] at hq
        exact b.closed new (List.mem_of_getElem? hat) q hq
    simp only [Blueprint.objects, List.length_cons]
    omega

end Heap.Closed

/-- What a step leaves of a session, whether it succeeds or fails: the objects have become no fewer,
what they refer to is there, and the result is as `Q` says, given the number of objects. -/
structure Reading.Grows {α : Type} (s : Session) (Q : Nat → α → Prop) (x : Reading α) : Prop where
  grown : s.heap.size ≤ (x.perform s).2.heap.size
  closed : (x.perform s).2.heap.Closed
  result : ∀ a, (x.perform s).1 = .ok a → Q (x.perform s).2.heap.size a

namespace Reading.Grows

variable {α β ε : Type} {s : Session} {Q : Nat → α → Prop} {R : Nat → β → Prop}

theorem of_perform {x : Reading α} {p : Except ReadError α × Session} (hp : x.perform s = p)
    (hgrown : s.heap.size ≤ p.2.heap.size) (hclosed : p.2.heap.Closed)
    (hresult : ∀ a, p.1 = .ok a → Q p.2.heap.size a) : Grows s Q x := by
  subst hp
  exact ⟨hgrown, hclosed, hresult⟩

theorem pure {a : α} (hs : s.heap.Closed) (h : Q s.heap.size a) :
    Grows s Q (Pure.pure a : Reading α) :=
  ⟨Nat.le_refl _, hs, by rintro _ ⟨⟩; exact h⟩

theorem fail (hs : s.heap.Closed) (e : ReadError) : Grows s Q (fail e : Reading α) :=
  ⟨Nat.le_refl _, hs, by rintro _ ⟨⟩⟩

theorem bind {x : Reading α} {f : α → Reading β} (hx : Grows s Q x)
    (hf : ∀ a t, x.perform s = (.ok a, t) → s.heap.size ≤ t.heap.size → t.heap.Closed →
      Q t.heap.size a → Grows t R (f a)) : Grows s R (x >>= f) := by
  have hbind := perform_bind x f s
  obtain ⟨hgrown, hclosed, hresult⟩ := hx
  rcases hperform : x.perform s with ⟨e | a, t⟩
  · rw [hperform] at hbind hgrown hclosed
    exact of_perform hbind hgrown hclosed (by rintro _ ⟨⟩)
  · rw [hperform] at hbind hgrown hclosed hresult
    obtain ⟨hgrown', hclosed', hresult'⟩ := hf a t hperform hgrown hclosed (hresult a rfl)
    exact of_perform hbind (Nat.le_trans hgrown hgrown') hclosed' hresult'

theorem mono {Q' : Nat → α → Prop} {x : Reading α} (hx : Grows s Q x)
    (hQ : ∀ n a, Q n a → Q' n a) : Grows s Q' x :=
  ⟨hx.grown, hx.closed, fun a ha => hQ _ a (hx.result a ha)⟩

theorem heap_bind {f : Heap → Reading β} (h : Grows s R (f s.heap)) :
    Grows s R (Reading.heap >>= f) :=
  of_perform (perform_bind_of_ok (perform_heap s) f) h.grown h.closed h.result

theorem lift_bind {wrap : ε → ReadError} {x : Except ε α} {f : α → Reading β} (hs : s.heap.Closed)
    (h : ∀ a, x = .ok a → Grows s R (f a)) : Grows s R (lift wrap x >>= f) := by
  cases x with
  | ok a => exact h a rfl
  | error e => exact fail hs (wrap e)

theorem lift {wrap : ε → ReadError} {x : Except ε α} (hs : s.heap.Closed)
    (h : ∀ a, x = .ok a → Q s.heap.size a) : Grows s Q (Reading.lift wrap x) := by
  cases x with
  | ok a => exact pure hs (h a rfl)
  | error e => exact fail hs (wrap e)

theorem setHeap {h : Heap} (hsize : s.heap.size ≤ h.size) (hclosed : h.Closed) :
    Grows s (fun n _ => n = h.size) (setHeap h) :=
  ⟨hsize, hclosed, fun _ _ => rfl⟩

theorem mapError {f : ReadError → ReadError} {x : Reading α} (hx : Grows s Q x) :
    Grows s Q (mapError f x) := by
  refine ⟨hx.grown, hx.closed, ?_⟩
  intro a ha
  have hok : (x.perform s).1 = .ok a := by
    rw [perform_mapError] at ha
    cases hr : (x.perform s).1 with
    | error e =>
      rw [hr] at ha
      cases ha
    | ok b =>
      rw [hr] at ha
      exact ha
  exact hx.result a hok

theorem within {location : Option String} {body : Reading α} (hs : s.heap.Closed)
    (h : ∀ guard, Grows { s with guard } Q body) : Grows s Q (within location body) := by
  have hperform := perform_within location body s
  cases henter : s.guard.enter location with
  | error e =>
    rw [henter] at hperform
    exact of_perform hperform (Nat.le_refl _) hs (by rintro _ ⟨⟩)
  | ok guard =>
    rw [henter] at hperform
    obtain ⟨hgrown, hclosed, hresult⟩ := h guard
    exact of_perform hperform hgrown hclosed hresult

/-- A step that only notes something in the log leaves the objects as they are. -/
theorem attach {log : Session → Except PropertyError (List AttachedValue)} (hs : s.heap.Closed) :
    Grows s (fun _ _ => True) (do
      let s ← get
      let new ← Reading.lift .property (log s)
      set { s with attached := new } : Reading Unit) := by
  have hnote : Grows s (fun _ _ => True) (do
      let new ← Reading.lift .property (log s)
      set { s with attached := new } : Reading Unit) :=
    lift_bind hs fun _ _ => ⟨Nat.le_refl _, hs, fun _ _ => trivial⟩
  exact of_perform rfl hnote.grown hnote.closed hnote.result

theorem put {o : ObjectId} {name : String} {v : Value} (hs : s.heap.Closed)
    (hv : v.Within s.heap.size) : Grows s (fun _ _ => True) (put o name v) := by
  refine heap_bind (lift_bind hs fun h hput => ?_)
  obtain ⟨hclosed, hsize⟩ := hs.put hv hput
  exact (setHeap (Nat.le_of_eq hsize.symm) hclosed).mono fun _ _ _ => trivial

theorem build (hs : s.heap.Closed) (b : Blueprint) :
    Grows s (fun n (o : ObjectId) => o.index < n) (build b) := by
  refine heap_bind ?_
  have hsize := s.heap.size_build b
  refine (setHeap ?_ (hs.build b)).bind fun _ t _ _ ht hn => pure ht ?_
  · rw [hsize]
    exact Nat.le_add_right ..
  · rw [hn, hsize]
    exact Nat.lt_add_of_pos_right (by simp [Blueprint.objects])

end Reading.Grows

namespace Builder

variable {b : Builder} {s : Session} {e parent : Element} {o : ObjectId} {v : Value}

open Reading (Grows)

theorem grows_addListeners {property : String} {list : ObjectId} {names : Registry} (ids : List String)
    (hs : s.heap.Closed) (hn : names.Within s.heap.size) :
    Grows s (fun _ _ => True) (addListeners names property list ids) := by
  induction ids generalizing s with
  | nil => exact .pure hs trivial
  | cons id rest ih =>
    have hadd : Grows s (fun _ _ => True) (addListener names property list id) := by
      refine .heap_bind ?_
      split
      · exact .fail hs _
      · rename_i listener hget
        have hlistener := hn listener (Registry.refs_get? hget listener (by simp [Value.refs,
          Value.object?]))
        split
        · rename_i h hadd
          obtain ⟨hclosed, hsize⟩ := hs.addListener hlistener hadd
          exact (Grows.setHeap (Nat.le_of_eq hsize.symm) hclosed).mono fun _ _ _ => trivial
        · exact .fail hs _
      · exact .fail hs _
    exact hadd.bind fun _ t _ hst ht _ => ih ht (hn.mono hst)

theorem grows_applyAttribute (hs : s.heap.Closed) (hb : b.Within s.heap.size) (a : Attribute) :
    Grows s (fun _ _ => True) (b.applyAttribute e o a) := by
  unfold applyAttribute
  split
  · unfold applyAttached
    split
    · exact .fail hs _
    · split
      · exact .fail hs _
      · dsimp only
        split
        · exact .fail hs _
        · refine .lift_bind hs fun v _ => ?_
          exact .attach hs
  · unfold applyProperty
    refine .heap_bind ?_
    dsimp only
    split
    · exact .fail hs _
    · split
      · split
        · exact .fail hs _
        · exact grows_addListeners _ hs hb.names
      · exact .fail hs _
      · exact .lift_bind hs fun v hv => .put hs (hb.resolve hv)

theorem grows_applyAttributes (hs : s.heap.Closed) (hb : b.Within s.heap.size)
    (attributes : List Attribute) :
    Grows s (fun _ _ => True) (b.applyAttributes e attributes) := by
  have hall : ∀ (attributes : List Attribute) (o : ObjectId) (s : Session), s.heap.Closed →
      b.Within s.heap.size → Grows s (fun _ _ => True) (b.applyAll e o attributes) := by
    intro attributes o
    induction attributes with
    | nil => exact fun s hs _ => .pure hs trivial
    | cons a rest ih =>
      exact fun s hs hb => (grows_applyAttribute hs hb a).bind fun _ t _ hst ht _ =>
        ih t ht (hb.mono hst)
  unfold applyAttributes
  split
  · exact .pure hs trivial
  · split
    · exact .fail hs _
    · exact hall attributes _ s hs hb

theorem grows_joinObject {place : Location} (hs : s.heap.Closed) (hv : v.Within s.heap.size) :
    Grows s (fun _ _ => True) (joinObject parent v place) := by
  unfold joinObject
  split
  · exact .fail hs _
  · refine .heap_bind ?_
    split
    · rename_i added hadd
      refine .lift_bind hs fun h hok => ?_
      obtain ⟨hclosed, hsize⟩ := hs.addItem hv hadd hok
      exact (Grows.setHeap (Nat.le_of_eq hsize.symm) hclosed).mono fun _ _ _ => trivial
    · split
      · rename_i listener _ _
        have hlistener := hv.index (o := listener) rfl
        generalize hadded : (s.heap.addListener? _ listener).getD s.heap = h
        have hadd : h.Closed ∧ h.size = s.heap.size := by
          cases hsome : s.heap.addListener? _ listener with
          | none =>
            rw [hsome] at hadded
            cases hadded
            exact ⟨hs, rfl⟩
          | some h' =>
            rw [hsome] at hadded
            cases hadded
            exact hs.addListener hlistener hsome
        exact (Grows.setHeap (Nat.le_of_eq hadd.2.symm) hadd.1).mono fun _ _ _ => trivial
      · exact .fail hs _
      · exact .fail hs _

theorem grows_join {place : Location} (hs : s.heap.Closed) (hb : b.Within s.heap.size)
    (hv : v.Within s.heap.size) : Grows s (fun n b => Builder.Within b n) (b.join v place) := by
  unfold join
  split
  · exact .pure hs hb
  · rename_i parent rest hstack
    split
    · refine .pure hs (hb.restacked (List.forall_mem_cons.mpr ⟨?_, (hb.pop hstack).2⟩))
      exact Element.within_of_value hv rfl
    · exact .fail hs _
    · exact (grows_joinObject hs hv).bind fun _ t _ hst ht _ => .pure ht (hb.mono hst)

theorem grows_closeAssignment (hs : s.heap.Closed) (hb : b.Within s.heap.size)
    (hv : v.Within s.heap.size) :
    Grows s (fun n b => Builder.Within b n) (b.closeAssignment e v) := by
  have hput : ∀ (o : ObjectId) (name : String) (v : Value), v.Within s.heap.size →
      Grows s (fun n b => Builder.Within b n) (do
        Reading.put o name v
        return b) :=
    fun o name v hv => (Grows.put hs hv).bind fun _ t _ hst ht _ => .pure ht (hb.mono hst)
  unfold closeAssignment
  split
  · exact .fail hs _
  · refine .heap_bind ?_
    dsimp only
    split
    · exact .fail hs _
    · split
      · exact hput _ _ v hv
      · split
        · exact .fail hs _
        · refine hput _ _ _ ?_
          split
          · exact Value.within_of_object? (object?_coerce _ _) _
          · exact hv

theorem grows_runScript {key body : String} (hs : s.heap.Closed) (hb : b.Within s.heap.size) :
    Grows s (fun n b => Builder.Within b n) (b.runScript key body) := by
  unfold runScript
  split
  · exact .fail hs _
  · rename_i engine hengine
    refine .lift_bind hs fun names hrun => .pure hs (hb.renamed fun o ho => ?_)
    rcases Command.refs_runAll hrun o ho with ⟨command, hm, ho⟩ | ho
    · exact hb.held o (.script (ScriptEngines.mem_of_find? hengine) hm ho)
    · exact hb.names o ho

theorem grows_settle (hs : s.heap.Closed) (hb : b.Within s.heap.size) (he : e.Within s.heap.size) :
    Grows s (fun n b => Builder.Within b n) (b.settle e) := by
  have hjoin : ∀ (id : Option String) (inner : Option Registry) {v : Value},
      v.Within s.heap.size → (∀ names, inner = some names → names.Within s.heap.size) →
      Grows s (fun n b => Builder.Within b n)
        (do return (← (b.bindName id v inner).join v e.location).rooted v) :=
    fun id inner v hv hinner => (grows_join hs (hb.bindName hv id inner hinner) hv).bind
      fun _ t _ hst ht hc => .pure ht (hc.rooted (hv.mono hst))
  obtain ⟨hvalue, hnames⟩ := he
  obtain ⟨name, location, content⟩ := e
  cases content with
  | created o closing => exact hjoin closing.id none hvalue (by simp)
  | included root names closing => exact hjoin closing.id (some names) hvalue hnames
  | composite o closing =>
    exact .pure hs ((hb.bindName hvalue closing.id none (by simp)).rooted hvalue)
  | assignment v => exact .pure hs hb
  | script inline => exact .pure hs hb

theorem grows_closed {place : Location} (hs : s.heap.Closed) (hb : b.Within s.heap.size) :
    Grows s (fun n b => Builder.Within b n) (b.closed place) := by
  cases hstack : b.stack with
  | nil =>
    unfold closed
    rw [hstack]
    exact .fail hs _
  | cons e rest =>
    obtain ⟨he, hrest⟩ := hb.pop hstack
    have hpop := hb.restacked hrest
    cases hclosing : e.closing? with
    | some closing =>
      rw [closed_eq hstack hclosing]
      exact (grows_applyAttributes hs hpop closing.attributes).bind fun _ t _ hst ht _ =>
        grows_settle ht (hpop.mono hst) (he.mono hst)
    | none =>
      unfold closed
      simp only [hstack]
      obtain ⟨name, location, content⟩ := e
      cases content with
      | assignment v => exact grows_closeAssignment hs hpop he.value
      | script inline =>
        cases inline with
        | none => exact .pure hs (hpop.rooted (Value.within_of_object? rfl _))
        | some script =>
          exact (grows_runScript hs hpop).bind fun _ t _ _ ht hc =>
            .pure ht (hc.rooted (Value.within_of_object? rfl _))
      | created o closing => cases hclosing
      | included root names closing => cases hclosing
      | composite o closing => cases hclosing

theorem grows_text {content : String} (hs : s.heap.Closed) (hb : b.Within s.heap.size) :
    Grows s (fun n b => Builder.Within b n) (b.text content) := by
  unfold text
  split
  · exact .pure hs hb
  · rename_i e rest hstack
    have hrest := (hb.pop hstack).2
    have hreplace : ∀ content : Content, (Element.value ⟨e.name, e.location, content⟩).object? = none →
        Element.names? ⟨e.name, e.location, content⟩ = none →
        Builder.Within { b with stack := { e with content } :: rest } s.heap.size :=
      fun content hv hn => hb.restacked (List.forall_mem_cons.mpr
        ⟨Element.within_of_value (Value.within_of_object? hv _) hn, hrest⟩)
    split
    · exact .pure hs (hreplace (.script _) rfl rfl)
    · split
      · exact .pure hs hb
      · exact .pure hs (hreplace (.assignment (.string content)) rfl rfl)
    · split
      · exact .pure hs hb
      · refine .heap_bind ?_
        split
        · rename_i added hadd
          refine .lift_bind hs fun h hok => ?_
          obtain ⟨hclosed, hsize⟩ := hs.addItem (Value.within_of_object? rfl _) hadd hok
          exact (Grows.setHeap (Nat.le_of_eq hsize.symm) hclosed).bind fun _ t _ hst ht _ =>
            .pure ht (hb.mono hst)
        · exact .pure hs hb
    · exact .pure hs hb

theorem grows_openObject {name : QualifiedName} {closing : Closing} {place : Location}
    (hs : s.heap.Closed) (hb : b.Within s.heap.size) :
    Grows s (fun n b => Builder.Within b n) (b.openObject name closing place) := by
  unfold openObject
  split
  · exact .fail hs _
  · refine .lift_bind hs fun blueprint _ => (Grows.build hs blueprint).bind
      fun o t _ hst ht ho => .pure ht ((hb.mono hst).push ?_)
    exact Element.within_of_value (Value.within_object ho) rfl

theorem grows_openProperty {name : QualifiedName} {closing : Closing} {place : Location}
    (hs : s.heap.Closed) (hb : b.Within s.heap.size) :
    Grows s (fun n b => Builder.Within b n) (b.openProperty name closing place) := by
  unfold openProperty
  split
  · exact .fail hs _
  · rename_i o ho
    refine .heap_bind ?_
    extract_lets o inPlace
    split
    · split
      · rename_i part hpart
        have hpart := hs _ part (Object.refs_get? hpart)
        exact .pure hs (hb.push (Element.within_of_value (e := ⟨name, place, .composite part closing⟩)
          (Value.within_object hpart) rfl))
      · exact .fail hs _
    · split
      · exact .fail hs _
      · exact .pure hs (hb.push (Element.within_of_value (Value.within_of_object? rfl _) rfl))

theorem grows_openScript {name : QualifiedName} {closing : Closing} {place : Location}
    (hs : s.heap.Closed) (hb : b.Within s.heap.size) :
    Grows s (fun n b => Builder.Within b n) (b.openScript name closing place) := by
  have hfile : ∀ source language, Grows s (fun n b => Builder.Within b n)
      (b.runScriptFile source language) := by
    intro source language
    unfold runScriptFile
    dsimp only
    split
    · rw [pure_bind]
      exact .lift_bind hs fun _ _ => .lift_bind hs fun _ _ => grows_runScript hs hb
    · exact .fail hs _
  unfold openScript
  split
  · exact .fail hs _
  · split
    · exact .fail hs _
    · dsimp only
      split
      · exact (hfile _ _).bind fun c t _ _ ht hc => .pure ht
          (hc.push (Element.within_of_value (Value.within_of_object? rfl _) rfl))
      · split
        · exact .pure hs (hb.push (Element.within_of_value (Value.within_of_object? rfl _) rfl))
        · exact .fail hs _

end Builder

/-- A way of reading included documents that leaves no reference behind that leads nowhere, given
that what the reader holds is there. -/
def Reader.Bounded (nested : Reader → String → Reading Document) : Prop :=
  ∀ (r : Reader) (l : String) (s : Session), s.heap.Closed →
    (∀ o, r.Holds o → o.index < s.heap.size) →
    Reading.Grows s (fun n d => Document.Within d n) (nested r l)

namespace Builder

variable {b : Builder} {s : Session} {nested : Reader → String → Reading Document}
  (hnested : Reader.Bounded nested)

open Reading (Grows)

include hnested

theorem grows_openInclude {name : QualifiedName} {closing : Closing} {place : Location}
    (hs : s.heap.Closed) (hb : b.Within s.heap.size) :
    Grows s (fun n b => Builder.Within b n) (b.openInclude nested name closing place) := by
  have hread : ∀ (r : Reader) path through own, (∀ o, r.Holds o → o.index < s.heap.size) →
      Grows s (fun n b => Builder.Within b n) (do
        let document ← (nested r path).mapError through
        return b.push ⟨name, place, .included document.root document.names own⟩) := by
    intro r path through own held
    refine (hnested r path s hs held).mapError.bind fun d t _ hst ht hd => .pure ht
      ((hb.mono hst).push ⟨hd.root, ?_⟩)
    rintro _ ⟨⟩
    exact hd.names
  unfold openInclude
  split
  · exact .fail hs _
  · dsimp only
    split
    · rw [pure_bind]
      exact hread _ _ _ _ hb.held
    · refine .lift_bind hs fun bundle hload => ?_
      rw [pure_bind]
      exact hread _ _ _ _ fun o ho => hb.held o (Reader.holds_withResources hload ho)

/-- An event leaves no reference behind that leads nowhere. -/
theorem grows_step (hs : s.heap.Closed) (hb : b.Within s.heap.size) (e : Event) :
    Grows s (fun n b => Builder.Within b n) (b.step nested e) := by
  cases e with
  | opened name attributes place =>
    unfold step opened
    refine .lift_bind hs fun taken _ => ?_
    dsimp only
    split
    · split
      · exact grows_openInclude hnested hs hb
      · split
        · exact grows_openScript hs hb
        · exact .fail hs _
    · split
      · exact grows_openObject hs hb
      · exact grows_openProperty hs hb
  | closed place => exact grows_closed hs hb
  | text content place => exact grows_text hs hb

theorem grows_parse {r : Reader} (hs : s.heap.Closed)
    (held : ∀ o, r.Holds o → o.index < s.heap.size) (source : List Char)
    (location : Option String) :
    Grows s (fun n d => Document.Within d n) (r.parse nested source location) := by
  have hdeliver : ∀ (signals : List Signal) (b : Builder) (s : Session), s.heap.Closed →
      b.Within s.heap.size → Grows s (fun n b => Builder.Within b n)
        (deliver (fun b e => Builder.step nested b e) Builder.finished
          (fun _ f => .fail (.markup f)) signals b) := by
    intro signals
    induction signals with
    | nil => exact fun b s hs hb => .pure hs hb
    | cons signal rest ih =>
      intro b s hs hb
      cases signal with
      | event e =>
        exact (grows_step hnested hs hb e).bind fun c t _ _ ht hc => ih c t ht hc
      | checkpoint =>
        simp only [deliver]
        split
        · exact .pure hs hb
        · exact ih b s hs hb
      | fault f => exact .fail hs _
  have hstart : (start r location).Within s.heap.size :=
    ⟨held, by rintro _ ⟨⟩, by rintro _ ⟨⟩, by rintro _ ⟨⟩⟩
  unfold Reader.parse
  refine (hdeliver _ _ s hs hstart).bind fun b t _ _ ht hb => .lift ht fun d hd => ?_
  unfold finish at hd
  split at hd
  · cases hd
  · split at hd
    · cases hd
    · rename_i root hroot
      cases hd
      exact ⟨hb.root root hroot, hb.names⟩

theorem grows_parseBytes {r : Reader} (hs : s.heap.Closed)
    (held : ∀ o, r.Holds o → o.index < s.heap.size) (bytes : Bytes) (location : Option String) :
    Grows s (fun n d => Document.Within d n) (r.parseBytes nested bytes location) :=
  .lift_bind hs fun source _ => grows_parse hnested hs held source location

end Builder

theorem Reader.bounded_readNested (room : Nat) : Reader.Bounded (Reader.readNested room) := by
  induction room with
  | zero => exact fun r l s hs held => .fail hs _
  | succ room ih =>
    intro r l s hs held
    refine .within hs fun guard => .lift_bind hs fun bytes _ => ?_
    exact Builder.grows_parseBytes (s := { s with guard }) ih hs held bytes (some l)

end ObjectMarkup
