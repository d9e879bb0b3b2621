import ObjectMarkup.Proofs.Binding.Turn

namespace ObjectMarkup

def loadTurns (rank : Nat) (owner : BindingClass) (fields : List FieldBinding) : List Turn :=
  fields.filterMap fun f => f.load.map fun l => ⟨rank, owner, f, .load l⟩

def takeTurns (rank : Nat) (owner : BindingClass) (fields : List FieldBinding) : List Turn :=
  fields.filterMap fun f => f.bind.map fun b => ⟨rank, owner, f, .take b⟩

def BindingClass.turns (c : BindingClass) (rank : Nat) : List Turn :=
  loadTurns rank c c.fields ++ takeTurns rank c c.fields

/-- The turns of all fields of a host, in order: class by class, and within a class those that load
before those that take. -/
def Host.plan (host : Host) : List Turn :=
  host.classes.zipIdx.flatMap fun (c, rank) => c.turns rank

def fillAll (r : Reader) (host : Host) (docs : List LoadedDocument) (turns : List Turn) :
    Filling (List LoadedDocument) :=
  turns.foldlM (fun docs t => t.fill r host docs) docs

/-- The documents loaded so far, as they are kept while a class is filled: those of the class itself
apart from those of the classes before it. -/
structure Kept (rank : Nat) (own inherited : Loaded) (earlier mine : List LoadedDocument) : Prop where
  earlier_rank : ∀ d ∈ earlier, d.rank < rank
  mine_rank : ∀ d ∈ mine, d.rank = rank
  own_eq : ∀ property, own.get? property =
    (lastLoaded? property mine).map LoadedDocument.retained
  inherited_eq : ∀ property, inherited.get? property =
    (lastLoaded? property earlier).map LoadedDocument.retained
  own_keys : own.keys.Nodup

theorem mem_of_lastLoaded? {property : String} {docs : List LoadedDocument} {d : LoadedDocument}
    (h : lastLoaded? property docs = some d) : d ∈ docs ∧ d.field.name = property := by
  have hmem := List.mem_of_getLast? h
  simpa using List.mem_filter.mp hmem

namespace Kept

variable {rank : Nat} {own inherited : Loaded} {earlier mine : List LoadedDocument}

theorem start : Kept 0 .empty .empty [] [] where
  earlier_rank := by simp
  mine_rank := by simp
  own_eq := fun _ => rfl
  inherited_eq := fun _ => rfl
  own_keys := List.nodup_nil

/-- A document that the class loads is kept in place of one that it has loaded under that name. -/
theorem load (h : Kept rank own inherited earlier mine) (f : FieldBinding) (names : Registry) :
    Kept rank (own.insert f.name ⟨f.visibility, names⟩) inherited earlier
      (mine ++ [⟨rank, f, names⟩]) where
  earlier_rank := h.earlier_rank
  mine_rank := by
    intro d hd
    rcases List.mem_append.mp hd with hd | hd
    · exact h.mine_rank d hd
    · cases List.mem_singleton.mp hd
      rfl
  own_eq := by
    intro property
    rw [OrderedMap.get?_insert, lastLoaded?_append, h.own_eq]
    by_cases hname : f.name = property <;>
      simp [lastLoaded?, hname, LoadedDocument.retained]
  inherited_eq := h.inherited_eq
  own_keys := OrderedMap.nodup_keys_insert h.own_keys _ _

/-- When a class is done, the classes after it inherit its documents on top of the others. -/
theorem next (h : Kept rank own inherited earlier mine) :
    Kept (rank + 1) .empty (inherited.insertAll own.entries) (earlier ++ mine) [] where
  earlier_rank := by
    intro d hd
    rcases List.mem_append.mp hd with hd | hd
    · exact Nat.lt_succ_of_lt (h.earlier_rank d hd)
    · exact Nat.lt_succ_of_le (Nat.le_of_eq (h.mine_rank d hd))
  mine_rank := by simp
  own_eq := fun _ => rfl
  inherited_eq := by
    intro property
    rw [OrderedMap.get?_insertAll _ h.own_keys, lastLoaded?_append, h.own_eq, h.inherited_eq]
    cases lastLoaded? property mine <;> rfl
  own_keys := List.nodup_nil

/-- What the class has loaded itself goes first, and this is what was loaded last. -/
theorem sourceOf_eq (h : Kept rank own inherited earlier mine) (owner : BindingClass)
    (f : FieldBinding) (b : BindPoint) :
    Binder.sourceOf owner f b own inherited =
      (Turn.source ⟨rank, owner, f, .take b⟩ b (earlier ++ mine)).map LoadedDocument.retained := by
  unfold Binder.sourceOf Turn.source
  rw [h.own_eq, h.inherited_eq, lastLoaded?_append]
  cases hmine : lastLoaded? b.property mine with
  | some d =>
    have hrank : d.rank = rank := h.mine_rank d (mem_of_lastLoaded? hmine).1
    simp [hrank, Except.map]
  | none =>
    cases hearlier : lastLoaded? b.property earlier with
    | none => rfl
    | some d =>
      have hrank : d.rank ≠ rank :=
        Nat.ne_of_lt (h.earlier_rank d (mem_of_lastLoaded? hearlier).1)
      by_cases hown : d.field.visibility = .ownClass <;>
        simp [hrank, hown, Except.map, LoadedDocument.retained]

end Kept

namespace Binder

variable {r : Reader} {host : Host} {owner : BindingClass} {rank : Nat} {own inherited : Loaded}
  {earlier mine : List LoadedDocument} {β : Type}

/-- The fields of a class that load are filled in their turns, and what comes next goes on with the
documents loaded so far. -/
theorem loadFields_bind (h : Kept rank own inherited earlier mine) (fields : List FieldBinding)
    {k : Loaded → Filling β} {k' : List LoadedDocument → Filling β}
    (hk : ∀ own mine, Kept rank own inherited earlier mine → k own = k' (earlier ++ mine)) :
    loadFields r host owner own fields >>= k =
      fillAll r host (earlier ++ mine) (loadTurns rank owner fields) >>= k' := by
  induction fields generalizing own mine with
  | nil => simpa [loadFields, fillAll, loadTurns] using hk own mine h
  | cons f rest ih =>
    cases hl : f.load with
    | none => simpa [loadFields, hl, loadTurns] using ih h
    | some l =>
      simp only [loadFields, hl, loadTurns, List.filterMap_cons, Option.map_some, fillAll,
        List.foldlM_cons, Turn.fill, bind_assoc, pure_bind]
      congr 1
      funext _
      congr 1
      funext names
      rw [List.append_assoc]
      exact ih (h.load f names)

theorem lift_map_bind {α γ : Type} (x : Except BindError α) (f : α → γ) (k : γ → Filling β) :
    lift (x.map f) >>= k = lift x >>= fun a => k (f a) := by
  cases x <;> rfl

theorem bindFields_bind (h : Kept rank own inherited earlier mine) (fields : List FieldBinding)
    (k : List LoadedDocument → Filling β) :
    (bindFields host owner own inherited fields >>= fun _ => k (earlier ++ mine)) =
      fillAll r host (earlier ++ mine) (takeTurns rank owner fields) >>= k := by
  induction fields with
  | nil => simp [bindFields, fillAll, takeTurns]
  | cons f rest ih =>
    cases hb : f.bind with
    | none => simpa [bindFields, hb, takeTurns] using ih
    | some b =>
      simp only [bindFields, hb, takeTurns, List.filterMap_cons, Option.map_some, fillAll,
        List.foldlM_cons, Turn.fill, bind_assoc, pure_bind, h.sourceOf_eq, lift_map_bind]
      congr 1
      funext _
      congr 1
      funext source
      congr 1
      funext value
      congr 1
      funext _
      exact ih

theorem bindClasses_eq (h : Kept rank .empty inherited earlier []) (classes : List BindingClass) :
    bindClasses r host inherited classes = do
      let _ ← fillAll r host earlier ((classes.zipIdx rank).flatMap fun (c, rank) => c.turns rank)
      return () := by
  induction classes generalizing rank inherited earlier with
  | nil => rfl
  | cons c rest ih =>
    have hturns : ∀ docs, fillAll r host docs
        (((c :: rest).zipIdx rank).flatMap fun (c, rank) => c.turns rank) = (do
          let docs ← fillAll r host docs (loadTurns rank c c.fields)
          let docs ← fillAll r host docs (takeTurns rank c c.fields)
          fillAll r host docs ((rest.zipIdx (rank + 1)).flatMap fun (c, rank) => c.turns rank)) := by
      intro docs
      simp only [fillAll, List.zipIdx_cons, List.flatMap_cons, BindingClass.turns, List.append_assoc,
        List.foldlM_append]
    have hclass : (loadFields r host c .empty c.fields >>= fun own => do
          bindFields host c own inherited c.fields
          bindClasses r host (inherited.insertAll own.entries) rest) =
        (fillAll r host (earlier ++ []) (loadTurns rank c c.fields) >>= fun docs => do
          let docs ← fillAll r host docs (takeTurns rank c c.fields)
          let _ ← fillAll r host docs
            ((rest.zipIdx (rank + 1)).flatMap fun (c, rank) => c.turns rank)
          return ()) := by
      refine loadFields_bind h c.fields fun own mine hkept => ?_
      rw [← bindFields_bind hkept]
      congr 1
      funext _
      exact ih hkept.next
    rw [List.append_nil] at hclass
    rw [hturns, bindClasses, hclass]
    simp only [bind_assoc]

theorem bind_eq (r : Reader) (host : Host) :
    bind r host = do
      let _ ← fillAll r host [] host.plan
      return () :=
  bindClasses_eq .start host.classes

end Binder

/-- The moments of filling a host: the turns taken, the documents loaded, and what was changed. -/
inductive Host.Filled (host : Host) (r : Reader) (s : Session) :
    List Turn → List LoadedDocument → Progress → Prop
  | start : Filled host r s [] [] ⟨s, []⟩
  | turn {done : List Turn} {docs docs' : List LoadedDocument} {p q : Progress} {t : Turn}
      (before : Filled host r s done docs p) (step : t.Fills r host docs p docs' q) :
      Filled host r s (done ++ [t]) docs' q

namespace Host.Filled

variable {host : Host} {r : Reader} {s : Session} {done : List Turn} {docs : List LoadedDocument}
  {p : Progress}

/-- What is left to do at a moment are the turns that are left. -/
theorem run_fillAll (h : host.Filled r s done docs p) (turns : List Turn) :
    (fillAll r host [] (done ++ turns)).run ⟨s, []⟩ = (fillAll r host docs turns).run p := by
  induction h generalizing turns with
  | start => rfl
  | @turn done docs docs' p q t before step ih =>
    rw [List.append_assoc, ih]
    simp only [fillAll, List.singleton_append, List.foldlM_cons, Filling.run_bind, step.run]

/-- From a moment filling goes on to the end, or to a turn that fails. -/
theorem outcome (h : host.Filled r s done docs p) (turns : List Turn) :
    (∃ docs' q, (fillAll r host docs turns).run p = (.ok docs', q) ∧
      host.Filled r s (done ++ turns) docs' q) ∨
    ∃ front t back docs' q e q', turns = front ++ t :: back ∧
      host.Filled r s (done ++ front) docs' q ∧ t.Fails r host docs' q e q' ∧
      (fillAll r host docs turns).run p = (.error e, q') := by
  induction turns generalizing done docs p with
  | nil => exact .inl ⟨docs, p, rfl, by simpa using h⟩
  | cons t rest ih =>
    have hcons : (fillAll r host docs (t :: rest)).run p =
        (t.fill r host docs >>= fun docs => fillAll r host docs rest).run p := rfl
    rw [hcons, Filling.run_bind]
    rcases t.ends r host docs p with ⟨docs', q, step⟩ | ⟨e, q, step⟩
    · rw [step.run]
      rcases ih (h.turn step) with ⟨docs'', q', hrun, hfilled⟩ | ⟨front, t', back, hfails⟩
      · exact .inl ⟨docs'', q', hrun, by simpa using hfilled⟩
      · obtain ⟨docs'', q', e, q'', rfl, hfilled, hfails, hrun⟩ := hfails
        exact .inr ⟨t :: front, t', back, docs'', q', e, q'', rfl, by simpa using hfilled, hfails,
          hrun⟩
    · rw [step.run]
      exact .inr ⟨[], t, rest, docs, p, e, q, rfl, by simpa using h, step, rfl⟩

theorem of_run {turns : List Turn}
    (h : (fillAll r host [] turns).run ⟨s, []⟩ = (.ok docs, p)) : host.Filled r s turns docs p := by
  rcases (start : host.Filled r s [] [] ⟨s, []⟩).outcome turns with
    ⟨docs', q, hrun, hfilled⟩ | ⟨front, t, back, docs', q, e, q', -, -, -, hrun⟩
  · rw [h] at hrun
    cases hrun
    exact hfilled
  · rw [h] at hrun
    cases hrun

/-- Each turn that was taken has assigned its field, and nothing else was assigned. -/
theorem assignments_eq (h : host.Filled r s done docs p) :
    (p.assignments.map fun a => (a.owner, a.field, a.accepted)) =
      done.map fun t => (t.owner.name, t.field.name, true) := by
  induction h with
  | start => rfl
  | turn before step ih =>
    cases step
    rw [List.map_append, List.map_append, ih]
    rfl

end Host.Filled

/-- Filling a host goes through all turns of the plan, or up to one that fails. -/
theorem Binder.bind_outcome (r : Reader) (host : Host) (s : Session) :
    (∃ docs p, (bind r host).run ⟨s, []⟩ = (.ok (), p) ∧ host.Filled r s host.plan docs p) ∨
    ∃ done t later docs p e q, host.plan = done ++ t :: later ∧ host.Filled r s done docs p ∧
      t.Fails r host docs p e q ∧ (bind r host).run ⟨s, []⟩ = (.error e, q) := by
  rw [bind_eq, Filling.run_bind]
  rcases (Host.Filled.start : host.Filled r s [] [] ⟨s, []⟩).outcome host.plan with
    ⟨docs, p, hrun, hfilled⟩ | ⟨done, t, later, docs, p, e, q, hplan, hfilled, hfails, hrun⟩
  · rw [hrun]
    exact .inl ⟨docs, p, rfl, hfilled⟩
  · rw [hrun]
    exact .inr ⟨done, t, later, docs, p, e, q, hplan, hfilled, hfails, rfl⟩

end ObjectMarkup
