import Mathlib.Data.List.Forall2
import ObjectMarkup.Proofs.Binding.Plan

namespace ObjectMarkup

/-- The field of a class that loads under a name. The last one counts. -/
def BindingClass.loader? (c : BindingClass) (property : String) : Option FieldBinding :=
  (c.fields.filter fun f => f.load.isSome && f.name = property).getLast?

/-- The nearest of classes in a row that loads under a name, the last class first: its place in the
row, and its field. -/
def nearestLoader? (property : String) (classes : List BindingClass) : Option (Nat × FieldBinding) :=
  classes.zipIdx.reverse.findSome? fun (c, rank) => (c.loader? property).map fun f => (rank, f)

/-- Where a document comes from: the place of the class, and the field. -/
def LoadedDocument.origin (d : LoadedDocument) : Nat × FieldBinding := (d.rank, d.field)

namespace Turn

def origin? (t : Turn) : Option (Nat × FieldBinding) :=
  match t.task with
  | .load _ => some (t.rank, t.field)
  | .take _ => none

inductive Loads (r : Reader) : Turn → LoadedDocument → Prop
  | intro {rank : Nat} {owner : BindingClass} {field : FieldBinding} {l : LoadPoint}
      {locale : Option Locale} {resources : Option Bundle} {s s' : Session} {document : Document}
      (localized : Binder.localeOf l = .ok locale)
      (supplied : Binder.resourcesFor r owner l locale = .ok resources)
      (read : ((r.withResources resources).read
        (Path.resolve l.document (some owner.location))).perform s = (.ok document, s')) :
      Loads r ⟨rank, owner, field, .load l⟩ ⟨rank, field, document.names⟩

end Turn

def BindingClass.origins (c : BindingClass) (rank : Nat) : List (Nat × FieldBinding) :=
  (c.fields.filter fun f => f.load.isSome).map fun f => (rank, f)

/-- The nearest of the loads in a row under a name that the class at a place may take from: its own,
or one that its class shares. -/
def nearestVisible? (property : String) (rank : Nat) (classes : List BindingClass) :
    Option (Nat × FieldBinding) :=
  let loads := (classes.zipIdx.flatMap fun (c, place) => c.origins place).filter
    fun o => o.2.name = property
  (loads.filter fun o => o.1 = rank ∨ o.2.visibility ≠ .ownClass).getLast?

theorem origins_loadTurns (rank : Nat) (owner : BindingClass) (fields : List FieldBinding) :
    (loadTurns rank owner fields).filterMap Turn.origin? =
      (fields.filter fun f => f.load.isSome).map fun f => (rank, f) := by
  induction fields with
  | nil => rfl
  | cons f rest ih =>
    unfold loadTurns at ih ⊢
    cases hl : f.load <;> simp [hl, ih, Turn.origin?]

theorem origins_takeTurns (rank : Nat) (owner : BindingClass) (fields : List FieldBinding) :
    (takeTurns rank owner fields).filterMap Turn.origin? = [] := by
  rw [List.filterMap_eq_nil_iff]
  intro t ht
  obtain ⟨f, -, hf⟩ := List.mem_filterMap.mp ht
  obtain ⟨b, -, rfl⟩ := Option.map_eq_some_iff.mp hf
  rfl

theorem origins_turns (c : BindingClass) (rank : Nat) :
    (c.turns rank).filterMap Turn.origin? = c.origins rank := by
  rw [BindingClass.turns, List.filterMap_append, origins_loadTurns, origins_takeTurns,
    List.append_nil]
  rfl

/-- An element of two lists in a row is in the first or in the second. -/
theorem append_eq_append_cons {α : Type} {xs ys front back : List α} {a : α}
    (h : xs ++ ys = front ++ a :: back) :
    (∃ xs', xs = front ++ a :: xs') ∨ ∃ ys', front = xs ++ ys' ∧ ys = ys' ++ a :: back := by
  rcases List.append_eq_append_iff.mp h with ⟨ys', hfront, hys⟩ | ⟨xs', hxs, hback⟩
  · exact .inr ⟨ys', hfront, hys⟩
  · cases xs' with
    | nil => exact .inr ⟨[], by simpa using hxs.symm, by simpa using hback.symm⟩
    | cons x xs' =>
      obtain ⟨rfl, -⟩ := List.cons.inj hback
      exact .inl ⟨xs', hxs⟩

/-- When a field of a class has its turn to take, the documents of that class and of those before it
have been loaded, and no others. -/
theorem origins_before_take {classes : List BindingClass} {start rank : Nat} {done later : List Turn}
    {owner : BindingClass} {f : FieldBinding} {b : BindPoint}
    (h : ((classes.zipIdx start).flatMap fun (c, rank) => c.turns rank) =
      done ++ ⟨rank, owner, f, .take b⟩ :: later) :
    f ∈ owner.fields ∧ f.bind = some b ∧
    ∃ before after, classes = before ++ owner :: after ∧ rank = start + before.length ∧
      done.filterMap Turn.origin? =
        ((before ++ [owner]).zipIdx start).flatMap fun (c, rank) => c.origins rank := by
  induction classes generalizing start done with
  | nil => simp at h
  | cons c rest ih =>
    rw [List.zipIdx_cons, List.flatMap_cons] at h
    rcases append_eq_append_cons h with ⟨turns, hturns⟩ | ⟨done', rfl, hrest⟩
    · -- The turn is one of this class, and no load is left in the class.
      rcases append_eq_append_cons hturns with ⟨loads, hloads⟩ | ⟨takes, rfl, htakes⟩
      · have hmem : (⟨rank, owner, f, .take b⟩ : Turn) ∈ loadTurns start c c.fields := by
          rw [hloads]
          simp
        obtain ⟨g, -, hg⟩ := List.mem_filterMap.mp hmem
        cases hl : g.load <;> simp [hl] at hg
      · have hmem : (⟨rank, owner, f, .take b⟩ : Turn) ∈ takeTurns start c c.fields := by
          rw [htakes]
          simp
        obtain ⟨g, hg, hturn⟩ := List.mem_filterMap.mp hmem
        obtain ⟨b', hb, hturn⟩ := Option.map_eq_some_iff.mp hturn
        injection hturn with hrank howner hfield htask
        injection htask with hpoint
        subst hrank howner hfield hpoint
        have hnone := origins_takeTurns start c c.fields
        rw [htakes, List.filterMap_append] at hnone
        refine ⟨hg, hb, [], rest, rfl, rfl, ?_⟩
        rw [List.filterMap_append, origins_loadTurns, (List.append_eq_nil_iff.mp hnone).1]
        simp [BindingClass.origins]
    · obtain ⟨hf, hb, before, after, rfl, rfl, horigins⟩ := ih hrest
      refine ⟨hf, hb, c :: before, after, rfl, by simp; omega, ?_⟩
      rw [List.filterMap_append, origins_turns, horigins]
      simp

/-- The classes that count for a field which has its turn to take are those up to its own. -/
theorem Host.classes_before_take {host : Host} {rank : Nat} {done later : List Turn}
    {owner : BindingClass} {f : FieldBinding} {b : BindPoint}
    (h : host.plan = done ++ ⟨rank, owner, f, .take b⟩ :: later) :
    ∃ before, before.length = rank ∧ host.classes.take (rank + 1) = before ++ [owner] ∧
      done.filterMap Turn.origin? =
        (before ++ [owner]).zipIdx.flatMap fun (c, rank) => c.origins rank := by
  obtain ⟨-, -, before, after, hclasses, hrank, horigins⟩ := origins_before_take h
  have hlength : before.length = rank := by omega
  refine ⟨before, hlength, ?_, horigins⟩
  rw [hclasses, List.append_cons]
  exact List.take_left' (by simp [hlength])

/-- The last of the documents of classes in a row comes from the nearest class that loads at all. -/
theorem getLast?_origins (property : String) (classes : List BindingClass) :
    ((classes.zipIdx.flatMap fun (c, rank) => c.origins rank).filter
      fun o => o.2.name = property).getLast? = nearestLoader? property classes := by
  rw [List.filter_flatMap, List.getLast?_flatMap, nearestLoader?]
  congr 1
  funext ⟨c, rank⟩
  dsimp only
  rw [BindingClass.origins, List.filter_map, List.getLast?_map, BindingClass.loader?,
    List.filter_filter]
  simp only [Function.comp_def, Bool.and_comm]

/-- The nearest load is also the nearest that a class may take from, if it may do so. -/
theorem nearestVisible?_of_nearest {property : String} {rank place : Nat}
    {classes : List BindingClass} {g : FieldBinding}
    (h : nearestLoader? property classes = some (place, g))
    (hvisible : place = rank ∨ g.visibility ≠ .ownClass) :
    nearestVisible? property rank classes = some (place, g) := by
  rw [← getLast?_origins] at h
  obtain ⟨farther, hloads⟩ := List.getLast?_eq_some_iff.mp h
  simp only [nearestVisible?, hloads, List.filter_append]
  simp [hvisible]

/-- No class in the row loads under a name when there is no nearest one that does. -/
theorem nearestLoader?_eq_none {property : String} {classes : List BindingClass} :
    nearestLoader? property classes = none ↔
      ∀ c ∈ classes, ∀ g ∈ c.fields, g.load.isSome → g.name ≠ property := by
  have hclass : ∀ c : BindingClass, c.loader? property = none ↔
      ∀ g ∈ c.fields, g.load.isSome → g.name ≠ property := by
    intro c
    simp [BindingClass.loader?]
  simp only [nearestLoader?, List.findSome?_eq_none_iff, List.mem_reverse, Prod.forall,
    Option.map_eq_none_iff, hclass]
  constructor
  · intro h c hc
    obtain ⟨rank, hrank⟩ := List.mem_iff_getElem?.mp hc
    exact h c rank (List.mem_zipIdx_iff_getElem?.mpr hrank)
  · intro h c rank hc
    exact h c (List.fst_mem_of_mem_zipIdx hc)

/-- The last class in a row is the nearest when it loads under the name. -/
theorem nearestLoader?_concat (property : String) (before : List BindingClass) (c : BindingClass) :
    nearestLoader? property (before ++ [c]) =
      ((c.loader? property).map fun g => (before.length, g)).or (nearestLoader? property before) := by
  simp only [nearestLoader?, List.zipIdx_append, List.reverse_append, List.findSome?_append]
  simp

theorem lastLoaded?_origin (property : String) (docs : List LoadedDocument) :
    (lastLoaded? property docs).map LoadedDocument.origin =
      ((docs.map LoadedDocument.origin).filter fun o => o.2.name = property).getLast? := by
  rw [List.filter_map, List.getLast?_map]
  rfl

namespace Host.Filled

variable {r : Reader} {host : Host} {s : Session} {done later : List Turn}
  {docs : List LoadedDocument} {p : Progress}

theorem checked (h : host.Filled r s done docs p) {t : Turn} (ht : t ∈ done) :
    Binder.check t.owner t.field = .ok () := by
  induction h with
  | start => cases ht
  | turn before step ih =>
    rcases List.mem_append.mp ht with ht | ht
    · exact ih ht
    · cases List.mem_singleton.mp ht
      cases step with
      | intro checked found accepted => exact checked

/-- The documents are those that the turns which load have read, turn by turn. -/
theorem loads (h : host.Filled r s done docs p) :
    List.Forall₂ (Turn.Loads r) (done.filter fun t => t.origin?.isSome) docs := by
  induction h with
  | start => exact .nil
  | @turn done docs docs' p q t before step ih =>
    rw [List.filter_append]
    cases step with
    | intro checked found accepted =>
      cases found with
      | load localized supplied read =>
        exact List.rel_append ih (.cons (.intro localized supplied read) .nil)
      | take selected named => simpa [Turn.origin?] using ih

theorem origins_eq (h : host.Filled r s done docs p) :
    docs.map LoadedDocument.origin = done.filterMap Turn.origin? := by
  induction h with
  | start => rfl
  | turn before step ih =>
    cases step with
    | intro checked found accepted =>
      rw [List.filterMap_append, ← ih]
      cases found <;> simp [Turn.origin?, LoadedDocument.origin]

/-- A field that has its turn to take loads nothing, as its class has done with its loads. -/
theorem check_eq_ok {rank : Nat} {owner : BindingClass} {f : FieldBinding} {b : BindPoint}
    (h : host.Filled r s done docs p) (hplan : host.plan = done ++ ⟨rank, owner, f, .take b⟩ :: later)
    (hwritable : f.writable = true) : Binder.check owner f = .ok () := by
  obtain ⟨hf, hb, before, after, -, -, horigins⟩ := origins_before_take hplan
  cases hload : f.load.isSome with
  | false => simp [Binder.check, hload, hwritable]
  | true =>
    have hmem : (0 + before.length, f) ∈ done.filterMap Turn.origin? := by
      rw [horigins, List.zipIdx_append, List.flatMap_append]
      apply List.mem_append_right
      simp [BindingClass.origins, hf, hload]
    obtain ⟨t, ht, horigin⟩ := List.mem_filterMap.mp hmem
    have hcheck := h.checked ht
    obtain ⟨rank', owner', f', task⟩ := t
    cases task with
    | take b' => cases horigin
    | load l =>
      obtain ⟨-, rfl⟩ : rank' = 0 + before.length ∧ f' = f := by simpa [Turn.origin?] using horigin
      simp [Binder.check, hload, hb] at hcheck

/-- The document loaded last into a property is that of the nearest class which loads it. -/
theorem lastLoaded?_eq {rank : Nat} {owner : BindingClass} {f : FieldBinding} {b : BindPoint}
    (h : host.Filled r s done docs p) (hplan : host.plan = done ++ ⟨rank, owner, f, .take b⟩ :: later)
    (property : String) :
    (lastLoaded? property docs).map LoadedDocument.origin =
      nearestLoader? property (host.classes.take (rank + 1)) := by
  obtain ⟨before, -, htake, horigins⟩ := host.classes_before_take hplan
  rw [lastLoaded?_origin, h.origins_eq, horigins, getLast?_origins, htake]

theorem run_bind {t : Turn} (h : host.Filled r s done docs p) (hplan : host.plan = done ++ t :: later) :
    (Binder.bind r host).run ⟨s, []⟩ = (do
      let docs ← t.fill r host docs
      let _ ← fillAll r host docs later
      return ()).run p := by
  rw [Binder.bind_eq, hplan, Filling.run_bind, h.run_fillAll, fillAll, List.foldlM_cons,
    ← Filling.run_bind, bind_assoc]
  rfl

end Host.Filled

/-- Where a field takes from. It is the nearest class that counts, and in it the last load: what the
class of the field loads goes first, whoever may take from it. If the nearest class is another one and
keeps its document to itself, the field fails, be there a class behind it that shares one or not. It
also fails if no class has loaded the property. -/
theorem nearest_load_taken {r : Reader} {host : Host} {s : Session} {done later : List Turn}
    {docs : List LoadedDocument} {p : Progress} {rank : Nat} {owner : BindingClass}
    {f : FieldBinding} {b : BindPoint} (h : host.Filled r s done docs p)
    (hplan : host.plan = done ++ ⟨rank, owner, f, .take b⟩ :: later) (hwritable : f.writable = true) :
    host.classes[rank]? = some owner ∧
    List.Forall₂ (Turn.Loads r) (done.filter fun t => t.origin?.isSome) docs ∧
    (∀ g, owner.loader? b.property = some g →
      nearestLoader? b.property (host.classes.take (rank + 1)) = some (rank, g)) ∧
    (nearestLoader? b.property (host.classes.take (rank + 1)) = none ↔
      ∀ c ∈ host.classes.take (rank + 1), ∀ g ∈ c.fields, g.load.isSome → g.name ≠ b.property) ∧
    match nearestLoader? b.property (host.classes.take (rank + 1)) with
    | none =>
      (Binder.bind r host).run ⟨s, []⟩ =
        (.error (.unloadedProperty owner.name f.name b.property), p)
    | some (j, g) =>
      if j ≠ rank ∧ g.visibility = .ownClass then
        (Binder.bind r host).run ⟨s, []⟩ =
          (.error (.inaccessibleProperty owner.name f.name b.property), p)
      else
        nearestVisible? b.property rank (host.classes.take (rank + 1)) = some (j, g) ∧
        ∃ d, lastLoaded? b.property docs = some d ∧ d.origin = (j, g) ∧
          (Binder.bind r host).run ⟨s, []⟩ = (do
            let value ← Binder.lift (Binder.takenValue f b d.retained)
            Binder.assign host owner.name f.name value
            let _ ← fillAll r host docs later
            return ()).run p := by
  obtain ⟨before, hrank, htake, -⟩ := host.classes_before_take hplan
  have hcheck : Binder.check owner f = .ok () := h.check_eq_ok hplan hwritable
  have hlast := h.lastLoaded?_eq hplan b.property
  have hfails : ∀ e, Turn.source ⟨rank, owner, f, .take b⟩ b docs = .error e →
      (Binder.bind r host).run ⟨s, []⟩ = (.error e, p) := by
    intro e he
    rw [h.run_bind hplan, Filling.run_bind, (Turn.Fails.source hcheck he).run]
  refine ⟨?_, h.loads, ?_, nearestLoader?_eq_none, ?_⟩
  · have howner := congrArg (fun classes => classes[rank]?) htake
    simpa [← hrank] using howner
  · intro g hg
    rw [htake, nearestLoader?_concat, hg, hrank]
    simp
  · cases hd : lastLoaded? b.property docs with
    | none =>
      rw [← hlast, hd]
      exact hfails _ (by simp [Turn.source, hd])
    | some d =>
      rw [hd] at hlast
      rw [← hlast]
      change if d.rank ≠ rank ∧ d.field.visibility = .ownClass then _ else _
      split
      · rename_i hown
        exact hfails _ (by simp [Turn.source, hd, hown])
      · rename_i hshared
        have hsource : Turn.source ⟨rank, owner, f, .take b⟩ b docs = .ok d := by
          rw [Turn.source, hd]
          exact if_neg hshared
        have hvisible : d.rank = rank ∨ d.field.visibility ≠ .ownClass := by
          simpa only [not_and_or, not_not] using hshared
        refine ⟨nearestVisible?_of_nearest hlast.symm hvisible, d, rfl, rfl, ?_⟩
        rw [h.run_bind hplan, Turn.fill]
        simp only [hcheck, hsource, Binder.lift, pure_bind, bind_assoc]

/-- Of two classes that load a window, a third one takes from the nearer. -/
theorem nearest_load_taken_of_two :
    let library := Library.empty.addText "demo/ui/window.wtkx"
      "<HashMap xmlns='wtkx.collections' xmlns:wtkx='urn:wtkx' wtkx:id='ok'/>"
    let r := Reader.ofLibrary library
    let window : FieldBinding := { name := "window", load := some ⟨"window.wtkx", none, none⟩ }
    let ok : FieldBinding := { name := "ok", bind := some ⟨"window", none⟩ }
    let base : BindingClass := ⟨"demo.ui.Base", [window]⟩
    let main : BindingClass := ⟨"demo.ui.Main", [{ window with visibility := .everyone }]⟩
    let fancy : BindingClass := ⟨"demo.ui.Fancy", [ok]⟩
    let host : Host := ⟨[base, main, fancy], fun _ _ _ _ => .ok ()⟩
    let done := base.turns 0 ++ main.turns 1
    ∃ docs p, host.Filled r .initial done docs p ∧
      host.plan = done ++ [⟨2, fancy, ok, .take ⟨"window", none⟩⟩] ∧ ok.writable = true ∧
      ∃ d, lastLoaded? "window" docs = some d ∧ d.origin = (1, { window with visibility := .everyone }) ∧
        (Binder.bind r host).run ⟨.initial, []⟩ = (do
          let value ← Binder.lift (Binder.takenValue ok ⟨"window", none⟩ d.retained)
          Binder.assign host "demo.ui.Fancy" "ok" value
          let _ ← fillAll r host docs []
          return ()).run p := by
  intro library r window ok base main fancy host done
  have hok : ((fillAll r host [] done).run ⟨.initial, []⟩).1.isOk = true := by decide +kernel
  rcases hrun : (fillAll r host [] done).run ⟨.initial, []⟩ with ⟨e | docs, p⟩
  · rw [hrun] at hok
    cases hok
  · have hfilled : host.Filled r .initial done docs p := .of_run hrun
    have hplan : host.plan = done ++ [⟨2, fancy, ok, .take ⟨"window", none⟩⟩] := rfl
    obtain ⟨-, -, -, -, -, htaken⟩ := nearest_load_taken hfilled hplan rfl
    exact ⟨docs, p, hfilled, hplan, rfl, htaken⟩

/-- A class that loads a window for itself hides from a third one the window that the first class
shares. Without it between them the third class gets the object. -/
theorem private_load_hides_shared :
    let library := Library.empty.addText "demo/ui/window.wtkx"
      "<HashMap xmlns='wtkx.collections' xmlns:wtkx='urn:wtkx' wtkx:id='ok'/>"
    let r := Reader.ofLibrary library
    let window : FieldBinding := { name := "window", load := some ⟨"window.wtkx", none, none⟩ }
    let ok : FieldBinding := { name := "ok", bind := some ⟨"window", none⟩ }
    let base : BindingClass := ⟨"demo.ui.Base", [window]⟩
    let main : BindingClass := ⟨"demo.ui.Main", [{ window with visibility := .ownClass }]⟩
    let fancy : BindingClass := ⟨"demo.ui.Fancy", [ok]⟩
    let result := fun classes =>
      ((Binder.bind r ⟨classes, fun _ _ _ _ => .ok ()⟩).run ⟨.initial, []⟩).1
    nearestVisible? "window" 2 [base, main, fancy] = some (0, window) ∧
      result [base, main, fancy] =
        .error (.inaccessibleProperty "demo.ui.Fancy" "ok" "window") ∧
      result [base, fancy] = .ok () := by
  decide +kernel

end ObjectMarkup
