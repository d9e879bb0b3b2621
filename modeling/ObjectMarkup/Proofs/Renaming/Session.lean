import ObjectMarkup.Proofs.Renaming.Heap

namespace ObjectMarkup

namespace Correspondence

/-- What two sessions keep to: their heaps grow in step, what they added to the log is the same up
to renaming, and each is inside the documents it is said to be in. -/
structure Sessions (c : Correspondence) (g g' : Guard) (s t : Session) : Prop where
  heaps : c.Heaps s.heap t.heap
  attached : ∃ new, s.attached = c.left.attached ++ new ∧
    t.attached = c.right.attached ++ new.map (AttachedValue.mapRefs c.rename)
  guard : s.guard = g
  guard' : t.guard = g'

def Twins (c : Correspondence) (o o' : ObjectId) : Prop := c.Own o ∧ o' = c.rename o

def Values (c : Correspondence) (v v' : Value) : Prop :=
  (∀ o ∈ v.refs, c.Known o) ∧ v' = v.mapRefs c.rename

variable {c : Correspondence} {g g' : Guard} {excused : ReadError → Prop} {h h' : Heap}
  {o : ObjectId} {v : Value} {α β : Type} {A : α → β → Prop}

theorem Sessions.start (c : Correspondence) :
    c.Sessions c.left.guard c.right.guard c.left c.right where
  heaps := .start c
  attached := ⟨[], by simp⟩
  guard := rfl
  guard' := rfl

/-- When the sessions start out equal but for the open documents, they stay so. -/
theorem Sessions.eq_of_start {s t : Session} (h : c.Sessions g g' s t)
    (hheap : c.right.heap = c.left.heap) (hattached : c.right.attached = c.left.attached) :
    t = { s with guard := g' } := by
  have hrename := rename_eq_self hheap
  obtain ⟨new, hleft, hright⟩ := h.attached
  have hnew : new.map (AttachedValue.mapRefs c.rename) = new := by
    rw [List.map_congr_left (g := id), List.map_id]
    intro a _
    simp [AttachedValue.mapRefs, hrename, Value.mapRefs_eq_self fun o _ => hrename o]
  have hlogs : t.attached = s.attached := by rw [hright, hleft, hnew, hattached]
  have hheaps := h.heaps.eq_of_start hheap
  have hguard := h.guard'
  obtain ⟨heap, attached, guard⟩ := t
  cases hheaps
  cases hlogs
  cases hguard
  rfl

open Reading (Follows)

theorem follows_heap : Follows (c.Sessions g g') excused c.Heaps .heap .heap :=
  fun _ _ hst => .ok hst.heaps hst

theorem follows_setHeap (hh : c.Heaps h h') :
    Follows (c.Sessions g g') excused (fun _ _ => True) (.setHeap h) (.setHeap h') :=
  fun _ _ hst => .ok trivial { hst with heaps := hh }

theorem follows_build (b : Blueprint) :
    Follows (c.Sessions g g') excused c.Twins (.build b) (.build b) := by
  refine .bind follows_heap fun h h' hh => ?_
  obtain ⟨hbuilt, hown, hrename⟩ := hh.build b
  exact .bind (follows_setHeap hbuilt) fun _ _ _ => .pure ⟨hown, hrename.symm⟩

theorem follows_put {name : String} (ho : c.Own o) (hv : ∀ p ∈ v.refs, c.Known p) :
    Follows (c.Sessions g g') excused (fun _ _ => True) (.put o name v)
      (.put (c.rename o) name (v.mapRefs c.rename)) :=
  .bind follows_heap fun _ _ hh => .bind (.lift (hh.put ho hv)) fun _ _ hput =>
    follows_setHeap hput

/-- Two documents are read in step inside the open ones if they are when both may be opened. -/
theorem follows_within {location : Option String} {x : Reading α} {y : Reading β}
    (hrefused : ∀ e, g.enter location = .error e →
      excused (.nesting e) ∨ g'.enter location = .error e)
    (hentered : ∀ inner, g.enter location = .ok inner →
      ∃ inner', g'.enter location = .ok inner' ∧
        Follows (c.Sessions inner inner') excused A x y) :
    Follows (c.Sessions g g') excused A (.within location x) (.within location y) := by
  intro s t hst
  rw [Reading.perform_within, Reading.perform_within, hst.guard, hst.guard']
  cases henter : g.enter location with
  | error e =>
    rcases hrefused e henter with he | he
    · exact .excused he
    · rw [he]
      exact .error _ hst
  | ok inner =>
    obtain ⟨inner', henter', hxy⟩ := hentered inner henter
    rw [henter']
    have hinside := hxy { s with guard := inner } { t with guard := inner' }
      ⟨hst.heaps, hst.attached, rfl, rfl⟩
    have hleave : ∀ u u', c.Sessions inner inner' u u' →
        c.Sessions g g' { u with guard := u.guard.leave location }
          { u' with guard := u'.guard.leave location } := by
      intro u u' hu
      refine ⟨hu.heaps, hu.attached, ?_, ?_⟩
      · exact hu.guard ▸ Guard.leave_of_enter henter
      · exact hu.guard' ▸ Guard.leave_of_enter henter'
    dsimp only
    revert hinside
    generalize x.perform { s with guard := inner } = rx
    generalize y.perform { t with guard := inner' } = ry
    intro hinside
    cases hinside with
    | ok related sessions => exact .ok related (hleave _ _ sessions)
    | error e sessions => exact .error e (hleave _ _ sessions)
    | excused he => exact .excused he

end Correspondence

end ObjectMarkup
