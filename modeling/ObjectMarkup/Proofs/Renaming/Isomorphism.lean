import ObjectMarkup.Proofs.Renaming.Reader

namespace ObjectMarkup

/-- The objects that are reached from given ones through properties, items and listeners. -/
inductive Heap.Reaches (h : Heap) (start : ObjectId → Prop) : ObjectId → Prop
  | start {o : ObjectId} (ho : start o) : Reaches h start o
  | step {o p : ObjectId} (ho : Reaches h start o) (hp : p ∈ (h.object o).refs) :
      Reaches h start p

/-- What a reader holds is in both heaps, and is the same in both. -/
def Reader.SharedIn (r : Reader) (h h' : Heap) : Prop :=
  ∀ o, h.Reaches r.Holds o →
    o.index < h.size ∧ o.index < h'.size ∧ h'.object o = h.object o

/-- A reader that holds no objects can be used in any two heaps. -/
theorem Reader.sharedIn_of_empty {r : Reader} (hr : ∀ o, ¬r.Holds o) (h h' : Heap) :
    r.SharedIn h h' := by
  intro o ho
  have hnone : False := by
    induction ho with
    | start ho => exact hr _ ho
    | step ho hp ih => exact ih
  exact hnone.elim

namespace Document

def Has (d : Document) (h : Heap) : ObjectId → Prop :=
  h.Reaches fun o => o ∈ d.root.refs ∨ o ∈ d.names.refs

/-- A one-to-one renaming of the objects of one document to those of another that turns the root,
the named objects at every depth and the state of every object into those of the other. -/
structure Isomorphism (f : ObjectId → ObjectId) (d : Document) (h : Heap) (d' : Document)
    (h' : Heap) : Prop where
  injective : ∀ o p, d.Has h o → d.Has h p → f o = f p → o = p
  onto : ∀ o', d'.Has h' o' → ∃ o, d.Has h o ∧ f o = o'
  root : d'.root = d.root.mapRefs f
  names : d'.names = d.names.mapRefs f
  location : d'.location = d.location
  objects : ∀ o, d.Has h o → h'.object (f o) = (h.object o).mapRefs f
  present : ∀ o, d.Has h o → (o.index < h.size ↔ (f o).index < h'.size)

end Document

namespace Correspondence

variable {c : Correspondence} {r : Reader} {s t : Session}

/-- The correspondence of two sessions that share what a reader holds. -/
def ofShared (r : Reader) (s t : Session) (h : r.SharedIn s.heap t.heap) : Correspondence where
  left := s
  right := t
  shared := s.heap.Reaches r.Holds
  bounded := fun o ho => ⟨(h o ho).1, (h o ho).2.1⟩
  same := fun o ho => (h o ho).2.2
  closed := by
    intro o ho p hp
    have hshared : s.heap.Reaches r.Holds p := .step ho hp
    exact ⟨.inl hshared, if_pos (h p hshared).1⟩

theorem Documents.known {d d' : Document} {h h' : Heap} (hd : c.Documents d d')
    (hh : c.Heaps h h') {o : ObjectId} (ho : d.Has h o) : c.Known o := by
  induction ho with
  | start ho =>
    rcases ho with ho | ho
    · exact .inr (hd.root _ ho)
    · exact hd.names.1 _ ho
  | step ho hp ih => exact hh.refs_known ih _ hp

theorem Documents.isomorphism {d d' : Document} {h h' : Heap} (hd : c.Documents d d')
    (hh : c.Heaps h h') : d.Isomorphism c.rename h d' h' where
  injective := fun o p ho hp => rename_inj (hd.known hh ho) (hd.known hh hp)
  onto := by
    intro o' ho'
    induction ho' with
    | @start o' ho' =>
      rw [hd.root', hd.names.2, Value.refs_mapRefs, Registry.refs_mapRefs] at ho'
      rcases ho' with ho' | ho'
      · obtain ⟨o, ho, rfl⟩ := List.mem_map.mp ho'
        exact ⟨o, .start (.inl ho), rfl⟩
      · obtain ⟨o, ho, rfl⟩ := List.mem_map.mp ho'
        exact ⟨o, .start (.inr ho), rfl⟩
    | step ho' hp' ih =>
      obtain ⟨o, ho, rfl⟩ := ih
      rw [hh.object_eq (hd.known hh ho), Object.refs_mapRefs] at hp'
      obtain ⟨p, hp, rfl⟩ := List.mem_map.mp hp'
      exact ⟨p, .step ho hp, rfl⟩
  root := hd.root'
  names := hd.names.2
  location := hd.location
  objects := fun o ho => hh.object_eq (hd.known hh ho)
  present := fun o ho => hh.index_lt_iff (hd.known hh ho)

end Correspondence

/-- A read inside other documents succeeds only if the read by itself does, with an isomorphic
document. An error that is not for the documents around is one of the read by itself too. -/
theorem Reader.readNested_read (r : Reader) (room : Nat) (l : String) {s t : Session}
    (hidle : t.guard = .idle) (hshared : r.SharedIn s.heap t.heap) :
    (∀ d s', (r.readNested room l).perform s = (.ok d, s') →
      ∃ f d' t', (r.read l).perform t = (.ok d', t') ∧ d.Isomorphism f s'.heap d' t'.heap) ∧
    (∀ e s', (r.readNested room l).perform s = (.error e, s') →
      (∃ n, e = .nesting n) ∨ ∃ t', (r.read l).perform t = (.error e, t')) := by
  let c := Correspondence.ofShared r s t hshared
  have hfollows : Reading.Follows (c.Sessions s.guard t.guard) (fun e => ∃ n, e = .nesting n)
      c.Documents (r.readNested room l) (r.readNested (Guard.maxDepth + 1) l) :=
    Correspondence.follows_readNested ?_ ?_ r l fun o ho => .start ho
  · have hst := Correspondence.Sessions.start (.ofShared r s t hshared)
    constructor
    · intro d s' hread
      obtain ⟨d', t', halone, hd, hsessions⟩ := hfollows.ok_of_ok hst hread
      exact ⟨_, d', t', halone, hd.isomorphism hsessions.heaps⟩
    · intro e s' hread
      rcases hfollows.error_of_error hst hread with he | ⟨t', halone, -⟩
      · exact .inl he
      · exact .inr ⟨t', halone⟩
  · intro path e he
    obtain ⟨n, rfl⟩ := he
    exact ⟨n, rfl⟩
  · refine .inr ⟨fun e => ⟨e, rfl⟩, ?_, ?_, ?_⟩
    · simp [hidle, Guard.idle]
    · simp [hidle, Guard.idle]
    · simp [hidle, Guard.idle]

end ObjectMarkup
