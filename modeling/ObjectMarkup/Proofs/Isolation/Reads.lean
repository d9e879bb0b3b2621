import ObjectMarkup.Proofs.Document.Splice
import ObjectMarkup.Proofs.Isolation.Bounds
import ObjectMarkup.Proofs.Renaming.Isomorphism

namespace ObjectMarkup

open Markup

/-- Where a document is read from. -/
inductive DocumentSource where
  | location (l : String)
  | bytes (content : Bytes) (location : Option String)
  | text (source : String)

namespace Reader

def readFrom (r : Reader) : DocumentSource → Reading Document
  | .location l => r.read l
  | .bytes content location => r.readBytes content location
  | .text source => r.readText source

/-- The session after documents have been read one after another, each with success or not. -/
def readAll (r : Reader) (s : Session) (sources : List DocumentSource) : Session :=
  sources.foldl (fun s q => ((r.readFrom q).perform s).2) s

theorem readAll_append (r : Reader) (s : Session) (front back : List DocumentSource) :
    r.readAll s (front ++ back) = r.readAll (r.readAll s front) back :=
  List.foldl_append ..

end Reader

namespace Correspondence

open Reading (Follows)

variable {c : Correspondence} {g : Guard} {excused : ReadError → Prop} {r : Reader}

/-- Reads of one document from two sessions inside the same open documents go on in step. -/
theorem follows_readFrom (hthrough : ∀ path e, excused e → excused (ReadError.through path e))
    (held : ∀ o, r.Holds o → c.shared o) (q : DocumentSource) :
    Follows (c.Sessions g g) excused c.Documents (r.readFrom q) (r.readFrom q) := by
  have hnested : ∀ inner (reader : Reader) l, (∀ o, reader.Holds o → c.shared o) →
      Follows (c.Sessions inner inner) excused c.Documents
        (reader.readNested (Guard.maxDepth + 1) l) (reader.readNested (Guard.maxDepth + 1) l) :=
    fun inner reader l => follows_readNested hthrough (.inl ⟨rfl, rfl⟩) reader l
  cases q with
  | location l => exact hnested g r l held
  | bytes content location =>
    exact follows_within (fun _ he => .inr he) fun inner he =>
      ⟨inner, he, follows_parseBytes (hnested inner) hthrough held content location⟩
  | text source =>
    exact follows_within (fun _ he => .inr he) fun inner he =>
      ⟨inner, he, follows_parse (hnested inner) hthrough held source.toList none⟩

/-- A step that goes on in step with itself, where all objects are shared, leaves these as they are
and the open documents too. -/
theorem kept_of_follows {α : Type} {A : α → α → Prop} {s : Session} {x : Reading α}
    (h : Follows ((ofGuard s s.guard).Sessions s.guard s.guard) (fun _ => False) A x x) :
    (x.perform s).2.guard = s.guard ∧
      ∀ o, o.index < s.heap.size → (x.perform s).2.heap.object o = s.heap.object o := by
  have hx := h s s (.start (ofGuard s s.guard))
  generalize x.perform s = p at hx
  cases hx with
  | ok related sessions => exact ⟨sessions.guard, sessions.heaps.kept⟩
  | error e sessions => exact ⟨sessions.guard, sessions.heaps.kept⟩
  | excused he => exact he.elim

end Correspondence

/-- What one session and a later one agree on: the objects that were there are as they were, and
the objects, which have become no fewer, refer to one another only. -/
structure Session.Extends (s t : Session) : Prop where
  grown : s.heap.size ≤ t.heap.size
  closed : t.heap.Closed
  guard : t.guard = s.guard
  kept : ∀ o, o.index < s.heap.size → t.heap.object o = s.heap.object o

namespace Session.Extends

variable {s t u : Session} {r : Reader} {d : Document}

theorem refl (hs : s.heap.Closed) : s.Extends s := ⟨Nat.le_refl _, hs, rfl, fun _ _ => rfl⟩

theorem trans (h : s.Extends t) (h' : t.Extends u) : s.Extends u where
  grown := Nat.le_trans h.grown h'.grown
  closed := h'.closed
  guard := h'.guard.trans h.guard
  kept := fun o ho => (h'.kept o (Nat.lt_of_lt_of_le ho h.grown)).trans (h.kept o ho)

theorem held (h : s.Extends t) (held : ∀ o, r.Holds o → o.index < s.heap.size) :
    ∀ o, r.Holds o → o.index < t.heap.size :=
  fun o ho => Nat.lt_of_lt_of_le (held o ho) h.grown

theorem sharedIn (h : s.Extends t) (hshared : r.SharedIn s.heap u.heap) :
    r.SharedIn t.heap u.heap := by
  have hback : ∀ o, t.heap.Reaches r.Holds o → s.heap.Reaches r.Holds o := by
    intro o ho
    induction ho with
    | start ho => exact .start ho
    | step _ hp ih =>
      rw [h.kept _ (hshared _ ih).1] at hp
      exact .step ih hp
  intro o ho
  obtain ⟨hs, hu, hsame⟩ := hshared o (hback o ho)
  exact ⟨Nat.lt_of_lt_of_le hs h.grown, hu, by rw [h.kept o hs, hsame]⟩

end Session.Extends

theorem Document.Within.has {d : Document} {h : Heap} (hd : d.Within h.size) (hh : h.Closed)
    {o : ObjectId} (ho : d.Has h o) : o.index < h.size := by
  cases ho with
  | start ho => exact ho.elim (hd.root o) (hd.names o)
  | step _ hp => exact hh _ o hp

namespace Reader

variable {r : Reader} {s t : Session}

theorem grows_readFrom (hs : s.heap.Closed) (held : ∀ o, r.Holds o → o.index < s.heap.size)
    (q : DocumentSource) :
    Reading.Grows s (fun n d => Document.Within d n) (r.readFrom q) := by
  have hnested := bounded_readNested (Guard.maxDepth + 1)
  cases q with
  | location l => exact hnested r l s hs held
  | bytes content location =>
    exact .within hs fun guard =>
      Builder.grows_parseBytes (s := { s with guard }) hnested hs held content location
  | text source =>
    exact .within hs fun guard =>
      Builder.grows_parse (s := { s with guard }) hnested hs held source.toList none

/-- A read changes no object that was there before it. -/
theorem extends_readFrom (hs : s.heap.Closed) (held : ∀ o, r.Holds o → o.index < s.heap.size)
    (q : DocumentSource) : s.Extends ((r.readFrom q).perform s).2 := by
  have hgrows := grows_readFrom hs held q
  obtain ⟨hguard, hkept⟩ := Correspondence.kept_of_follows (s := s)
    (Correspondence.follows_readFrom (fun _ _ h => h) held q)
  exact ⟨hgrows.grown, hgrows.closed, hguard, hkept⟩

theorem extends_readNested (hs : s.heap.Closed) (held : ∀ o, r.Holds o → o.index < s.heap.size)
    (room : Nat) (l : String) : s.Extends ((r.readNested room l).perform s).2 := by
  have hgrows := bounded_readNested room r l s hs held
  obtain ⟨hguard, hkept⟩ := Correspondence.kept_of_follows (s := s)
    (Correspondence.follows_readNested (fun _ _ h => h) (.inl ⟨rfl, rfl⟩) r l held)
  exact ⟨hgrows.grown, hgrows.closed, hguard, hkept⟩

theorem extends_readAll (hs : s.heap.Closed) (held : ∀ o, r.Holds o → o.index < s.heap.size)
    (sources : List DocumentSource) : s.Extends (r.readAll s sources) := by
  induction sources generalizing s with
  | nil => exact .refl hs
  | cons q rest ih =>
    have hq := extends_readFrom hs held q
    exact hq.trans (ih hq.closed (hq.held held))

end Reader

/-- At every moment of reading a document the objects from before are as they were, and what the
builder refers to is there. -/
theorem Builder.Reached.extends {room : Nat} {r : Reader} {source : List Char}
    {location : Option String} {s t : Session} {taken : List Delivery} {b : Builder}
    {ahead : List Signal}
    (h : Reached (Reader.readNested room) r source location s taken b t ahead)
    (hs : s.heap.Closed) (held : ∀ o, r.Holds o → o.index < s.heap.size) :
    s.Extends t ∧ b.Within t.heap.size := by
  let c := Correspondence.ofGuard s s.guard
  have hstep : c.Builders b b ∧ c.Sessions s.guard s.guard t t ∧ s.heap.size ≤ t.heap.size ∧
      t.heap.Closed ∧ b.Within t.heap.size := by
    induction h with
    | start =>
      exact ⟨.start held _, .start c, Nat.le_refl _, hs, held, by rintro _ ⟨⟩, by rintro _ ⟨⟩,
        by rintro _ ⟨⟩⟩
    | @event taken b b' u u' e ahead before step ih =>
      obtain ⟨hb, hsessions, hsize, hclosed, hwithin⟩ := ih
      have hfollows : Reading.Follows (c.Sessions s.guard s.guard) (fun _ => False) c.Builders
          (b.step (Reader.readNested room) e) (b.step (Reader.readNested room) e) :=
        Correspondence.follows_step
          (Correspondence.follows_readNested (fun _ _ h => h) (.inl ⟨rfl, rfl⟩))
          (fun _ _ h => h) hb e
      obtain ⟨_, _, hstep, hb', hsessions'⟩ := hfollows.ok_of_ok hsessions step
      have hgrows := Builder.grows_step (Reader.bounded_readNested room) hclosed hwithin e
      rw [step] at hstep
      cases hstep
      obtain ⟨hgrown, hclosed', hresult⟩ := hgrows
      rw [step] at hgrown hclosed' hresult
      exact ⟨hb', hsessions', Nat.le_trans hsize hgrown, hclosed', hresult b' rfl⟩
    | checkpoint before unfinished ih => exact ih
  obtain ⟨-, hsessions, hsize, hclosed, hwithin⟩ := hstep
  exact ⟨⟨hsize, hclosed, hsessions.guard, hsessions.heaps.kept⟩, hwithin⟩

/-- A read among others gives what it gives by itself. -/
theorem Reader.readFrom_alone {r : Reader} {s fresh : Session} (hguard : fresh.guard = s.guard)
    (hshared : r.SharedIn s.heap fresh.heap) (q : DocumentSource) :
    (∀ d t, (r.readFrom q).perform s = (.ok d, t) →
      ∃ f alone t' new, (r.readFrom q).perform fresh = (.ok alone, t') ∧
        d.Isomorphism f t.heap alone t'.heap ∧ t.attached = s.attached ++ new ∧
        t'.attached = fresh.attached ++ new.map (AttachedValue.mapRefs f)) ∧
    (∀ e t, (r.readFrom q).perform s = (.error e, t) →
      ∃ f t' new, (r.readFrom q).perform fresh = (.error e, t') ∧
        t.attached = s.attached ++ new ∧
        t'.attached = fresh.attached ++ new.map (AttachedValue.mapRefs f)) := by
  let c := Correspondence.ofShared r s fresh hshared
  have hfollows : Reading.Follows (c.Sessions s.guard s.guard) (fun _ => False) c.Documents
      (r.readFrom q) (r.readFrom q) :=
    Correspondence.follows_readFrom (fun _ _ h => h) (fun _ ho => Heap.Reaches.start ho) q
  have hstart : c.Sessions s.guard s.guard s fresh := hguard ▸ Correspondence.Sessions.start c
  constructor
  · intro d t hread
    obtain ⟨alone, t', halone, hd, hsessions⟩ := hfollows.ok_of_ok hstart hread
    obtain ⟨new, hleft, hright⟩ := hsessions.attached
    exact ⟨c.rename, alone, t', new, halone, hd.isomorphism hsessions.heaps, hleft, hright⟩
  · intro e t hread
    obtain ⟨t', halone, hsessions⟩ := (hfollows.error_of_error hstart hread).resolve_left id
    obtain ⟨new, hleft, hright⟩ := hsessions.attached
    exact ⟨c.rename, t', new, halone, hleft, hright⟩

/-- Reads are isolated. No read and no read inside other documents, successful or not, changes an
object that was there before it, neither as a whole nor up to any moment of it, and when a document
is about to be included, the same is true of the objects of the document around it. So each of a
row of reads gives what it gives by itself: an isomorphic document, or the same error, with the same
attached properties set; and no object of its document is changed by the reads after it. -/
theorem reads_isolated (r : Reader) (s : Session) (closed : s.heap.Closed)
    (held : ∀ o, r.Holds o → o.index < s.heap.size) :
    (∀ q o, o.index < s.heap.size →
      ((r.readFrom q).perform s).2.heap.object o = s.heap.object o) ∧
    (∀ room l o, o.index < s.heap.size →
      ((r.readNested room l).perform s).2.heap.object o = s.heap.object o) ∧
    (∀ room source location taken b t ahead,
      Builder.Reached (Reader.readNested room) r source location s taken b t ahead →
      (∀ o, o.index < s.heap.size → t.heap.object o = s.heap.object o) ∧
      ∀ reader path, (reader = b.reader ∨ ∃ baseName bundle,
          b.reader.loadBundle baseName none = .ok bundle ∧
          reader = b.reader.withResources (some bundle)) →
        ∀ o, o.index < t.heap.size →
          ((reader.readNested room path).perform t).2.heap.object o = t.heap.object o) ∧
    (∀ before q fresh, fresh.guard = s.guard → r.SharedIn s.heap fresh.heap →
      (∀ d t, (r.readFrom q).perform (r.readAll s before) = (.ok d, t) →
        ∃ f alone t' new, (r.readFrom q).perform fresh = (.ok alone, t') ∧
          d.Isomorphism f t.heap alone t'.heap ∧
          t.attached = (r.readAll s before).attached ++ new ∧
          t'.attached = fresh.attached ++ new.map (AttachedValue.mapRefs f)) ∧
      (∀ e t, (r.readFrom q).perform (r.readAll s before) = (.error e, t) →
        ∃ f t' new, (r.readFrom q).perform fresh = (.error e, t') ∧
          t.attached = (r.readAll s before).attached ++ new ∧
          t'.attached = fresh.attached ++ new.map (AttachedValue.mapRefs f))) ∧
    (∀ before q after d t, (r.readFrom q).perform (r.readAll s before) = (.ok d, t) →
      ∀ o, d.Has t.heap o → o.index < t.heap.size ∧
        (r.readAll s (before ++ q :: after)).heap.object o = t.heap.object o) := by
  refine ⟨?_, ?_, ?_, ?_, ?_⟩
  · exact fun q => (Reader.extends_readFrom closed held q).kept
  · exact fun room l => (Reader.extends_readNested closed held room l).kept
  · intro room source location taken b t ahead hreached
    obtain ⟨hextends, hwithin⟩ := hreached.extends closed held
    refine ⟨hextends.kept, ?_⟩
    intro reader path hreader
    have hheld : ∀ o, reader.Holds o → o.index < t.heap.size := by
      rcases hreader with rfl | ⟨baseName, bundle, hload, rfl⟩
      · exact hwithin.held
      · exact fun o ho => hwithin.held o (Reader.holds_withResources hload ho)
    exact (Reader.extends_readNested hextends.closed hheld room path).kept
  · intro before q fresh hguard hshared
    have hbefore := Reader.extends_readAll closed held before
    exact Reader.readFrom_alone (hguard.trans hbefore.guard.symm) (hbefore.sharedIn hshared) q
  · intro before q after d t hread o ho
    have hbefore := Reader.extends_readAll closed held before
    have hheld := hbefore.held held
    have hq := Reader.extends_readFrom hbefore.closed hheld q
    have hdocument := (Reader.grows_readFrom hbefore.closed hheld q).result d
    rw [hread] at hq hdocument
    have hpresent := (hdocument rfl).has hq.closed ho
    have hafter := Reader.extends_readAll hq.closed (hq.held hheld) after
    have hall : r.readAll s (before ++ q :: after) = r.readAll t after := by
      rw [Reader.readAll_append]
      change r.readAll ((r.readFrom q).perform (r.readAll s before)).2 after = _
      rw [hread]
    rw [hall]
    exact ⟨hpresent, hafter.kept o hpresent⟩

/-- A list that is read before a map and one after it. -/
theorem reads_isolated_of_list :
    let list : DocumentSource := .text "<ArrayList xmlns='wtkx.collections'>a</ArrayList>"
    let map : DocumentSource := .text "<HashMap xmlns='wtkx.collections' k='v'/>"
    ∃ d t alone t' f, (Reader.plain.readFrom map).perform (Reader.plain.readAll .initial [list]) =
        (.ok d, t) ∧
      (Reader.plain.readFrom map).perform .initial = (.ok alone, t') ∧
      d.Isomorphism f t.heap alone t'.heap ∧ d.root = .object ⟨1⟩ ∧ alone.root = .object ⟨0⟩ ∧
      ∀ o, d.Has t.heap o →
        (Reader.plain.readAll .initial [list, map, list]).heap.object o = t.heap.object o := by
  intro list map
  have hheld : ∀ o, ¬Reader.plain.Holds o := by
    intro o ho
    cases ho with
    | resource found value ho => cases found
    | bundle known loaded value ho => cases known
    | script known compiled ho => cases known
  obtain ⟨-, -, -, halone, hlater⟩ := reads_isolated .plain .initial Heap.Closed.empty
    fun o ho => (hheld o ho).elim
  have hroots : ((Reader.plain.readFrom map).perform
      (Reader.plain.readAll .initial [list])).1.toOption.map Document.root =
        some (.object ⟨1⟩) ∧
      ((Reader.plain.readFrom map).perform .initial).1.toOption.map Document.root =
        some (.object ⟨0⟩) := by
    decide +kernel
  rcases hread : (Reader.plain.readFrom map).perform (Reader.plain.readAll .initial [list]) with
    ⟨e | d, t⟩
  · rw [hread] at hroots
    cases hroots.1
  · obtain ⟨f, alone, t', new, hfresh, hiso, -, -⟩ := (halone [list] map .initial rfl
      (Reader.sharedIn_of_empty hheld _ _)).1 d t hread
    rw [hread, hfresh] at hroots
    exact ⟨d, t, alone, t', f, rfl, hfresh, hiso, Option.some.inj hroots.1,
      Option.some.inj hroots.2, fun o ho => (hlater [list] map [list] d t hread o ho).2⟩

end ObjectMarkup
