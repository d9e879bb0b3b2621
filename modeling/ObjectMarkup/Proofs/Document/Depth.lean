import ObjectMarkup.Proofs.Document.Run
import ObjectMarkup.Proofs.Document.Stepwise

namespace ObjectMarkup

open Markup

open Reading (Follows Same)

theorem Guard.enter_ok {g inner : Guard} {location : Option String}
    (h : g.enter location = .ok inner) :
    g.depth < maxDepth ∧ (∀ l, location = some l → l ∉ g.active) ∧
      inner = ⟨g.active ++ location.toList, g.depth + 1⟩ := by
  unfold enter at h
  split at h
  · cases h
  · rename_i hdepth
    cases location with
    | none =>
      cases h
      exact ⟨by omega, nofun, by simp⟩
    | some l =>
      dsimp only at h
      split at h
      · cases h
      · rename_i hnew
        cases h
        exact ⟨by omega, fun _ hl => Option.some.inj hl ▸ hnew, rfl⟩

theorem Guard.enter_error {g : Guard} {location : Option String} {e : NestingError}
    (h : g.enter location = .error e) :
    (maxDepth ≤ g.depth ∧ e = .tooDeep maxDepth) ∨
      ∃ l, location = some l ∧ l ∈ g.active ∧ e = .cyclic (g.active ++ [l]) := by
  unfold enter at h
  split at h
  · rename_i hdepth
    cases h
    exact .inl ⟨hdepth, rfl⟩
  · cases location with
    | none => cases h
    | some l =>
      dsimp only at h
      split at h
      · rename_i hactive
        cases h
        exact .inr ⟨l, rfl, hactive, rfl⟩
      · cases h

variable {K : Guard → Prop} {g : Guard} {α : Type} {A : α → α → Prop}

theorem Reading.Follows.perform_eq {x y : Reading α} {s : Session}
    (h : Follows (Same K) (fun _ => False) (· = ·) x y) (hs : K s.guard) :
    y.perform s = x.perform s ∧ K (x.perform s).2.guard := by
  have hxy := h s s ⟨rfl, hs⟩
  revert hxy
  generalize x.perform s = rx
  generalize y.perform s = ry
  intro hxy
  cases hxy with
  | ok related sessions => exact ⟨by rw [related, sessions.1], sessions.2⟩
  | error e sessions => exact ⟨by rw [sessions.1], sessions.2⟩
  | excused he => exact he.elim

theorem follows_within {location : Option String} {x y : Reading α}
    (h : ∀ inner, g.enter location = .ok inner →
      Follows (Same (· = inner)) (fun _ => False) (· = ·) x y) :
    Follows (Same (· = g)) (fun _ => False) (· = ·) (.within location x) (.within location y) := by
  rintro s _ ⟨rfl, rfl⟩
  rw [Reading.perform_within, Reading.perform_within]
  cases henter : s.guard.enter location with
  | error e => exact .error _ ⟨rfl, rfl⟩
  | ok inner =>
    obtain ⟨heq, hkept⟩ := (h inner henter).perform_eq (s := { s with guard := inner }) rfl
    dsimp only
    rw [heq]
    revert hkept
    generalize x.perform { s with guard := inner } = result
    obtain ⟨e | a, t⟩ := result
    · rintro rfl
      exact .error e ⟨rfl, Guard.leave_of_enter henter⟩
    · rintro rfl
      exact .ok rfl ⟨rfl, Guard.leave_of_enter henter⟩

section

variable {nested nested' : Reader → String → Reading Document} {r r' : Reader}
  {source : List Char} {location : Option String} (ha : r.Alike r')
  (hread : ∀ e ∈ documentEvents (Text.dropMark source), ∀ i, e.inclusion? = some i →
    Follows (Same K) (fun _ => False) (· = ·) (r.readIncluded nested location i)
      (r'.readIncluded nested' location i))

include ha hread

theorem matches_deliver {s t : Session} {taken : List Delivery} {b b' : Builder}
    {ahead : List Signal} (h : b.Reached nested r source location s taken t ahead)
    (hb : Builder.Paired r r' b b') (ht : K t.guard) :
    Reading.Matches (Same K) (fun _ => False) (Builder.Paired r r')
      ((deliver (fun b e => Builder.step nested b e) Builder.finished
        (fun _ f => .fail (.markup f)) ahead b : Reading Builder).perform t)
      ((deliver (fun b e => Builder.step nested' b e) Builder.finished
        (fun _ f => .fail (.markup f)) ahead b' : Reading Builder).perform t) := by
  induction ahead generalizing taken b b' t with
  | nil => exact .ok hb ⟨rfl, ht⟩
  | cons signal rest ih =>
    cases signal with
    | event e =>
      have hstep : Follows (Same K) (fun _ => False) (Builder.Paired r r') (b.step nested e)
          (b'.step nested' e) :=
        (Reading.stepwise_follows K).step ha hb
          (fun i hi => h.location_eq ▸ hread e h.mem_documentEvents i hi) fun _ _ _ _ _ => .fail _
      refine (hstep t t ⟨rfl, ht⟩).bind fun c c' u _ hc hpaired hu => ?_
      obtain ⟨rfl, hk⟩ := hu
      exact ih (h.event hc) hpaired hk
    | checkpoint =>
      have hfinished : b'.finished = b.finished := by
        rw [hb.paired]
        rfl
      simp only [deliver, hfinished]
      by_cases hdone : b.finished = true
      · simp only [if_pos hdone]
        exact .ok hb ⟨rfl, ht⟩
      · simp only [if_neg hdone]
        exact ih (h.checkpoint (by simpa using hdone)) hb ht
    | fault f => exact .error _ ⟨rfl, ht⟩

theorem follows_parse :
    Follows (Same K) (fun _ => False) (· = ·) (r.parse nested source location)
      (r'.parse nested' source location) := by
  rintro s _ ⟨rfl, hs⟩
  refine (matches_deliver ha hread .start ⟨rfl, rfl⟩ hs).bind fun b b' u _ _ hb hu => ?_
  have hfinish : b'.finish = b.finish := by
    rw [hb.paired]
    rfl
  rw [hfinish]
  exact ((Follows.lift_self _).mono fun _ _ h => h.2) _ _ hu

end

theorem follows_parseBytes {nested nested' : Reader → String → Reading Document} {r r' : Reader}
    {bytes : Bytes} {location : Option String} (ha : r.Alike r')
    (hread : ∀ source, Text.decode bytes = .ok source →
      ∀ e ∈ documentEvents (Text.dropMark source), ∀ i, e.inclusion? = some i →
      Follows (Same K) (fun _ => False) (· = ·) (r.readIncluded nested location i)
        (r'.readIncluded nested' location i)) :
    Follows (Same K) (fun _ => False) (· = ·) (r.parseBytes nested bytes location)
      (r'.parseBytes nested' bytes location) := by
  unfold Reader.parseBytes
  refine .bind (Follows.lift_self _) fun source source' h => ?_
  obtain ⟨hsource, rfl⟩ := h
  exact follows_parse ha (hread source hsource)

theorem follows_readIncluded {nested nested' : Reader → String → Reading Document}
    {r : Reader} {base : Option String} {i : Inclusion}
    (hread : ∀ r l, Follows (Same K) (fun _ => False) (· = ·) (nested r l) (nested' r l)) :
    Follows (Same K) (fun _ => False) (· = ·) (r.readIncluded nested base i)
      (r.readIncluded nested' base i) := by
  refine .bind (Follows.lift_self _) fun reader reader' h => ?_
  obtain ⟨-, rfl⟩ := h
  exact .mapError (fun _ h => h) (hread reader _)

namespace Reader

/-- Reads the document at a location. Below so many documents inside one another, documents are
read in another way. -/
def readAbove (floor : Reader → String → Reading Document) :
    Nat → Reader → String → Reading Document
  | 0, r, location => floor r location
  | room + 1, r, location =>
    .within (some location) do
      let bytes ← .lift .resource (r.environment.documents.load location)
      r.parseBytes (readAbove floor room) bytes (some location)

theorem readNested_eq_readAbove (room : Nat) :
    readNested room = readAbove (fun _ _ => .fail (.nesting (.tooDeep Guard.maxDepth))) room := by
  induction room with
  | zero => rfl
  | succ room ih =>
    funext r location
    rw [readNested, readAbove, ih]

/-- Where the guard refuses before the room runs out, neither the room nor what is below it
counts. -/
theorem follows_readAbove (floor floor' : Reader → String → Reading Document) {room room' : Nat}
    (hroom : Guard.maxDepth - g.depth < room) (hroom' : Guard.maxDepth - g.depth < room')
    (r : Reader) (l : String) :
    Follows (Same (· = g)) (fun _ => False) (· = ·) (readAbove floor room r l)
      (readAbove floor' room' r l) := by
  -- Entering a document takes one from what the guard leaves, as it takes one from either room. So
  -- the guard refuses first.
  induction room generalizing room' g r l with
  | zero => omega
  | succ room ih =>
    cases room' with
    | zero => omega
    | succ room' =>
      unfold readAbove
      apply follows_within
      intro inner henter
      obtain ⟨hdepth, -, rfl⟩ := Guard.enter_ok henter
      refine .bind (Follows.lift_self _) fun bytes bytes' h => ?_
      obtain ⟨-, rfl⟩ := h
      refine follows_parseBytes (.refl r) fun _ _ _ _ i _ => follows_readIncluded fun r l => ?_
      apply ih
      · dsimp only
        omega
      · dsimp only
        omega

variable (r : Reader) (l : String) (s : Session)

theorem readAbove_eq (floor : Reader → String → Reading Document) (room : Nat)
    (hroom : Guard.maxDepth - s.guard.depth < room) :
    (readAbove floor room r l).perform s = (r.read l).perform s := by
  rw [read, readNested_eq_readAbove]
  exact ((follows_readAbove _ floor (by omega) hroom r l).perform_eq rfl).1

theorem read_kept : ((r.read l).perform s).2.guard = s.guard := by
  rw [read, readNested_eq_readAbove]
  have hroom : Guard.maxDepth - s.guard.depth < Guard.maxDepth + 1 := by omega
  exact ((follows_readAbove _ read hroom hroom r l).perform_eq rfl).2

theorem follows_read (K : Guard → Prop) :
    Follows (Same K) (fun _ => False) (· = ·) (r.read l) (r.read l) :=
  .of_kept fun s hs => (read_kept r l s).symm ▸ hs

/-- A document is read by reading those it includes in the same way, without any bound. -/
theorem read_eq :
    (r.read l).perform s = (Reading.within (some l) do
      let bytes ← .lift .resource (r.environment.documents.load l)
      r.parseBytes read bytes (some l)).perform s := by
  have h := readAbove_eq r l s read (Guard.maxDepth + 2) (by omega)
  rw [← h, readAbove]
  refine ((follows_within fun inner henter => ?_).perform_eq rfl).1
  refine .bind (Follows.lift_self _) fun bytes bytes' h => ?_
  obtain ⟨-, rfl⟩ := h
  refine follows_parseBytes (.refl r) fun _ _ _ _ i _ => follows_readIncluded fun r l => ?_
  -- An included document has one room less than a first one. That is still enough.
  rintro s _ ⟨rfl, rfl⟩
  rw [readAbove_eq r l s read _ (Nat.lt_succ_of_le (Nat.sub_le ..))]
  exact r.follows_read l (· = s.guard) s s ⟨rfl, rfl⟩

end Reader

/-- While a document is read, the documents that are open between its events are the same. -/
theorem Builder.Reached.guard_eq {r : Reader} {source : List Char} {location : Option String}
    {s t : Session} {taken : List Delivery} {b : Builder} {ahead : List Signal}
    (h : Reached Reader.read r source location s taken b t ahead) : t.guard = s.guard := by
  induction h with
  | start => rfl
  | @event taken b b' t t' e ahead before step ih =>
    have hstep := (Reading.stepwise_follows (· = t.guard)).step (.refl b.reader) ⟨rfl, rfl⟩ (e := e)
      (fun i _ => follows_readIncluded fun r l => r.follows_read l _) fun _ _ _ f l => .fail _
    obtain ⟨_, _, -, -, -, hkept⟩ := hstep.ok_of_ok ⟨rfl, rfl⟩ step
    exact hkept.trans ih
  | checkpoint before unfinished ih => exact ih

end ObjectMarkup
