import ObjectMarkup.Proofs.Spelling.Builder

namespace ObjectMarkup

open Markup Reading

variable {ρ : String → String}

namespace Markup

/-- The event in other words, perhaps at another place. -/
def Event.Alike (ρ : String → String) (e e' : Event) : Prop :=
  e'.unplaced = (e.requalify ρ).unplaced

def Signal.fault? : Signal → Option MarkupFault
  | .fault f => some f
  | _ => none

/-- The events and the fault among signals. -/
def notes (signals : List Signal) : Recording :=
  ⟨signals.filterMap Signal.event?, signals.findSome? Signal.fault?⟩

/-- The same is told, in other words. -/
structure Recording.Alike (ρ : String → String) (r r' : Recording) : Prop where
  events : List.Forall₂ (Event.Alike ρ) r.events r'.events
  fault : r'.fault = r.fault

theorem outermost_alike {events events' : List Event}
    (h : List.Forall₂ (Event.Alike ρ) events events') (depth : Nat) :
    List.Forall₂ (Event.Alike ρ) (outermost depth events) (outermost depth events') := by
  induction h generalizing depth with
  | nil => exact .nil
  | @cons e e' rest rest' he hrest ih =>
    cases e with
    | opened name attributes place =>
      cases e' with
      | opened name' attributes' place' => exact .cons he (ih _)
      | closed place' => cases he
      | text content' place' => cases he
    | text content place =>
      cases e' with
      | text content' place' => exact .cons he (ih _)
      | opened name' attributes' place' => cases he
      | closed place' => cases he
    | closed place =>
      cases e' with
      | closed place' =>
        match depth with
        | 0 => exact .cons he (ih _)
        | 1 => exact .cons he .nil
        | depth + 2 => exact .cons he (ih _)
      | opened name' attributes' place' => cases he
      | text content' place' => cases he

end Markup

namespace Builder

variable {nested : Reader → String → Reading Document} {r : Reader} {source : List Char}
  {location : Option String} {b b' : Builder} {s t : Session} {taken : List Delivery}
  {ahead : List Signal}

theorem echoes_take (hρ : KeepsControl ρ) (h : b.Alike ρ b') {events events' : List Event}
    (he : List.Forall₂ (Event.Alike ρ) events events') :
    Echoes ρ (Alike ρ) (b.take nested events) (b'.take nested events') := by
  induction he generalizing b b' with
  | nil => exact .pure h
  | @cons e e' rest rest' he hrest ih =>
    have hfinished : b'.finished = b.finished := congrArg Option.isSome h.root
    rw [take, take, hfinished]
    split
    · exact .pure h
    · exact (echoes_step hρ nested h he).bind fun c c' hc => ih hc

theorem accord_finish (h : b.Alike ρ b') (place place' : Location) :
    Accord (ReadError.Alike ρ) Eq (b.finish place) (b'.finish place') := by
  obtain ⟨reader, location, names, root, elements⟩ := h
  cases elements with
  | nil =>
    cases root with
    | none => exact .error (.malformed (.same _) place place')
    | some root => exact .ok rfl
  | cons he hrest => exact .error (.malformed (.unfinished he.displays) place place')

/-- The fault of a source is still ahead at every moment of reading it. -/
theorem Reached.fault_ahead (h : Reached nested r source location s taken b t ahead) :
    ahead.findSome? Signal.fault? = (signals (Text.dropMark source)).findSome? Signal.fault? := by
  induction h with
  | start => rfl
  | event before step ih => exact ih
  | checkpoint before unfinished ih => exact ih

end Builder

namespace Reader

variable (nested : Reader → String → Reading Document) (r : Reader) {source source' : List Char}
  (location : Option String)

/-- A source is read by taking the events of its document. Its markup is at fault where they leave
no root. -/
theorem parse_eq_take (source : List Char) :
    r.parse nested source location = (do
      let b ← (Builder.start r location).take nested (documentEvents (Text.dropMark source))
      match b.root, (notes (signals (Text.dropMark source))).fault with
      | none, some f => .fail (.markup f)
      | _, _ =>
        .lift id (b.finish (Location.ofOffset (Text.dropMark source)
          (Text.byteLength (Text.dropMark source))))) := by
  funext s
  change (r.parse nested source location).perform s = Reading.perform _ s
  have hend := (Builder.Reached.start : Builder.Reached nested r source location s _ _ _ _).deliver
  unfold parse
  dsimp only
  rw [perform_bind, perform_bind]
  rcases hdeliver : (deliver (fun b e => Builder.step nested b e) Builder.finished
    (fun _ f => .fail (.markup f)) (signals (Text.dropMark source))
      (Builder.start r location) : Reading Builder).perform s with ⟨error | b, u⟩
  · rw [hdeliver] at hend
    obtain ⟨taken, b, v, ahead, hreached, ⟨e, rest, rfl, hstep⟩ | ⟨f, rest, rfl, rfl, rfl⟩⟩ := hend
    · rw [hreached.take_error hstep]
    · obtain ⟨hroot, htake⟩ := hreached.take_fault
      have hfault : (notes (signals (Text.dropMark source))).fault = some f :=
        hreached.fault_ahead.symm
      rw [htake]
      dsimp only
      rw [hroot, hfault]
      rfl
  · rw [hdeliver] at hend
    obtain ⟨taken, ahead, hreached, hlast⟩ := hend
    rw [hreached.take_all hlast]
    have hcomplete : b.root = none → (notes (signals (Text.dropMark source))).fault = none := by
      intro hroot
      rcases hlast with rfl | hfinished
      · exact hreached.fault_ahead.symm
      · simp [Builder.finished, hroot] at hfinished
    dsimp only
    split
    · rename_i hroot hfault
      rw [hcomplete hroot] at hfault
      cases hfault
    · rfl

variable {nested r location}

/-- Two sources of which the same is told are read alike. -/
theorem echoes_parse (hρ : KeepsControl ρ)
    (h : (notes (signals (Text.dropMark source))).Alike ρ
      (notes (signals (Text.dropMark source')))) :
    Echoes ρ Eq (r.parse nested source location) (r.parse nested source' location) := by
  rw [parse_eq_take, parse_eq_take, h.fault]
  refine .bind (Builder.echoes_take hρ (.start r location) (outermost_alike h.events 0)) ?_
  intro b b' hb
  rw [hb.root]
  split
  · exact .fail (.same _)
  · exact .lift (Builder.accord_finish hb _ _) fun _ _ h => h

end Reader

/-- The scripts that are written in the open elements, as far as they have been read. -/
def Builder.scripts (b : Builder) : List (Option InlineScript) := b.stack.map Element.inline?

theorem Builder.Alike.scripts {b b' : Builder} (h : b.Alike ρ b') : b'.scripts = b.scripts := by
  obtain ⟨reader, location, names, root, elements⟩ := h
  unfold Builder.scripts
  induction elements with
  | nil => rfl
  | cons he hrest ih =>
    obtain ⟨name, place, place', content⟩ := he
    have hinline : Element.inline? ⟨name.requalify ρ, place', content.requalify ρ⟩ =
        Element.inline? ⟨name, place, content⟩ := by
      cases content <;> rfl
    exact congrArg₂ List.cons hinline ih

/-- Two texts are the same document in other words. Reading them changes the session alike and gives
the same document or errors of the same kind; and after any number of their events, the open scripts
have the same bodies. -/
structure Reader.ReadsAlike (ρ : String → String) (r : Reader) (source source' : List Char) :
    Prop where
  parse : ∀ nested location,
    Echoes ρ Eq (r.parse nested source location) (r.parse nested source' location)
  text : Echoes ρ Eq (r.readText (String.ofList source)) (r.readText (String.ofList source'))
  bytes : ∀ bytes bytes' location, Text.decode bytes = .ok source → Text.decode bytes' = .ok source' →
    Echoes ρ Eq (r.readBytes bytes location) (r.readBytes bytes' location)
  scripts : ∀ nested location n, Echoes ρ (fun b b' => b'.scripts = b.scripts)
    ((Builder.start r location).take nested ((documentEvents (Text.dropMark source)).take n))
    ((Builder.start r location).take nested ((documentEvents (Text.dropMark source')).take n))

theorem Reader.readsAlike_of_notes (hρ : KeepsControl ρ) (r : Reader) {source source' : List Char}
    (h : (notes (signals (Text.dropMark source))).Alike ρ
      (notes (signals (Text.dropMark source')))) :
    r.ReadsAlike ρ source source' where
  parse nested location := r.echoes_parse hρ h
  text := by
    unfold readText
    rw [String.toList_ofList, String.toList_ofList]
    exact (echoes_parse hρ h).within none
  bytes bytes bytes' location hbytes hbytes' := by
    unfold readBytes parseBytes
    rw [hbytes, hbytes']
    exact (echoes_parse hρ h).within location
  scripts nested location n := by
    have hevents := outermost_alike h.events 0
    exact (Builder.echoes_take hρ (.start r location) (List.forall₂_take n hevents)).mono
      fun b b' hb => hb.scripts

end ObjectMarkup
