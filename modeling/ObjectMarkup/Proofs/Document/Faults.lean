import ObjectMarkup.Proofs.Document.Stepwise

namespace ObjectMarkup

open Markup

/-- Whether an error comes down to a fault that never arises, in the document itself or in one that
it includes. -/
def ReadError.isUnreachable (e : ReadError) : Bool :=
  match e.rootCause with
  | .malformed fault _ => fault.isUnreachable
  | _ => false

def ReadError.Possible (e : ReadError) : Prop := e.isUnreachable = false

namespace ReadError

theorem possible_included {path : String} {e : ReadError} (h : e.Possible) :
    (included path e).Possible := h

theorem not_unreachable (e : ReadError) (h : e.Possible) (place : Location) :
    e.rootCause ≠ .malformed .unbalancedEnd place ∧
      ∀ element, e.rootCause ≠ .malformed (.noEnclosingObject element) place := by
  unfold Possible isUnreachable at h
  constructor
  · intro he
    simp [he, StructureFault.isUnreachable] at h
  · intro element he
    simp [he, StructureFault.isUnreachable] at h

end ReadError

theorem ReadError.possible_of_isOwn {e : ReadError} (h : e.isOwn = true) : e.Possible := by
  unfold Possible isUnreachable
  cases e with
  | malformed fault place => simpa [isOwn, rootCause] using h
  | included path cause => cases h
  | _ => rfl

/-- Events fail with errors that can arise, if reading documents does and an end tag comes where
there is something to end. -/
theorem Builder.step_fails {nested : Reader → String → Reading Document} {b : Builder} {e : Event}
    (hn : ∀ r l, Reading.FailsWith ReadError.Possible (nested r l))
    (ho : ∀ place, e = .closed place → b.Orderly) :
    Reading.FailsWith ReadError.Possible (b.step nested e) := by
  refine .step (fun _ h => ReadError.possible_of_isOwn h) (fun i _ => ?_)
    fun place he hno => absurd (ho place he) hno
  refine .bind (.lift fun e he => ReadError.possible_of_isOwn (Reader.forInclusion_error he)) ?_
  intro reader
  apply Reading.FailsWith.mapError
  intro s error t h
  have herror := hn reader _ s error t h
  unfold ReadError.through
  split
  · rfl
  · exact ReadError.possible_included herror

end ObjectMarkup
