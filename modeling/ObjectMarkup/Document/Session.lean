import ObjectMarkup.Document.Guard
import ObjectMarkup.Heap

namespace ObjectMarkup

/-- The objects, the attached properties that were set, and the open documents. -/
structure Session where
  heap : Heap
  attached : List AttachedValue
  guard : Guard
  deriving DecidableEq, Repr

def Session.initial : Session := ⟨.empty, [], .idle⟩

/-- A step of reading. What it changed before it failed stays changed. -/
abbrev Reading (α : Type) := ExceptT ReadError (StateM Session) α

namespace Reading

def perform {α : Type} (r : Reading α) (s : Session) : Except ReadError α × Session := r.run s

def fail {α : Type} (e : ReadError) : Reading α := throw e

/-- Goes on with what succeeded, or fails with the error in the words of reading. -/
def lift {ε α : Type} (wrap : ε → ReadError) : Except ε α → Reading α
  | .ok a => pure a
  | .error e => throw (wrap e)

def heap : Reading Heap := do return (← get).heap

def setHeap (h : Heap) : Reading Unit := modify fun s => { s with heap := h }

def build (b : Blueprint) : Reading ObjectId := do
  let (id, h) := (← heap).build b
  setHeap h
  return id

def put (id : ObjectId) (name : String) (value : Value) : Reading Unit := do
  setHeap (← lift .property ((← heap).put id name value))

/-- Reads a document inside those that are open, and closes it however the reading ends. -/
def within {α : Type} (location : Option String) (body : Reading α) : Reading α :=
  ExceptT.mk fun s =>
    match s.guard.enter location with
    | .error e => (.error (.nesting e), s)
    | .ok guard =>
      let (result, after) := body.run { s with guard }
      (result, { after with guard := after.guard.leave location })

def mapError {α : Type} (f : ReadError → ReadError) (body : Reading α) : Reading α :=
  ExceptT.mk fun s =>
    let (result, after) := body.run s
    (result.mapError f, after)

end Reading

end ObjectMarkup
