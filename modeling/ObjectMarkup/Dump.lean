import ObjectMarkup.Heap
import ObjectMarkup.Json.Printer

namespace ObjectMarkup.Dump

/-- Goes through a list with a state that each step may change. -/
def thread {α β σ : Type} (f : σ → α → β × σ) : σ → List α → List β × σ
  | s, [] => ([], s)
  | s, a :: rest =>
    let (b, s) := f s a
    let (bs, s) := thread f s rest
    (b :: bs, s)

/-- A number in JSON, which has no form for what is not finite. -/
def number (x : Binary .double) : Json :=
  if x.isNaN || x.isInfinite then .null else .double x

def scalar : Value → Json
  | .null => .null
  | .boolean b => .boolean b
  | .char c => .string (String.ofList [c])
  | .byte n => .integer n.toInt
  | .short n => .integer n.toInt
  | .int n => .integer n.toInt
  | .long n => .integer n.toInt
  | .float x => number x.convert
  | .double x => number x
  | .string s => .string s
  | .url s => .string s
  | .object _ => .null

/-- The members of an object that has properties. A property may take the place of the type, and
the items may take the place of a property. -/
def members (typeName : String) (properties : List (String × Json)) (items : List Json) :
    OrderedMap String Json :=
  let m := (OrderedMap.empty.insert "$type" (.string typeName)).insertAll properties
  if items.isEmpty then m else m.insert "$items" (.array items)

/-- Renders a value after the objects in `seen` have been, and gives the objects seen since. An
object that was seen is only named by its type, which also ends cycles. Each level of `fuel` is an
object inside another. -/
def render (heap : Heap) : Nat → List ObjectId → Value → Json × List ObjectId
  | 0, seen, value => (scalar value, seen)
  | fuel + 1, seen, value =>
    match value with
    | .object id =>
      let o := heap.object id
      if id ∈ seen then
        (.object (OrderedMap.empty.insert "$ref" (.string o.typeName)), seen)
      else
        let seen := id :: seen
        match o.listeners with
        | some listeners =>
          let (items, seen) := thread (render heap fuel) seen (listeners.map .object)
          (.array items, seen)
        | none =>
          let properties := o.properties
          let (values, seen) :=
            thread (render heap fuel) seen (properties.map fun p => p.2.getD .null)
          let (items, seen) := thread (render heap fuel) seen o.items
          if o.access?.isNone ∧ o.sequence.isSome then
            (.array items, seen)
          else
            (.object (members o.typeName ((properties.map Prod.fst).zip values) items), seen)
    | value => (scalar value, seen)

/-- The JSON form of a value. No more objects can be inside one another than there are. -/
def json (heap : Heap) (value : Value) : Json := (render heap (heap.size + 1) [] value).1

def text (heap : Heap) (value : Value) : String := (json heap value).pretty

end ObjectMarkup.Dump
