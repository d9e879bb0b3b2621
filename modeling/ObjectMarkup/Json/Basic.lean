import ObjectMarkup.Number.Binary
import ObjectMarkup.OrderedMap

namespace ObjectMarkup

/-- A JSON value. Members of an object have distinct names. -/
inductive Json where
  | null
  | boolean (value : Bool)
  | integer (value : Int)
  | double (value : Binary .double)
  | string (value : String)
  | array (items : List Json)
  | object (members : OrderedMap String Json)

namespace Json

mutual

/-- What a value becomes under a layer: two objects merge, and otherwise the layer wins. -/
def overlay : Option Json → Json → Json
  | some (.object base), .object ⟨members⟩ => .object (overlayMembers base members)
  | _, value => value
termination_by structural _ value => value

def overlayMembers (base : OrderedMap String Json) :
    List (String × Json) → OrderedMap String Json
  | [] => base
  | (key, value) :: rest =>
    overlayMembers (base.insert key (overlay (base.get? key) value)) rest
termination_by structural members => members

end

def merge (base layer : OrderedMap String Json) : OrderedMap String Json :=
  overlayMembers base layer.entries

/-- The value at the end of a path of member names, which leads through objects only. -/
def descend? : Json → List String → Option Json
  | value, [] => some value
  | .object members, name :: path => (members.get? name).bind fun value => descend? value path
  | _, _ :: _ => none

end Json

end ObjectMarkup
