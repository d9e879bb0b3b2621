namespace ObjectMarkup

inductive ValueType where
  | boolean
  | char
  | byte
  | short
  | int
  | long
  | float
  | double
  | string
  | url
  | object
  /-- Takes values of every kind. -/
  | any
  deriving DecidableEq, Repr

namespace ValueType

def all : List ValueType :=
  [.boolean, .char, .byte, .short, .int, .long, .float, .double, .string, .url, .object, .any]

/-- Whether text is read as a literal of the type instead of being resolved. -/
def isPrimitive : ValueType → Bool
  | .string => false
  | .url => false
  | .object => false
  | .any => false
  | _ => true

def name : ValueType → String
  | .boolean => "boolean"
  | .char => "char"
  | .byte => "byte"
  | .short => "short"
  | .int => "int"
  | .long => "long"
  | .float => "float"
  | .double => "double"
  | .string => "string"
  | .url => "url"
  | .object => "object"
  | .any => "any"

def ofName? (name : String) : Option ValueType := all.find? fun t => t.name = name

end ValueType

/-- How markup treats a property. -/
inductive PropertyKind where
  /-- Assigned as a whole. -/
  | writable
  /-- An object that its owner made; markup fills it in place. -/
  | composite
  /-- A list of listeners, filled with objects looked up by id. -/
  | listenerList
  /-- Defined by one type and set on objects of others. -/
  | attached
  deriving DecidableEq, Repr

structure PropertyDescriptor where
  name : String
  kind : PropertyKind
  type : ValueType
  deriving DecidableEq, Repr

inductive PropertyError where
  | unknown (typeName property : String)
  | readOnly (typeName property : String)
  | typeMismatch (property expected found : String)
  | null (property : String)
  | unsupported (typeName : String)
  deriving DecidableEq, Repr

def PropertyError.message : PropertyError → String
  | .unknown typeName property => s!"'{typeName}' has no property named '{property}'"
  | .readOnly typeName property => s!"Property '{property}' of '{typeName}' is read-only"
  | .typeMismatch property expected found =>
    s!"Property '{property}' expects {expected}, got {found}"
  | .null property => s!"Property '{property}' does not accept null"
  | .unsupported typeName => s!"'{typeName}' does not support this operation"

end ObjectMarkup
