import ObjectMarkup.Number.Layout

namespace ObjectMarkup

/-- The identity of an object: its place in the heap. -/
structure ObjectId where
  index : Nat
  deriving DecidableEq, Repr, Inhabited

/-- A primitive, a text, an address or an object. Objects stand in values by their identity. -/
inductive Value where
  | null
  | boolean (b : Bool)
  | char (c : Char)
  | byte (n : Int8)
  | short (n : Int16)
  | int (n : Int32)
  | long (n : Int64)
  | float (x : Binary .single)
  | double (x : Binary .double)
  | string (s : String)
  /-- An address, resolved against the location of a document. -/
  | url (s : String)
  | object (o : ObjectId)
  deriving DecidableEq, Repr, Inhabited

namespace Value

def text? : Value → Option String
  | .string s => some s
  | .url s => some s
  | _ => none

def boolean? : Value → Option Bool
  | .boolean b => some b
  | _ => none

def object? : Value → Option ObjectId
  | .object o => some o
  | _ => none

/-- A whole number of any width that fits thirty-two bits. -/
def int? : Value → Option Int32
  | .byte n => some (.ofInt n.toInt)
  | .short n => some (.ofInt n.toInt)
  | .int n => some n
  | .long n => if -0x80000000 ≤ n.toInt ∧ n.toInt < 0x80000000 then some (.ofInt n.toInt) else none
  | _ => none

def long? : Value → Option Int64
  | .long n => some n
  | v => v.int?.map fun n => .ofInt n.toInt

/-- A number of any kind, rounded to a double. -/
def double? : Value → Option (Binary .double)
  | .float x => some x.convert
  | .double x => some x
  | v => v.long?.map fun n => .ofInt n.toInt

/-- The name of the value's kind; an object goes by the name of its type. -/
def label (typeName : ObjectId → String) : Value → String
  | .null => "null"
  | .boolean _ => "boolean"
  | .char _ => "char"
  | .byte _ => "byte"
  | .short _ => "short"
  | .int _ => "int"
  | .long _ => "long"
  | .float _ => "float"
  | .double _ => "double"
  | .string _ => "string"
  | .url _ => "url"
  | .object o => typeName o

def display (typeName : ObjectId → String) : Value → String
  | .null => "null"
  | .boolean b => if b then "true" else "false"
  | .char c => String.ofList [c]
  | .byte n => String.ofList (intText n.toInt)
  | .short n => String.ofList (intText n.toInt)
  | .int n => String.ofList (intText n.toInt)
  | .long n => String.ofList (intText n.toInt)
  | .float x => String.ofList x.plainText
  | .double x => String.ofList x.plainText
  | .string s => s
  | .url s => s
  | .object o => "<" ++ typeName o ++ ">"

/-- Equality of values. Floating-point numbers compare as numbers, so no number equals itself when
it is none. -/
def equal : Value → Value → Bool
  | .float x, .float y => x.equal y
  | .double x, .double y => x.equal y
  | .float _, _ => false
  | .double _, _ => false
  | v, w => v == w

def mapRefs (f : ObjectId → ObjectId) : Value → Value
  | .object o => .object (f o)
  | v => v

def refs (v : Value) : List ObjectId := v.object?.toList

theorem mapRefs_id (v : Value) : v.mapRefs id = v := by
  cases v <;> rfl

theorem mapRefs_mapRefs (f g : ObjectId → ObjectId) (v : Value) :
    (v.mapRefs f).mapRefs g = v.mapRefs (g ∘ f) := by
  cases v <;> rfl

end Value

end ObjectMarkup
