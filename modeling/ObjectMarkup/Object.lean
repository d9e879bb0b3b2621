import ObjectMarkup.OrderedMap
import ObjectMarkup.Property
import ObjectMarkup.Text.Split
import ObjectMarkup.Value

namespace ObjectMarkup

/-- What a property takes, and in which form it keeps it. -/
inductive Intake where
  /-- Every value, as it is. -/
  | anything
  /-- The characters of a string or address as a string, and null for any other value. -/
  | text
  /-- The characters of a string or address as an address, and null for any other value. -/
  | link
  /-- Booleans. -/
  | flag
  /-- Whole numbers that fit thirty-two bits, in that width. -/
  | integer
  /-- Whole numbers that fit thirty-two bits, as they are. -/
  | integral
  /-- Strings. -/
  | requiredText
  deriving DecidableEq, Repr

/-- The value that a property keeps when it is given one, whose label is `found`. -/
def Intake.accept (intake : Intake) (property found : String) (value : Value) :
    Except PropertyError Value :=
  match intake with
  | .anything => .ok value
  | .text => .ok ((value.text?.map Value.string).getD .null)
  | .link => .ok ((value.text?.map Value.url).getD .null)
  | .flag =>
    match value.boolean? with
    | some b => .ok (.boolean b)
    | none => .error (.typeMismatch property "boolean" found)
  | .integer =>
    match value.int? with
    | some n => .ok (.int n)
    | none => .error (.typeMismatch property "int" found)
  | .integral =>
    match value.int? with
    | some _ => .ok value
    | none => .error (.typeMismatch property "int" found)
  | .requiredText =>
    match value with
    | .null => .error (.null property)
    | .string s => .ok (.string s)
    | _ => .error (.typeMismatch property "string" found)

/-- A property of a bean. Reading it gives nothing when nothing is held. -/
structure Property where
  descriptor : PropertyDescriptor
  intake : Intake
  held : Option Value
  deriving DecidableEq, Repr

/-- The declared properties of an object. A frozen bean refuses every assignment. -/
structure Bean where
  properties : List Property
  frozen : Bool
  deriving DecidableEq, Repr

namespace Bean

def schema (b : Bean) : List PropertyDescriptor := b.properties.map Property.descriptor

def property? (b : Bean) (name : String) : Option Property :=
  b.properties.find? fun p => p.descriptor.name = name

def get? (b : Bean) (name : String) : Option Value := (b.property? name).bind Property.held

def store (b : Bean) (name : String) (value : Value) : Bean :=
  { b with
    properties := b.properties.map fun p =>
      if p.descriptor.name = name then { p with held := some value } else p }

def set (b : Bean) (typeName name found : String) (value : Value) : Except PropertyError Bean :=
  if b.frozen then .error (.readOnly typeName name)
  else
    match b.property? name with
    | none => .error (.unknown typeName name)
    | some p =>
      match p.descriptor.kind with
      | .composite => .error (.readOnly typeName name)
      | .listenerList => .error (.readOnly typeName name)
      | _ => (p.intake.accept name found value).map fun v => b.store name v

end Bean

structure Sequence where
  items : List Value
  /-- The number of items at which the sequence is full. -/
  capacity : Option Nat
  /-- Characters that no text among the items may hold. -/
  forbidden : Option String
  deriving DecidableEq, Repr

namespace Sequence

def forbids (s : Sequence) (value : Value) : Bool :=
  match s.forbidden, value.text? with
  | some part, some text => Text.occursIn part.toList text.toList
  | _, _ => false

def add (s : Sequence) (typeName found : String) (value : Value) :
    Except PropertyError Sequence :=
  if s.capacity.any fun n => n ≤ s.items.length then .error (.unsupported typeName)
  else if s.forbids value then .error (.typeMismatch "items" "good text" found)
  else .ok { s with items := s.items ++ [value] }

end Sequence

/-- An object with its state. Where it is both a dictionary and a bean, its properties are the
entries of the dictionary, which takes any key. -/
structure Object where
  typeName : String
  dictionary : Option (OrderedMap String Value) := none
  bean : Option Bean := none
  sequence : Option Sequence := none
  listeners : Option (List ObjectId) := none
  deriving DecidableEq, Repr

instance : Inhabited Object := ⟨{ typeName := "" }⟩

/-- The capability through which properties are reached. -/
inductive Access where
  | dictionary (entries : OrderedMap String Value)
  | bean (b : Bean)

namespace Access

/-- The declaration of a property. Entries of a dictionary have none. -/
def descriptor? : Access → String → Option PropertyDescriptor
  | .dictionary _, _ => none
  | .bean b, name => (b.property? name).map Property.descriptor

def get? : Access → String → Option Value
  | .dictionary entries, name => entries.get? name
  | .bean b, name => b.get? name

end Access

namespace Object

/-- How properties of the object are reached: as a dictionary first, else as a bean. -/
def access? (o : Object) : Option Access :=
  match o.dictionary with
  | some entries => some (.dictionary entries)
  | none => o.bean.map .bean

def properties (o : Object) : List (String × Option Value) :=
  match o.access? with
  | some (.dictionary entries) => entries.entries.map fun e => (e.1, some e.2)
  | some (.bean b) => b.properties.map fun p => (p.descriptor.name, p.held)
  | none => []

def items (o : Object) : List Value := (o.sequence.map Sequence.items).getD []

def put (o : Object) (name found : String) (value : Value) : Except PropertyError Object :=
  match o.access? with
  | some (.dictionary entries) => .ok { o with dictionary := some (entries.insert name value) }
  | some (.bean b) =>
    (b.set o.typeName name found value).map fun b => { o with bean := some b }
  | none => .error (.unsupported o.typeName)

def mapRefs (f : ObjectId → ObjectId) (o : Object) : Object where
  typeName := o.typeName
  dictionary := o.dictionary.map fun m => ⟨m.entries.map fun e => (e.1, e.2.mapRefs f)⟩
  bean := o.bean.map fun b =>
    { b with properties := b.properties.map fun p => { p with held := p.held.map (·.mapRefs f) } }
  sequence := o.sequence.map fun s => { s with items := s.items.map (·.mapRefs f) }
  listeners := o.listeners.map (·.map f)

def refs (o : Object) : List ObjectId :=
  (o.dictionary.map fun m => m.entries.flatMap fun e => e.2.refs).getD [] ++
    (o.bean.map fun b => b.properties.flatMap fun p => p.held.toList.flatMap Value.refs).getD [] ++
    (o.sequence.map fun s => s.items.flatMap Value.refs).getD [] ++
    o.listeners.getD []

end Object

end ObjectMarkup
