import ObjectMarkup.Blueprint
import ObjectMarkup.Text.Quoted

namespace ObjectMarkup

/-- How objects of a type are made. A type whose objects cannot be made says why. -/
abbrev Factory := Except String Blueprint

/-- A property that one type defines for the objects of others. -/
structure AttachedProperty where
  descriptor : PropertyDescriptor
  intake : Intake
  deriving DecidableEq, Repr

/-- An attached property that was set on an object. -/
structure AttachedValue where
  target : ObjectId
  owner : String
  property : String
  value : Value
  deriving DecidableEq, Repr

/-- The types by their qualified names, and the attached properties by owner and name. -/
structure TypeRegistry where
  factories : OrderedMap String Factory
  attached : OrderedMap (String × String) AttachedProperty

def qualifiedName (space name : String) : String := space ++ "." ++ name

inductive InstantiationError where
  | unknownType (typeName : String)
  | notInstantiable (typeName reason : String)
  deriving DecidableEq, Repr

namespace TypeRegistry

def empty : TypeRegistry := ⟨.empty, .empty⟩

/-- Registers a type, in place of an older one with its name. -/
def register (t : TypeRegistry) (name : String) (factory : Factory) : TypeRegistry :=
  { t with factories := t.factories.insert name factory }

def attach (t : TypeRegistry) (owner : String) (p : AttachedProperty) : TypeRegistry :=
  { t with attached := t.attached.insert (owner, p.descriptor.name) p }

def contains (t : TypeRegistry) (name : String) : Bool := t.factories.contains name

def resolve? (t : TypeRegistry) (space name : String) : Option Factory :=
  t.factories.get? (qualifiedName space name)

def blueprint (t : TypeRegistry) (space name : String) : Except InstantiationError Blueprint :=
  match t.resolve? space name with
  | none => .error (.unknownType (qualifiedName space name))
  | some (.error reason) => .error (.notInstantiable (qualifiedName space name) reason)
  | some (.ok b) => .ok b

def attached? (t : TypeRegistry) (owner property : String) : Option AttachedProperty :=
  t.attached.get? (owner, property)

def sortedNames (t : TypeRegistry) : List String := t.factories.keys.mergeSort fun a b => a ≤ b

/-- The names of the types, in quotes, and the number of attached properties. -/
def describe (t : TypeRegistry) : String :=
  let names := Text.join ", " (t.sortedNames.map Text.quoted)
  "TypeRegistry \x7b types: [" ++ names ++ "], attached: " ++
    String.ofList (digitsOf t.attached.size) ++ " \x7d"

end TypeRegistry

/-- The value that was last set for an attached property of an object; null if none was. -/
def AttachedValue.latest (log : List AttachedValue) (target : ObjectId) (owner property : String) :
    Value :=
  match log.reverse.find? fun a => a.target = target ∧ a.owner = owner ∧ a.property = property with
  | some a => a.value
  | none => .null

/-- Sets an attached property of an object, whose value goes by the label `found`. -/
def AttachedProperty.set (p : AttachedProperty) (owner found : String) (target : ObjectId)
    (value : Value) (log : List AttachedValue) : Except PropertyError (List AttachedValue) :=
  (p.intake.accept p.descriptor.name found value).map fun kept =>
    log ++ [⟨target, owner, p.descriptor.name, kept⟩]

end ObjectMarkup
