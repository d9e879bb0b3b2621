import ObjectMarkup.Coercion
import ObjectMarkup.Path
import ObjectMarkup.Registry
import ObjectMarkup.Resource.Bundle

namespace ObjectMarkup

/-- What the attributes of a document are resolved against. -/
structure Context where
  location : Option String
  resources : Option Bundle
  names : Registry

/-- Why an attribute stands for nothing. -/
inductive ReferenceError where
  /-- An address in a document that has no location. -/
  | noBaseLocation (raw : String)
  /-- A key where no bundle is in effect. -/
  | missingResources (key : String)
  deriving DecidableEq, Repr

def ReferenceError.message : ReferenceError → String
  | .noBaseLocation raw => s!"URL '{raw}' cannot be resolved without a document location"
  | .missingResources key => s!"Resource key '{key}' used but no resource bundle is bound"

namespace Context

/-- What `rest` stands for after a sigil. -/
def dereference (c : Context) (sigil : Char) (rest : String) : Except ReferenceError Value :=
  if sigil = '@' then
    match c.location with
    | none => .error (.noBaseLocation (String.ofList (sigil :: rest.toList)))
    | some location => .ok (.url (Path.resolve rest (some location)))
  else if sigil = '%' then
    match c.resources with
    | none => .error (.missingResources rest)
    | some bundle => .ok ((bundle.get? rest).getD .null)
  else
    .ok ((c.names.get? rest).getD .null)

/-- What a text stands for where it is no literal. A sigil alone is an ordinary character. -/
def resolveReference (c : Context) (raw : String) : Except ReferenceError Value :=
  match raw.toList with
  | sigil :: next :: rest =>
    if isSigil sigil then
      if next = sigil then .ok (.string (String.ofList (next :: rest)))
      else c.dereference sigil (String.ofList (next :: rest))
    else
      .ok (.string raw)
  | _ => .ok (.string raw)

/-- What a text stands for as the value of a property of type `target`. For a primitive type it is a
literal. For other types a sigil at its start gives it a meaning: `@` an address relative to the
document, `%` a key of the bundle in effect, `$` a named object. -/
def resolve (c : Context) (raw : String) (target : Option ValueType) :
    Except ReferenceError Value :=
  match target with
  | some t => if t.isPrimitive then .ok (coerce raw t) else c.resolveReference raw
  | none => c.resolveReference raw

end Context

end ObjectMarkup
