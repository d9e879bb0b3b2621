import ObjectMarkup.Document.Error
import ObjectMarkup.Markup.Name
import ObjectMarkup.Unicode.Uppercase

namespace ObjectMarkup

open Markup

/-- What the element of an object does when it closes: it applies its attributes and then binds its
name. -/
structure Closing where
  id : Option String
  attributes : List Attribute
  deriving DecidableEq, Repr

structure InlineScript where
  language : String
  body : String
  deriving DecidableEq, Repr

inductive Content where
  /-- An object made for the element. -/
  | created (object : ObjectId) (closing : Closing)
  /-- The root of an included document, with its named objects. -/
  | included (root : Value) (names : Registry) (closing : Closing)
  /-- The object of a composite property or a listener list of the enclosing object. -/
  | composite (object : ObjectId) (closing : Closing)
  /-- A property of the enclosing object, with the value it is to get. -/
  | assignment (value : Value)
  /-- A script, with its text if that is not in a file of its own. -/
  | script (inline : Option InlineScript)

structure Element where
  name : QualifiedName
  location : Location
  content : Content

namespace Element

def value (e : Element) : Value :=
  match e.content with
  | .created o _ => .object o
  | .included root _ _ => root
  | .composite o _ => .object o
  | .assignment v => v
  | .script _ => .null

/-- Whether properties may be written inside the element. -/
def holdsProperties (e : Element) : Bool :=
  match e.content with
  | .created _ _ => true
  | .included _ _ _ => true
  | .composite _ _ => true
  | _ => false

def holder? (e : Element) : Option ObjectId :=
  if e.holdsProperties then e.value.object? else none

end Element

/-- The qualifier of tags and attributes that direct the reading itself. -/
def controlQualifier : String := "wtkx"

/-- Splits the name for the object off the attributes of an element. The last one counts, and no
other attribute may have the control qualifier. -/
def takeId : List Attribute → Except StructureFault (Option String × List Attribute)
  | [] => .ok (none, [])
  | a :: rest =>
    if a.name.isIn controlQualifier then
      if a.name.localName = "id" then
        (takeId rest).map fun (id, own) => (some (id.getD a.value), own)
      else
        .error (.unknownControlAttribute a.name.display)
    else
      (takeId rest).map fun (id, own) => (id, a :: own)

def Markup.Attribute.isPlain (a : Attribute) (name : String) : Bool :=
  a.name.qualifier.isNone && a.name.localName = name

/-- The value of the last attribute with the given name and no qualifier. -/
def plainValue? (attributes : List Attribute) (name : String) : Option String :=
  ((attributes.filter fun a => a.isPlain name).getLast?).map Attribute.value

/-- What an element of attached property `Owner.property` names: the owner and the property. -/
def ownerAndProperty? (name : String) : Option (String × String) :=
  (Text.cutLast '.' name.toList).map fun (owner, property) =>
    (String.ofList owner, String.ofList property)

end ObjectMarkup
