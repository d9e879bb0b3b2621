import ObjectMarkup.Path
import ObjectMarkup.Property
import ObjectMarkup.Value

namespace ObjectMarkup

/-- Who may take objects out of the document that a field loads. -/
inductive Visibility where
  /-- The class of the field. -/
  | ownClass
  /-- The class of the field and those that follow it. -/
  | heirs
  | everyone
  deriving DecidableEq, Repr

structure LoadPoint where
  /-- Relative to the directory of the class. -/
  document : String
  /-- The base name of the bundle; that of the class counts where there is none. -/
  resources : Option String
  /-- The tag of a locale; that of the reader counts where there is none. -/
  locale : Option String
  deriving DecidableEq, Repr

structure BindPoint where
  /-- The field that loads the document. -/
  property : String
  /-- The name of the object; that of the field counts where there is none. -/
  id : Option String
  deriving DecidableEq, Repr

structure FieldBinding where
  name : String
  visibility : Visibility := .heirs
  writable : Bool := true
  load : Option LoadPoint := none
  bind : Option BindPoint := none
  deriving DecidableEq, Repr

namespace FieldBinding

/-- The field takes the object with the given name, if it takes one at all. -/
def withId (f : FieldBinding) (id : String) : FieldBinding :=
  { f with bind := f.bind.map fun b => { b with id := some id } }

/-- The field loads its document with the given bundle, if it loads one at all. -/
def withResources (f : FieldBinding) (baseName : String) : FieldBinding :=
  { f with load := f.load.map fun l => { l with resources := some baseName } }

/-- The field loads its document for the given locale, if it loads one at all. -/
def withLocale (f : FieldBinding) (tag : String) : FieldBinding :=
  { f with load := f.load.map fun l => { l with locale := some tag } }

end FieldBinding

structure BindingClass where
  name : String
  fields : List FieldBinding
  deriving DecidableEq, Repr

/-- The name of the class as a location, against which its documents are found. -/
def BindingClass.location (c : BindingClass) : String := Path.ofDottedName c.name

/-- A value that a field was given, and whether it took it. -/
structure Assignment where
  owner : String
  field : String
  value : Value
  accepted : Bool
  deriving DecidableEq, Repr

/-- What is filled: classes, the topmost ancestor first, and the answer to an assignment after the
ones before it. -/
structure Host where
  classes : List BindingClass
  answer : List Assignment → String → String → Value → Except PropertyError Unit

end ObjectMarkup
