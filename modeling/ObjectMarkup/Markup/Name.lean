import ObjectMarkup.Markup.Attribute
import ObjectMarkup.Text.Split

namespace ObjectMarkup.Markup

/-- A name with the namespace that its qualifier stands for. -/
structure QualifiedName where
  qualifier : Option String
  localName : String
  space : Option String
  deriving DecidableEq, Repr

namespace QualifiedName

def display (n : QualifiedName) : String :=
  match n.qualifier with
  | some q => q ++ ":" ++ n.localName
  | none => n.localName

def isIn (n : QualifiedName) (qualifier : String) : Bool := n.qualifier = some qualifier

end QualifiedName

structure Attribute where
  name : QualifiedName
  value : String
  deriving DecidableEq, Repr

/-- A qualifier, or its absence, with the namespace that it is declared to stand for. -/
structure Declaration where
  qualifier : Option String
  space : String
  deriving DecidableEq, Repr

abbrev Scope := List Declaration

def Scope.lookup (scope : Scope) (qualifier : Option String) : Option String :=
  match scope.find? fun d => d.qualifier = qualifier with
  | some d => if d.space = "" then none else some d.space
  | none => none

/-- The name with its qualifier split off. A name without one is in the namespace of the empty
qualifier if `plainCounts`, and else in none. -/
def Scope.qualify (scope : Scope) (plainCounts : Bool) (raw : List Char) : QualifiedName :=
  match Text.cutFirst ':' raw with
  | some (qualifier, name) =>
    ⟨some (String.ofList qualifier), String.ofList name,
      scope.lookup (some (String.ofList qualifier))⟩
  | none => ⟨none, String.ofList raw, if plainCounts then scope.lookup none else none⟩

def declaration? (a : RawAttribute) : Option Declaration :=
  if a.key = "xmlns".toList then some ⟨none, String.ofList a.value⟩
  else if "xmlns:".toList.isPrefixOf a.key then
    some ⟨some (String.ofList (a.key.drop 6)), String.ofList a.value⟩
  else none

/-- The declarations among attributes, the last one first. They hold for the element and for what is
inside it; one with an empty name takes the namespace away. -/
def declarations (attributes : List RawAttribute) : Scope :=
  (attributes.filterMap declaration?).reverse

def ownAttributes (scope : Scope) (attributes : List RawAttribute) : List Attribute :=
  (attributes.filter fun a => (declaration? a).isNone).map fun a =>
    ⟨scope.qualify false a.key, String.ofList a.value⟩

end ObjectMarkup.Markup
