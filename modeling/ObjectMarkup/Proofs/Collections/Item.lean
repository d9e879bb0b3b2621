import ObjectMarkup.Collections
import ObjectMarkup.Document.Element
import ObjectMarkup.Proofs.Markup.Tree
import ObjectMarkup.Resolution

namespace ObjectMarkup

open Markup

namespace Collections

/-- A qualifier that does not direct the reading, or none. -/
abbrev Qualifier := { q : Option String // q ≠ some controlQualifier }

abbrev Key := { name : String // Unicode.startsUppercase name = false }

/-- An attribute of a map: a key without a qualifier, and a text that starts with no sigil. -/
structure Entry where
  key : Key
  text : String
  plain : text.toList.head?.all fun c => !isSigil c

mutual

inductive Item where
  | list (qualifier : Qualifier) (items : Items)
  | map (qualifier : Qualifier) (attributes : List Entry) (members : Members)

inductive Items where
  | text (content : String)
  | item (before : String) (child : Item) (after : Items)

/-- Texts with elements of keys between them, which have no qualifier but perhaps a namespace. -/
inductive Members where
  | text (content : String)
  | property (before : String) (key : Key) (space : Option String) (value : Items)
      (after : Members)

end

def Entry.attribute (e : Entry) : Attribute := ⟨⟨none, e.key, none⟩, e.text⟩

/-- The name of an element whose type is one of the collections. -/
def typed (qualifier : Qualifier) (typeName : String) : QualifiedName :=
  ⟨qualifier, typeName, some collectionsSpace⟩

mutual

def Item.body (before : String) (after : Body) : Item → Body
  | .list qualifier items => .element before (typed qualifier "ArrayList") [] items.body after
  | .map qualifier attributes members =>
    .element before (typed qualifier "HashMap") (attributes.map Entry.attribute) members.body after

def Items.body : Items → Body
  | .text content => .text content
  | .item before child after => child.body before after.body

def Members.body : Members → Body
  | .text content => .text content
  | .property before key space value after =>
    .element before ⟨none, key, space⟩ [] value.body after.body

end

mutual

def Item.count : Item → Nat
  | .list _ items => items.count + 1
  | .map _ _ members => members.count + 1

def Items.count : Items → Nat
  | .text _ => 0
  | .item _ child after => child.count + after.count

def Members.count : Members → Nat
  | .text _ => 0
  | .property _ _ _ value after => value.count + after.count

end

/-- The value of a text: the text as it is, unless it is blank. -/
def textValues (content : String) : List Value :=
  if Text.isBlank content.toList then [] else [.string content]

/-- The values of texts and items in order, the first item being the object `next`. -/
def Items.values (next : Nat) : Items → List Value
  | .text content => textValues content
  | .item before child after =>
    textValues before ++ .object ⟨next⟩ :: after.values (next + child.count)

/-- The value that a key gets: the last one in its element, or null. -/
def lastValue (values : List Value) : Value := values.getLast?.getD .null

/-- The entries of the keys in order. Text between them does not count. -/
def Members.entries (next : Nat) : Members → List (String × Value)
  | .text _ => []
  | .property _ key _ value after =>
    (key, lastValue (value.values next)) :: after.entries (next + value.count)

def Entry.entry (e : Entry) : String × Value := (e.key, .string e.text)

def listOf (items : List Value) : Object :=
  { Object.arrayList with sequence := some ⟨items, none, none⟩ }

/-- The map in which the given entries were stored one after another. -/
def mapOf (entries : List (String × Value)) : Object :=
  { Object.hashMap with dictionary := some (.ofList entries) }

mutual

/-- The objects of an item, in the order of their start tags, the first one being the object
`next`. -/
def Item.objects (next : Nat) : Item → List Object
  | .list _ items => listOf (items.values (next + 1)) :: items.objects (next + 1)
  | .map _ attributes members =>
    mapOf (members.entries (next + 1) ++ attributes.map Entry.entry) :: members.objects (next + 1)

def Items.objects (next : Nat) : Items → List Object
  | .text _ => []
  | .item _ child after => child.objects next ++ after.objects (next + child.count)

def Members.objects (next : Nat) : Members → List Object
  | .text _ => []
  | .property _ _ _ value after => value.objects next ++ after.objects (next + value.count)

end

mutual

theorem Item.length_objects (item : Item) (next : Nat) :
    (item.objects next).length = item.count := by
  cases item with
  | list qualifier items =>
    simp only [Item.objects, Item.count, List.length_cons, items.length_objects]
  | map qualifier attributes members =>
    simp only [Item.objects, Item.count, List.length_cons, members.length_objects]

theorem Items.length_objects (items : Items) (next : Nat) :
    (items.objects next).length = items.count := by
  cases items with
  | text content => rfl
  | item before child after =>
    simp only [Items.objects, Items.count, List.length_append, child.length_objects,
      after.length_objects]

theorem Members.length_objects (members : Members) (next : Nat) :
    (members.objects next).length = members.count := by
  cases members with
  | text content => rfl
  | property before key space value after =>
    simp only [Members.objects, Members.count, List.length_append, value.length_objects,
      after.length_objects]

end

end Collections

end ObjectMarkup
