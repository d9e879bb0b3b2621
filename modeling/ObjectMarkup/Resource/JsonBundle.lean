import ObjectMarkup.Json.Reader
import ObjectMarkup.Path
import ObjectMarkup.Resource.Bundle

namespace ObjectMarkup

/-- The scalar that a JSON value is. A whole number too great for a long becomes a double. -/
def Json.scalar? : Json → Option Value
  | .null => some .null
  | .boolean b => some (.boolean b)
  | .integer n => some (if n < 0x8000000000000000 then .long (.ofInt n) else .double (.ofInt n))
  | .double x => some (.double x)
  | .string s => some (.string s)
  | .array _ => none
  | .object _ => none

namespace JsonBundle

/-- The JSON value under a key: a member with the whole key as its name, or else the value at the
end of the path that the dots of the key mark. -/
def find? (members : OrderedMap String Json) (key : String) : Option Json :=
  match members.get? key with
  | some j => some j
  | none => (Json.object members).descend? (Text.segments '.' key)

def bundle (baseName : String) (members : OrderedMap String Json) : Bundle :=
  ⟨baseName, fun key => (find? members key).bind Json.scalar?⟩

/-- The path of a bundle's files without their endings: `demo/Strings` for the bundle
`demo.Strings`. -/
def stem (baseName : String) : String := Path.ofDottedName baseName

/-- The layers of a bundle, the least specific first. -/
def layerPaths (baseName : String) (locale : Option Locale) : List String :=
  ("" :: (locale.map Locale.suffixes).getD []).map fun suffix =>
    stem baseName ++ suffix ++ ".json"

/-- The members of the JSON object in a file; `none` when there is no such file. -/
def layer? (provider : Provider) (path : String) :
    Except ResourceError (Option (OrderedMap String Json)) :=
  match provider.load path with
  | .error e => if e.isNotFound then .ok none else .error e
  | .ok bytes =>
    match Json.ofBytes? bytes with
    | some (.object members) => .ok (some members)
    | some _ => .error (.invalidFormat path .notAnObject)
    | none => .error (.invalidFormat path .notJson)

/-- Lays a layer over what the layers before it gave. -/
def layOver : Option (OrderedMap String Json) → Option (OrderedMap String Json) →
    Option (OrderedMap String Json)
  | some base, some layer => some (Json.merge base layer)
  | none, layer => layer
  | base, none => base

/-- Lays the files at the paths over what is there, in order. The first unusable file decides. -/
def layers (provider : Provider) (base : Option (OrderedMap String Json)) :
    List String → Except ResourceError (Option (OrderedMap String Json))
  | [] => .ok base
  | path :: rest =>
    match layer? provider path with
    | .error e => .error e
    | .ok layer => layers provider (layOver base layer) rest

def loader (provider : Provider) : BundleLoader := fun baseName locale =>
  match layers provider none (layerPaths baseName locale) with
  | .error e => .error e
  | .ok none => .error (.notFound (stem baseName ++ ".json"))
  | .ok (some members) => .ok (bundle baseName members)

end JsonBundle

end ObjectMarkup
