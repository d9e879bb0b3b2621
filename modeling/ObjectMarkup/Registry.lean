import ObjectMarkup.OrderedMap
import ObjectMarkup.Text.Split
import ObjectMarkup.Value

namespace ObjectMarkup

/-- Names with their values, and the registries of included documents, each under the name of its
inclusion. Only lookups follow dots: a binding is made under its name as it is. -/
structure Registry where
  values : OrderedMap String Value
  includes : OrderedMap String Registry

namespace Registry

def empty : Registry := ⟨.empty, .empty⟩

instance : Inhabited Registry := ⟨empty⟩

def child? (r : Registry) (id : String) : Option Registry := r.includes.get? id

/-- The value at the end of a path whose parts but the last name inclusions. -/
def lookup (r : Registry) : List String → Option Value
  | [] => none
  | [id] => r.values.get? id
  | segment :: rest => (r.child? segment).bind fun child => child.lookup rest

def get? (r : Registry) (path : String) : Option Value := r.lookup (Text.segments '.' path)

def contains (r : Registry) (path : String) : Bool := (r.get? path).isSome

def put (r : Registry) (id : String) (value : Value) : Registry :=
  { r with values := r.values.insert id value }

/-- Binds a name to the root of an included document, and hangs its registry under it. -/
def bindInclude (r : Registry) (id : String) (value : Value) (registry : Registry) : Registry where
  values := r.values.insert id value
  includes := r.includes.insert id registry

def remove (r : Registry) (id : String) : Registry where
  values := r.values.erase id
  includes := r.includes.erase id

/-- The names bound here, not counting those of inclusions. -/
def ids (r : Registry) : List String := r.values.keys

def size (r : Registry) : Nat := r.values.size

def sortedIds (r : Registry) : List String := r.ids.mergeSort fun a b => a ≤ b

theorem get?_of_plain (names : Registry) {id : String} (hid : '.' ∉ id.toList) :
    names.get? id = names.values.get? id := by
  simp only [get?, Text.segments, Text.pieces_of_not_mem hid]
  simp [lookup]

/-- A path whose first part names an inclusion goes on in the inclusion. -/
theorem get?_append (names : Registry) {id : String} (hid : '.' ∉ id.toList)
    (path : String) : names.get? (id ++ "." ++ path) =
      (names.child? id).bind fun child => child.get? path := by
  obtain ⟨segment, rest, hsegments⟩ := List.exists_cons_of_ne_nil
    (Text.pieces_ne_nil '.' path.toList)
  have hlist : (id ++ "." ++ path).toList = id.toList ++ '.' :: path.toList := by
    rw [String.toList_append, String.toList_append, List.append_assoc]
    rfl
  simp only [get?, Text.segments, hlist, Text.pieces_append hid, hsegments, List.map_cons,
    String.ofList_toList]
  rw [lookup]
  intro h
  cases h

end Registry

end ObjectMarkup
