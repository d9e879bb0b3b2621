import ObjectMarkup.Object

namespace ObjectMarkup

/-- All objects, in the order in which they were made. Objects are only ever added, so an identity
stays good. -/
structure Heap where
  objects : List Object
  deriving DecidableEq, Repr, Inhabited

namespace Heap

def empty : Heap := ⟨[]⟩

def size (h : Heap) : Nat := h.objects.length

def object (h : Heap) (id : ObjectId) : Object := h.objects[id.index]?.getD default

def update (h : Heap) (id : ObjectId) (o : Object) : Heap := ⟨h.objects.set id.index o⟩

def extend (h : Heap) (os : List Object) : Heap := ⟨h.objects ++ os⟩

def typeName (h : Heap) (id : ObjectId) : String := (h.object id).typeName

def label (h : Heap) (value : Value) : String := value.label h.typeName

/-- The name of a value's kind while an object is being changed. Such an object does not tell its
type. -/
def labelDuring (h : Heap) (busy : ObjectId) (value : Value) : String :=
  value.label fun id => if id = busy then "<borrowed>" else h.typeName id

def put (h : Heap) (id : ObjectId) (name : String) (value : Value) : Except PropertyError Heap :=
  ((h.object id).put name (h.labelDuring id value) value).map (h.update id)

/-- Adds an item to an object that is a sequence; `none` for other objects. -/
def addItem? (h : Heap) (id : ObjectId) (value : Value) : Option (Except PropertyError Heap) :=
  let o := h.object id
  o.sequence.map fun s =>
    (s.add o.typeName (h.labelDuring id value) value).map fun s =>
      h.update id { o with sequence := some s }

/-- Adds a listener to an object that is a listener list; `none` for other objects. -/
def addListener? (h : Heap) (id listener : ObjectId) : Option Heap :=
  let o := h.object id
  o.listeners.map fun ls => h.update id { o with listeners := some (ls ++ [listener]) }

/-- Drops every occurrence of a listener from an object that is a listener list, and tells whether
there was one; `none` for other objects. -/
def removeListener? (h : Heap) (id listener : ObjectId) : Option (Bool × Heap) :=
  let o := h.object id
  o.listeners.map fun ls =>
    (decide (listener ∈ ls), h.update id { o with listeners := some (ls.filter (· ≠ listener)) })

/-- Stores an entry of an object that is a dictionary, and gives the value that it replaces; `none`
for other objects. -/
def putEntry? (h : Heap) (id : ObjectId) (key : String) (value : Value) :
    Option (Option Value × Heap) :=
  let o := h.object id
  o.dictionary.map fun m =>
    (m.get? key, h.update id { o with dictionary := some (m.insert key value) })

/-- Drops an entry of an object that is a dictionary, and gives its value; `none` for other
objects. -/
def removeEntry? (h : Heap) (id : ObjectId) (key : String) : Option (Option Value × Heap) :=
  let o := h.object id
  o.dictionary.map fun m =>
    (m.get? key, h.update id { o with dictionary := some (m.erase key) })

theorem object_update (h : Heap) (id other : ObjectId) (o : Object) :
    (h.update id o).object other =
      if id = other ∧ id.index < h.size then o else h.object other := by
  obtain ⟨i⟩ := id
  obtain ⟨j⟩ := other
  by_cases hij : i = j
  · subst hij
    by_cases hi : i < h.objects.length
    · simp [object, update, size, hi]
    · simp [object, update, size, hi]
  · simp [object, update, hij]

theorem update_of_size_le {h : Heap} {id : ObjectId} (hid : h.size ≤ id.index) (o : Object) :
    h.update id o = h := by
  simp [update, List.set_eq_of_length_le hid]

theorem update_self (h : Heap) (id : ObjectId) : h.update id (h.object id) = h := by
  by_cases hid : id.index < h.objects.length
  · simp [update, object, hid]
  · exact update_of_size_le (Nat.le_of_not_lt hid) _

@[simp] theorem update_update (h : Heap) (id : ObjectId) (o new : Object) :
    (h.update id o).update id new = h.update id new := by
  simp [update]

theorem update_comm (h : Heap) {id other : ObjectId} (hne : id ≠ other) (o new : Object) :
    (h.update id o).update other new = (h.update other new).update id o := by
  obtain ⟨i⟩ := id
  obtain ⟨j⟩ := other
  have hindex : i ≠ j := fun h => hne (congrArg ObjectId.mk h)
  simp only [update, List.set_comm o new hindex]

theorem object_extend_of_lt {h : Heap} {os : List Object} {id : ObjectId}
    (hid : id.index < h.size) : (h.extend os).object id = h.object id := by
  simp only [size] at hid
  simp [object, extend, List.getElem?_append, hid]

@[simp] theorem size_update (h : Heap) (id : ObjectId) (o : Object) :
    (h.update id o).size = h.size := by
  simp [size, update]

@[simp] theorem size_extend (h : Heap) (os : List Object) :
    (h.extend os).size = h.size + os.length := by
  simp [size, extend]

@[simp] theorem extend_nil (h : Heap) : h.extend [] = h := by
  simp [extend]

@[simp] theorem extend_extend (h : Heap) (os ps : List Object) :
    (h.extend os).extend ps = h.extend (os ++ ps) := by
  simp [extend]

/-- The first object that was added has the identity after those that were there. -/
@[simp] theorem object_extend_size (h : Heap) (o : Object) (os : List Object) :
    (h.extend (o :: os)).object ⟨h.size⟩ = o := by
  simp [object, extend, size]

@[simp] theorem update_extend_size (h : Heap) (o new : Object) (os : List Object) :
    (h.extend (o :: os)).update ⟨h.size⟩ new = h.extend (new :: os) := by
  simp [update, extend, size]

end Heap

end ObjectMarkup
