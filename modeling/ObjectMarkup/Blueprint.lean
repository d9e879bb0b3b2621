import ObjectMarkup.Heap

namespace ObjectMarkup

/-- A root with the objects that it owns. References within a blueprint count from its own root, and
none of them leads outside, so that a copy refers to nothing but itself wherever in a heap it is
made. -/
structure Blueprint where
  root : Object
  parts : List Object := []
  closed : ∀ o ∈ root :: parts, ∀ r ∈ o.refs, r.index < parts.length + 1 := by decide

namespace Blueprint

/-- The objects of the blueprint, the root first. -/
def objects (b : Blueprint) : List Object := b.root :: b.parts

/-- The objects of a copy whose root gets the given identity. -/
def copyAt (b : Blueprint) (root : Nat) : List Object :=
  b.objects.map (·.mapRefs fun id => ⟨root + id.index⟩)

end Blueprint

/-- Makes a copy of a blueprint, and gives the identity of its root. -/
def Heap.build (h : Heap) (b : Blueprint) : ObjectId × Heap :=
  (⟨h.size⟩, h.extend (b.copyAt h.size))

end ObjectMarkup
