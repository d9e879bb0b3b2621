import ObjectMarkup.Document.Error

namespace ObjectMarkup

/-- The locations of the open documents, the outermost first, and the number of open documents. -/
structure Guard where
  active : List String
  depth : Nat
  deriving DecidableEq, Repr

namespace Guard

def maxDepth : Nat := 64

def idle : Guard := ⟨[], 0⟩

/-- Opens a document. One with a location may not be opened inside itself, and no more than
`maxDepth` may be open at once, with or without a location. -/
def enter (g : Guard) (location : Option String) : Except NestingError Guard :=
  if maxDepth ≤ g.depth then .error (.tooDeep maxDepth)
  else
    match location with
    | none => .ok { g with depth := g.depth + 1 }
    | some l =>
      if l ∈ g.active then .error (.cyclic (g.active ++ [l]))
      else .ok ⟨g.active ++ [l], g.depth + 1⟩

def leave (g : Guard) (location : Option String) : Guard where
  active := if location.isSome then g.active.dropLast else g.active
  depth := g.depth - 1

theorem leave_of_enter {g g' : Guard} {location : Option String}
    (h : g.enter location = .ok g') : g'.leave location = g := by
  obtain ⟨active, depth⟩ := g
  unfold enter at h
  split at h
  · cases h
  · cases location with
    | none => cases h; simp [leave]
    | some l =>
      simp only at h
      split at h
      · cases h
      · cases h; simp [leave]

end Guard

end ObjectMarkup
