namespace ObjectMarkup

/-- A line and a column, both counted from one, with columns in bytes. -/
structure Location where
  line : Nat
  column : Nat
  deriving DecidableEq, Repr, Inhabited

namespace Location

/-- Goes `offset` bytes on from a place. An offset inside a character stops before it, and one
beyond the end stops at the end. -/
def advance (l : Location) : List Char → Nat → Location
  | [], _ => l
  | c :: rest, offset =>
    if offset < c.utf8Size then l
    else if c = '\n' then advance ⟨l.line + 1, 1⟩ rest (offset - c.utf8Size)
    else advance ⟨l.line, l.column + c.utf8Size⟩ rest (offset - c.utf8Size)

def ofOffset (source : List Char) (offset : Nat) : Location := advance ⟨1, 1⟩ source offset

def display (l : Location) : String := s!"line {l.line}, column {l.column}"

end Location

end ObjectMarkup
