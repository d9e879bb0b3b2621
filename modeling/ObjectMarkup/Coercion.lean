import ObjectMarkup.Number.Numeral
import ObjectMarkup.Property
import ObjectMarkup.Text.Split
import ObjectMarkup.Value

namespace ObjectMarkup

/-- Whether a character at the start of a text gives it a meaning. -/
def isSigil (c : Char) : Bool := c = '@' || c = '%' || c = '$'

/-- The text with a doubled sigil at its start written once. -/
def unescapeSigil (raw : String) : String :=
  match raw.toList with
  | a :: b :: rest => if a = b ∧ isSigil a then String.ofList (b :: rest) else raw
  | _ => raw

/-- The boolean that a word stands for, in any case of letters. -/
def readBoolean (cs : List Char) : Option Bool :=
  let word := String.ofList cs
  if Text.sameLetters word "true" then some true
  else if Text.sameLetters word "false" then some false
  else none

/-- The literal of a type that a text is. White space around it does not count, except for
characters. -/
def literal? (raw : String) : ValueType → Option Value
  | .boolean => (readBoolean (Text.trim raw.toList)).map .boolean
  | .char =>
    match raw.toList with
    | [c] => some (.char c)
    | _ => none
  | .byte => (readIntWithin 8 (Text.trim raw.toList)).map fun n => .byte (.ofInt n)
  | .short => (readIntWithin 16 (Text.trim raw.toList)).map fun n => .short (.ofInt n)
  | .int => (readIntWithin 32 (Text.trim raw.toList)).map fun n => .int (.ofInt n)
  | .long => (readIntWithin 64 (Text.trim raw.toList)).map fun n => .long (.ofInt n)
  | .float => (readBinary .single (Text.trim raw.toList)).map .float
  | .double => (readBinary .double (Text.trim raw.toList)).map .double
  | _ => none

/-- The literal of a type that a text is, or else the text itself. -/
def coerce (raw : String) (target : ValueType) : Value :=
  (literal? raw target).getD (.string (unescapeSigil raw))

end ObjectMarkup
