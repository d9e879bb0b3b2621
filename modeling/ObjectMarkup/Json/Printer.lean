import ObjectMarkup.Json.Basic
import ObjectMarkup.Number.Layout

namespace ObjectMarkup.Json

def hexDigit (n : Nat) : Char := if n < 10 then Char.ofNat (48 + n) else Char.ofNat (87 + n)

/-- How a character is written inside a string. Only the quote, the backslash and control
characters are escaped. -/
def escaped (c : Char) : List Char :=
  if c = '"' then ['\\', '"']
  else if c = '\\' then ['\\', '\\']
  else if c = '\n' then ['\\', 'n']
  else if c = '\r' then ['\\', 'r']
  else if c = '\t' then ['\\', 't']
  else if c = '\x08' then ['\\', 'b']
  else if c = '\x0c' then ['\\', 'f']
  else if c.toNat < 0x20 then
    ['\\', 'u', '0', '0', hexDigit (c.toNat / 16), hexDigit (c.toNat % 16)]
  else [c]

def quoted (s : String) : List Char := '"' :: s.toList.flatMap escaped ++ ['"']

def newline (level : Nat) : List Char := '\n' :: List.replicate (2 * level) ' '

def inNameOrder (members : List (String × List Char)) : List (String × List Char) :=
  members.mergeSort fun a b => a.1 ≤ b.1

def bracketed (level : Nat) (opening closing : Char) (parts : List (List Char)) : List Char :=
  if parts.isEmpty then [opening, closing]
  else
    let separator := ',' :: newline (level + 1)
    opening :: newline (level + 1) ++ List.intercalate separator parts ++
      newline level ++ [closing]

mutual

def write (level : Nat) : Json → List Char
  | .null => "null".toList
  | .boolean b => (if b then "true" else "false").toList
  | .integer n => intText n
  | .double x => x.jsonText.getD "null".toList
  | .string s => quoted s
  | .array items => bracketed level '[' ']' (writeItems (level + 1) items)
  | .object ⟨members⟩ =>
    bracketed level '\x7b' '\x7d' <|
      (inNameOrder (writeMembers (level + 1) members)).map fun m => quoted m.1 ++ ": ".toList ++ m.2
termination_by structural j => j

def writeItems (level : Nat) : List Json → List (List Char)
  | [] => []
  | j :: rest => write level j :: writeItems level rest
termination_by structural js => js

def writeMembers (level : Nat) : List (String × Json) → List (String × List Char)
  | [] => []
  | (name, j) :: rest => (name, write level j) :: writeMembers level rest
termination_by structural ms => ms

end

/-- The text of a value on several lines, with two spaces for each level and the members of an
object in the order of their names. -/
def pretty (j : Json) : String := String.ofList (write 0 j)

end ObjectMarkup.Json
