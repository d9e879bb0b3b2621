import ObjectMarkup.Number.Numeral
import ObjectMarkup.Unicode.Printable

namespace ObjectMarkup.Text

def hexText (n : Nat) : List Char := Nat.toDigits 16 n

/-- How a character is written inside quotes. What cannot be seen is written by number. -/
def visible (c : Char) : List Char :=
  if c = '"' then ['\\', '"']
  else if c = '\\' then ['\\', '\\']
  else if c = '\n' then ['\\', 'n']
  else if c = '\r' then ['\\', 'r']
  else if c = '\t' then ['\\', 't']
  else if c.toNat = 0 then ['\\', '0']
  else if Unicode.isPrintable c then [c]
  else ['\\', 'u', '\x7b'] ++ hexText c.toNat ++ ['\x7d']

def quoted (s : String) : String :=
  String.ofList ('"' :: s.toList.flatMap visible ++ ['"'])

end ObjectMarkup.Text
