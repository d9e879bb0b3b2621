import ObjectMarkup.Number.Binary

namespace ObjectMarkup

/-- The number that decimal digits denote; `none` for no digits or for anything but digits. -/
def readDigits (cs : List Char) : Option Nat :=
  if !cs.isEmpty && cs.all Char.isDigit then some (Nat.ofDigitChars 10 cs 0) else none

def hexDigit? (c : Char) : Option Nat :=
  if '0' ≤ c ∧ c ≤ '9' then some (c.toNat - 48)
  else if 'a' ≤ c ∧ c ≤ 'f' then some (c.toNat - 87)
  else if 'A' ≤ c ∧ c ≤ 'F' then some (c.toNat - 55)
  else none

/-- The number that hexadecimal digits denote; `none` for no digits or for anything else. -/
def readHex (cs : List Char) : Option Nat :=
  if cs.isEmpty then none
  else (cs.mapM hexDigit?).map fun ds => ds.foldl (fun n d => n * 16 + d) 0

/-- Splits a sign off; the flag says whether it is a minus. -/
def splitSign : List Char → Bool × List Char
  | '-' :: rest => (true, rest)
  | '+' :: rest => (false, rest)
  | cs => (false, cs)

/-- The whole number that a text denotes, if it has a numeral's form: digits of ASCII, perhaps
behind a sign, and nothing around them. -/
def readInt (cs : List Char) : Option Int :=
  let (negative, digits) := splitSign cs
  (readDigits digits).map fun n => if negative then -(n : Int) else n

/-- The whole number that a text denotes, if it lies within the given width. -/
def readIntWithin (bits : Nat) (cs : List Char) : Option Int :=
  let bound : Int := Nat.pow 2 (bits - 1)
  (readInt cs).filter fun n => -bound ≤ n ∧ n < bound

/-- Significand and exponent of a text such as `12.5e3`: digits with at most one point among them,
at least one digit, and an exponent after an `e`. -/
def readDecimal (cs : List Char) : Option (Nat × Int) :=
  let whole := cs.takeWhile Char.isDigit
  let rest := cs.dropWhile Char.isDigit
  let (fraction, rest) := match rest with
    | '.' :: rest => (rest.takeWhile Char.isDigit, rest.dropWhile Char.isDigit)
    | rest => ([], rest)
  (readDigits (whole ++ fraction)).bind fun significand =>
    match rest with
    | [] => some (significand, -fraction.length)
    | e :: rest =>
      if e = 'e' ∨ e = 'E' then
        (readInt rest).map fun n => (significand, n - fraction.length)
      else
        none

/-- The floating-point number nearest to what a text denotes. Words for infinity and for no number
count in any case of letters. -/
def readBinary (f : BinaryFormat) (cs : List Char) : Option (Binary f) :=
  let (negative, rest) := splitSign cs
  let word := String.ofList (rest.map Char.toLower)
  if word = "inf" ∨ word = "infinity" then some (.infinity negative)
  else if word = "nan" then some (.nan negative)
  else (readDecimal rest).map fun (significand, exponent) =>
    .ofDecimal negative significand exponent

end ObjectMarkup
