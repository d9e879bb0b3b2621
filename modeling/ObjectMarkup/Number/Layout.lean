import ObjectMarkup.Number.Shortest

namespace ObjectMarkup

def digitsOf (n : Nat) : List Char := Nat.toDigits 10 n

/-- The digits with a point after the first `point` of them, padded with zeros where it lies
outside them. No point is written after the last digit. -/
def positional (digits : List Char) (point : Int) : List Char :=
  if point ≤ 0 then
    '0' :: '.' :: List.replicate (-point).toNat '0' ++ digits
  else if digits.length ≤ point.toNat then
    digits ++ List.replicate (point.toNat - digits.length) '0'
  else
    digits.take point.toNat ++ '.' :: digits.drop point.toNat

def signText (negative : Bool) : List Char := if negative then ['-'] else []

def intText (n : Int) : List Char := signText (n < 0) ++ digitsOf n.natAbs

namespace Binary

variable {f : BinaryFormat}

/-- The fewest digits that read back, never with an exponent, and without a point for whole
numbers. Of two equally near texts the greater is taken. -/
def plainText (x : Binary f) : List Char :=
  match x.magnitude with
  | .notANumber => "NaN".toList
  | .infinite => signText x.isNegative ++ "inf".toList
  | .finite 0 _ => signText x.isNegative ++ ['0']
  | .finite m e =>
    let d := f.shortest .up m e
    let digits := digitsOf d.digits
    signText x.isNegative ++ positional digits (digits.length + d.exponent)

/-- The digits as one before the point and the rest after it, with an exponent. -/
def scientific (digits : List Char) (exponent : Int) : List Char :=
  let fraction := digits.drop 1
  digits.take 1 ++ (if fraction.isEmpty then [] else '.' :: fraction) ++
    'e' :: (if exponent < 0 then '-' else '+') :: digitsOf exponent.natAbs

/-- The number in JSON: the fewest digits that read back, positional with at least one digit after
the point where the first digit's exponent is from -5 to 15, and with an exponent elsewhere. What
is not finite has no form. -/
def jsonText (x : Binary f) : Option (List Char) :=
  match x.magnitude with
  | .notANumber => none
  | .infinite => none
  | .finite 0 _ => some (signText x.isNegative ++ "0.0".toList)
  | .finite m e =>
    let d := f.shortest .even m e
    let digits := digitsOf d.digits
    let point := digits.length + d.exponent
    let body :=
      if -5 < point ∧ point ≤ 16 then
        positional digits point ++ (if digits.length ≤ point then ".0".toList else [])
      else
        scientific digits (point - 1)
    some (signText x.isNegative ++ body)

end Binary

end ObjectMarkup
