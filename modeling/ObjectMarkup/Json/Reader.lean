import ObjectMarkup.Json.Basic
import ObjectMarkup.Number.Numeral
import ObjectMarkup.Text.Utf8

namespace ObjectMarkup.Json

def skipSpace (cs : List Char) : List Char :=
  cs.dropWhile fun c => c == ' ' || c == '\n' || c == '\t' || c == '\r'

def hexUnit : List Char → Option (Nat × List Char)
  | a :: b :: c :: d :: rest =>
    match hexDigit? a, hexDigit? b, hexDigit? c, hexDigit? d with
    | some a, some b, some c, some d => some (((a * 16 + b) * 16 + c) * 16 + d, rest)
    | _, _, _, _ => none
  | _ => none

/-- The character after `\u`: one unit, or a leading and a trailing surrogate. -/
def unicodeEscape (cs : List Char) : Option (Char × List Char) := do
  let (unit, rest) ← hexUnit cs
  if unit < 0xD800 ∨ 0xE000 ≤ unit then
    return (Char.ofNat unit, rest)
  if 0xDC00 ≤ unit then none
  match rest with
  | '\\' :: 'u' :: rest =>
    let (trail, rest) ← hexUnit rest
    if 0xDC00 ≤ trail ∧ trail < 0xE000 then
      return (Char.ofNat (0x10000 + (unit - 0xD800) * 0x400 + (trail - 0xDC00)), rest)
    else none
  | _ => none

def escape : List Char → Option (Char × List Char)
  | '"' :: rest => some ('"', rest)
  | '\\' :: rest => some ('\\', rest)
  | '/' :: rest => some ('/', rest)
  | 'b' :: rest => some ('\x08', rest)
  | 'f' :: rest => some ('\x0c', rest)
  | 'n' :: rest => some ('\n', rest)
  | 'r' :: rest => some ('\r', rest)
  | 't' :: rest => some ('\t', rest)
  | 'u' :: rest => unicodeEscape rest
  | _ => none

/-- The rest of a string after its opening quote; `fuel` bounds the characters read. -/
def stringBody : Nat → List Char → Option (List Char × List Char)
  | 0, _ => none
  | _ + 1, [] => none
  | _ + 1, '"' :: rest => some ([], rest)
  | fuel + 1, '\\' :: rest => do
    let (c, rest) ← escape rest
    let (cs, rest) ← stringBody fuel rest
    return (c :: cs, rest)
  | fuel + 1, c :: rest => do
    if c.toNat < 0x20 then none
    let (cs, rest) ← stringBody fuel rest
    return (c :: cs, rest)

def maxUnsigned : Nat := 0xFFFFFFFFFFFFFFFF

def maxNegative : Nat := 0x8000000000000000

/-- Takes digits into a significand while it fits an unsigned word, and counts the rest. -/
def takeDigits (significand : Nat) : List Char → Nat × Nat
  | [] => (significand, 0)
  | d :: digits =>
    let next := significand * 10 + (d.toNat - 48)
    if next ≤ maxUnsigned then takeDigits next digits else (significand, digits.length + 1)

def powerOfTen (n : Nat) : Binary .double := .ofRatio false (Nat.pow 10 n) 1

/-- Divides by a power of ten, at most `10 ^ 308` at a time. -/
def divideByTen : Nat → Binary .double → Nat → Binary .double
  | 0, x, _ => x
  | fuel + 1, x, n =>
    if n ≤ 308 then x.div (powerOfTen n)
    else if x.isZero then x
    else divideByTen fuel (x.div (powerOfTen 308)) (n - 308)

/-- The double for a significand and a decimal exponent; `none` where it would be infinite. Four
divisions bring every significand to zero. -/
def double? (negative : Bool) (significand : Nat) (exponent : Int) : Option Json :=
  let x : Binary .double := .ofRatio negative significand 1
  if exponent < 0 then some (.double (divideByTen 4 x (-exponent).toNat))
  else if exponent ≤ 308 then
    let y := x.mul (powerOfTen exponent.toNat)
    if y.isInfinite then none else some (.double y)
  else if significand = 0 then some (.double x)
  else none

def exponentPart (cs : List Char) : Option (Int × List Char) :=
  let (negative, rest) := match cs with
    | '-' :: rest => (true, rest)
    | '+' :: rest => (false, rest)
    | cs => (false, cs)
  let digits := rest.takeWhile Char.isDigit
  let n : Int := Nat.ofDigitChars 10 digits 0
  if digits.isEmpty then none
  else some (if negative then -n else n, rest.dropWhile Char.isDigit)

/-- A number. A whole number keeps its value where it fits a word, unsigned without a sign and
signed with one; a minus zero is a double. -/
def number (cs : List Char) : Option (Json × List Char) := do
  let (negative, cs) := match cs with
    | '-' :: rest => (true, rest)
    | cs => (false, cs)
  let whole := cs.takeWhile Char.isDigit
  let rest := cs.dropWhile Char.isDigit
  if whole.isEmpty ∨ whole.head? = some '0' ∧ 1 < whole.length then none
  let (significand, unread) := takeDigits 0 whole
  let (significand, exponent, isWhole, rest) ← match rest with
    | '.' :: rest =>
      let fraction := rest.takeWhile Char.isDigit
      let (significand, dropped) := takeDigits significand fraction
      if fraction.isEmpty then none
      else
        some (significand, (unread : Int) - (fraction.length - dropped), false,
          rest.dropWhile Char.isDigit)
    | rest => some (significand, (unread : Int), unread = 0, rest)
  match rest with
  | 'e' :: rest => finish negative significand exponent (exponentPart rest)
  | 'E' :: rest => finish negative significand exponent (exponentPart rest)
  | rest =>
    if isWhole ∧ !negative then
      return (.integer significand, rest)
    else if isWhole ∧ 0 < significand ∧ significand ≤ maxNegative then
      return (.integer (-(significand : Int)), rest)
    else
      (double? negative significand exponent).map fun x => (x, rest)
where
  finish (negative : Bool) (significand : Nat) (exponent : Int) :
      Option (Int × List Char) → Option (Json × List Char)
    | none => none
    | some (n, rest) => (double? negative significand (exponent + n)).map fun x => (x, rest)

mutual

/-- A value at the head of the text; `depth` is how many more containers may be open. Of members
with one name the last counts. -/
def value : Nat → Nat → List Char → Option (Json × List Char)
  | 0, _, _ => none
  | fuel + 1, depth, cs =>
    match skipSpace cs with
    | 'n' :: 'u' :: 'l' :: 'l' :: rest => some (.null, rest)
    | 't' :: 'r' :: 'u' :: 'e' :: rest => some (.boolean true, rest)
    | 'f' :: 'a' :: 'l' :: 's' :: 'e' :: rest => some (.boolean false, rest)
    | '"' :: rest =>
      (stringBody (rest.length + 1) rest).map fun (s, rest) => (.string (String.ofList s), rest)
    | '[' :: rest =>
      if depth = 0 then none
      else match skipSpace rest with
        | ']' :: rest => some (.array [], rest)
        | rest => (items fuel (depth - 1) rest).map fun (js, rest) => (.array js, rest)
    | '\x7b' :: rest =>
      if depth = 0 then none
      else match skipSpace rest with
        | '\x7d' :: rest => some (.object .empty, rest)
        | rest =>
          (members fuel (depth - 1) rest).map fun (ms, rest) => (.object (.ofList ms), rest)
    | cs => number cs

def items : Nat → Nat → List Char → Option (List Json × List Char)
  | 0, _, _ => none
  | fuel + 1, depth, cs =>
    match value fuel depth cs with
    | none => none
    | some (j, rest) =>
      match skipSpace rest with
      | ',' :: rest => (items fuel depth rest).map fun (js, rest) => (j :: js, rest)
      | ']' :: rest => some ([j], rest)
      | _ => none

def members : Nat → Nat → List Char → Option (List (String × Json) × List Char)
  | 0, _, _ => none
  | fuel + 1, depth, cs =>
    match skipSpace cs with
    | '"' :: rest =>
      match stringBody (rest.length + 1) rest with
      | none => none
      | some (name, rest) =>
        match skipSpace rest with
        | ':' :: rest =>
          match value fuel depth rest with
          | none => none
          | some (j, rest) =>
            let member := (String.ofList name, j)
            match skipSpace rest with
            | ',' :: rest => (members fuel depth rest).map fun (ms, rest) => (member :: ms, rest)
            | '\x7d' :: rest => some ([member], rest)
            | _ => none
        | _ => none
    | _ => none

end

def maxDepth : Nat := 127

def ofText? (cs : List Char) : Option Json :=
  match value (2 * cs.length + 2) maxDepth cs with
  | some (j, rest) => if (skipSpace rest).isEmpty then some j else none
  | none => none

def ofBytes? (bytes : Bytes) : Option Json :=
  match Text.decode bytes with
  | .ok cs => ofText? cs
  | .error _ => none

end ObjectMarkup.Json
