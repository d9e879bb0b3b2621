namespace ObjectMarkup

/-- The widths of the two fields beside the sign. A finite number is a whole multiple of a power of
two. -/
structure BinaryFormat where
  fractionBits : Nat
  exponentBits : Nat
  deriving DecidableEq, Repr

namespace BinaryFormat

def single : BinaryFormat := ⟨23, 8⟩

def double : BinaryFormat := ⟨52, 11⟩

variable (f : BinaryFormat)

def width : Nat := 1 + f.exponentBits + f.fractionBits

/-- The least positive number is two to the minus this. -/
def scale : Nat := Nat.pow 2 (f.exponentBits - 1) - 2 + f.fractionBits

/-- The bits of infinity, which lie above those of every finite magnitude. -/
def infinityBits : Nat := (Nat.pow 2 f.exponentBits - 1) * Nat.pow 2 f.fractionBits

def signBit : Nat := Nat.pow 2 (f.exponentBits + f.fractionBits)

end BinaryFormat

structure Binary (f : BinaryFormat) where
  bits : BitVec f.width
  deriving DecidableEq, Repr

inductive Magnitude where
  | notANumber
  | infinite
  /-- The whole number times a power of two. -/
  | finite (significand : Nat) (exponent : Int)
  deriving DecidableEq, Repr

namespace Binary

variable {f : BinaryFormat}

def ofFields (negative : Bool) (magnitude : Nat) : Binary f :=
  ⟨BitVec.ofNat f.width ((if negative then f.signBit else 0) + magnitude)⟩

def isNegative (x : Binary f) : Bool := f.signBit ≤ x.bits.toNat

def magnitudeBits (x : Binary f) : Nat := x.bits.toNat % f.signBit

def magnitude (x : Binary f) : Magnitude :=
  let bits := x.magnitudeBits
  let hidden := Nat.pow 2 f.fractionBits
  let field := bits / hidden
  if f.infinityBits < bits then .notANumber
  else if bits = f.infinityBits then .infinite
  else if field = 0 then .finite bits (-f.scale)
  else .finite (bits % hidden + hidden) (field - 1 - f.scale)

def isNaN (x : Binary f) : Bool := f.infinityBits < x.magnitudeBits

/-- Equality of numbers: the zeros are equal, and what is no number equals nothing. -/
def equal (x y : Binary f) : Bool :=
  !x.isNaN && !y.isNaN && (x.bits == y.bits || x.magnitudeBits == 0 && y.magnitudeBits == 0)

def zero (negative : Bool) : Binary f := ofFields negative 0

def infinity (negative : Bool) : Binary f := ofFields negative f.infinityBits

def nan (negative : Bool) : Binary f :=
  ofFields negative (f.infinityBits + Nat.pow 2 (f.fractionBits - 1))

end Binary

/-- The whole number nearest to a quotient; of two equally near ones the even. -/
def nearestEven (num den : Nat) : Nat :=
  let q := num / den
  let r := num % den
  if 2 * r < den then q
  else if den < 2 * r then q + 1
  else if q % 2 = 0 then q else q + 1

/-- The greatest `e` with `2 ^ e ≤ num / den`, for positive arguments. -/
def floorLog2 (num den : Nat) : Int :=
  let e : Int := num.log2 - den.log2
  if den * Nat.pow 2 e.toNat ≤ num * Nat.pow 2 (-e).toNat then e else e - 1

namespace Binary

variable {f : BinaryFormat}

/-- The number nearest to a quotient of whole numbers, of two equally near ones the one with the
even significand. What lies too far out is infinite. -/
def ofRatio (negative : Bool) (num den : Nat) : Binary f :=
  if num = 0 then zero negative
  else
    let exponent := max (-(f.scale : Int)) (floorLog2 num den - f.fractionBits)
    let significand :=
      nearestEven (num * Nat.pow 2 (-exponent).toNat) (den * Nat.pow 2 exponent.toNat)
    let bits := (exponent + f.scale).toNat * Nat.pow 2 f.fractionBits + significand
    ofFields negative (min bits f.infinityBits)

/-- The number nearest to `significand * 10 ^ exponent`. Powers of ten beyond every format are
settled by the number of digits alone. -/
def ofDecimal (negative : Bool) (significand : Nat) (exponent : Int) : Binary f :=
  let reach := (Nat.toDigits 10 significand).length + exponent
  if significand = 0 || reach < -400 then zero negative
  else if 400 < reach then infinity negative
  else ofRatio negative (significand * Nat.pow 10 exponent.toNat) (Nat.pow 10 (-exponent).toNat)

def ofInt (n : Int) : Binary f := ofRatio (n < 0) n.natAbs 1

def mul (x y : Binary f) : Binary f :=
  let negative := x.isNegative != y.isNegative
  match x.magnitude, y.magnitude with
  | .finite m e, .finite n d =>
    ofRatio negative (m * n * Nat.pow 2 (e + d).toNat) (Nat.pow 2 (-(e + d)).toNat)
  | .notANumber, _ => nan false
  | _, .notANumber => nan false
  | .infinite, .finite 0 _ => nan false
  | .finite 0 _, .infinite => nan false
  | _, _ => infinity negative

def div (x y : Binary f) : Binary f :=
  let negative := x.isNegative != y.isNegative
  match x.magnitude, y.magnitude with
  | .notANumber, _ => nan false
  | _, .notANumber => nan false
  | .infinite, .infinite => nan false
  | .finite 0 _, .finite 0 _ => nan false
  | .infinite, .finite _ _ => infinity negative
  | .finite _ _, .infinite => zero negative
  | .finite _ _, .finite 0 _ => infinity negative
  | .finite m e, .finite n d =>
    ofRatio negative (m * Nat.pow 2 (e - d).toNat) (n * Nat.pow 2 (d - e).toNat)

def isInfinite (x : Binary f) : Bool := x.magnitudeBits == f.infinityBits

def isZero (x : Binary f) : Bool := x.magnitudeBits == 0

def convert {g : BinaryFormat} (x : Binary f) : Binary g :=
  match x.magnitude with
  | .notANumber => nan x.isNegative
  | .infinite => infinity x.isNegative
  | .finite m e => ofRatio x.isNegative (m * Nat.pow 2 e.toNat) (Nat.pow 2 (-e).toNat)

end Binary

end ObjectMarkup
