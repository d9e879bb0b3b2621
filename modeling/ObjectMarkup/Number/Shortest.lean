import ObjectMarkup.Number.Binary

namespace ObjectMarkup

/-- Which of two equally near decimals is taken. -/
inductive DecimalTie where
  | up
  | even
  deriving DecidableEq, Repr

/-- The decimal number `digits * 10 ^ exponent`. -/
structure Decimal where
  digits : Nat
  exponent : Int
  deriving DecidableEq, Repr

namespace Decimal

/-- Moves zeros at the end of the digits into the exponent, at most `fuel` of them. -/
def stripZeros : Nat → Decimal → Decimal
  | 0, d => d
  | fuel + 1, d =>
    if d.digits ≠ 0 ∧ d.digits % 10 = 0 then stripZeros fuel ⟨d.digits / 10, d.exponent + 1⟩ else d

end Decimal

/-- The reals that round to a number: four times its significand and the distances to both ends,
all in units of `2 ^ unit`, and whether the ends round to it too. -/
structure RoundingInterval where
  middle : Nat
  below : Nat
  above : Nat
  unit : Int
  closed : Bool

/-- The interval of `significand * 2 ^ exponent`. Below a power of two the gap to the next smaller
number is half as wide, except at the foot of the format. -/
def BinaryFormat.interval (f : BinaryFormat) (significand : Nat) (exponent : Int) :
    RoundingInterval where
  middle := 4 * significand
  below := if significand = Nat.pow 2 f.fractionBits ∧ -(f.scale : Int) < exponent then 1 else 2
  above := 2
  unit := exponent - 2
  closed := significand % 2 = 0

namespace RoundingInterval

/-- The number of digits before the point of the middle, negative for zeros after it. -/
def decimalPoint (i : RoundingInterval) : Int :=
  let scaled := i.middle * Nat.pow 2 i.unit.toNat * Nat.pow 10 400 / Nat.pow 2 (-i.unit).toNat
  (Nat.toDigits 10 scaled).length - 400

/-- The decimal of the grid `10 ^ grid` that represents the interval, if one lies in it. The middle
lies between two neighbours on the grid, of which the nearer wins. -/
def onGrid (i : RoundingInterval) (tie : DecimalTie) (grid : Int) : Option Nat :=
  let unitWeight := Nat.pow 2 i.unit.toNat * Nat.pow 10 (-grid).toNat
  let step := Nat.pow 2 (-i.unit).toNat * Nat.pow 10 grid.toNat
  let middle := i.middle * unitWeight
  let low := middle - i.below * unitWeight
  let high := middle + i.above * unitWeight
  let floor := middle / step
  let down := floor * step
  let up := (floor + 1) * step
  let downHolds := if i.closed then low ≤ down else low < down
  let upHolds := if i.closed then up ≤ high else up < high
  if downHolds ∧ upHolds then
    if middle - down < up - middle then some floor
    else if up - middle < middle - down then some (floor + 1)
    else match tie with
      | .up => some (floor + 1)
      | .even => some (if floor % 2 = 0 then floor else floor + 1)
  else if downHolds then some floor
  else if upHolds then some (floor + 1)
  else none

/-- The first grid with a hit, from `digits` digits on, trying at most `fuel` grids. -/
def search (i : RoundingInterval) (tie : DecimalTie) (point : Int) : Nat → Nat → Decimal
  | 0, digits => ⟨i.middle, point - digits⟩
  | fuel + 1, digits =>
    match i.onGrid tie (point - digits) with
    | some n => ⟨n, point - digits⟩
    | none => search i tie point fuel (digits + 1)

end RoundingInterval

/-- The shortest decimal that reads back as `significand * 2 ^ exponent`, without zeros at the end
of its digits. Seventeen digits are enough for both formats. -/
def BinaryFormat.shortest (f : BinaryFormat) (tie : DecimalTie) (significand : Nat)
    (exponent : Int) : Decimal :=
  let i := f.interval significand exponent
  (i.search tie i.decimalPoint 17 1).stripZeros 20

end ObjectMarkup
