namespace ObjectMarkup.Unicode

/-- The code points from `first` to `last`, each `step` after the one before. -/
structure Stretch where
  first : Nat
  last : Nat
  step : Nat
  deriving DecidableEq, Repr

def Stretch.holds (s : Stretch) (code : Nat) : Bool :=
  s.first ≤ code && code ≤ s.last && (code - s.first) % s.step == 0

def inStretches (table : List Stretch) (code : Nat) : Bool :=
  table.any fun s => s.holds code

/-- A stretch whose code points all move by one distance. -/
structure Shift extends Stretch where
  distance : Int
  deriving DecidableEq, Repr

/-- Where the table moves a character; one that no row holds stays. -/
def shifted (table : List Shift) (c : Char) : Char :=
  match table.find? fun s => s.holds c.toNat with
  | some s => Char.ofNat (c.toNat + s.distance).toNat
  | none => c

end ObjectMarkup.Unicode
