import LayerTree.Scalar.Double

/-!
The fewest decimal digits that read back as a given float.

A float stands for every real that rounds to it. The digits of the float are the first decimal
grid, from one digit to seventeen, that has a point among those reals: of two such points the
nearer one, and the even one when both are as near.
-/

set_option autoImplicit false
set_option relaxedAutoImplicit false

namespace LayerTree.Decimal

/-- The integer `digits` times a power of ten. -/
structure Scaled where
  digits : Nat
  exponent : Int

/-- The reals that round to one positive float, all as numerators over one denominator. -/
structure RoundingInterval where
  low : Nat
  mid : Nat
  high : Nat
  denominator : Nat
  /-- Whether the two ends round to the float as well. -/
  closed : Bool

namespace RoundingInterval

/-- The gap below a power of two is half as wide as the gap above, except at the smallest normal. -/
def ofParts (mantissa : Nat) (exponent : Int) : RoundingInterval :=
  let below := if mantissa == Nat.pow 2 52 && exponent != -1074 then 1 else 2
  let up := Nat.pow 2 (exponent - 2).toNat
  { low := (4 * mantissa - below) * up
    mid := 4 * mantissa * up
    high := (4 * mantissa + 2) * up
    denominator := Nat.pow 2 (2 - exponent).toNat
    closed := mantissa % 2 == 0 }

/-- Whether `digits * 10 ^ exponent` lies in the interval. -/
def contains (r : RoundingInterval) (exponent : Int) (digits : Nat) : Bool :=
  let point := digits * Nat.pow 10 exponent.toNat * r.denominator
  let down := Nat.pow 10 (-exponent).toNat
  if r.closed then r.low * down ≤ point && point ≤ r.high * down
  else r.low * down < point && point < r.high * down

/-- The largest multiple of `10 ^ exponent` that is not above the middle. -/
def gridFloor (r : RoundingInterval) (exponent : Int) : Nat :=
  r.mid * Nat.pow 10 (-exponent).toNat / (Nat.pow 10 exponent.toNat * r.denominator)

/-- Whether the upper neighbour of the middle is the better one of the two on this grid. -/
def prefersUpper (r : RoundingInterval) (exponent : Int) (lower : Nat) : Bool :=
  let twice := (2 * lower + 1) * Nat.pow 10 exponent.toNat * r.denominator
  let mid := 2 * r.mid * Nat.pow 10 (-exponent).toNat
  twice < mid || (twice == mid && lower % 2 == 1)

/-- The point of the grid `10 ^ exponent` that stands for the float, if one lies in the interval. -/
def onGrid (r : RoundingInterval) (exponent : Int) : Option Nat :=
  let lower := r.gridFloor exponent
  match r.contains exponent lower, r.contains exponent (lower + 1) with
  | false, false => none
  | true, false => some lower
  | false, true => some (lower + 1)
  | true, true => some (if r.prefersUpper exponent lower then lower + 1 else lower)

/-- The number of digits before the point; zero or less for what starts further right. -/
def magnitude (r : RoundingInterval) : Int :=
  let guess : Int := (Nat.toDigits 10 r.mid).length - (Nat.toDigits 10 r.denominator).length
  if r.mid * Nat.pow 10 (-guess).toNat < r.denominator * Nat.pow 10 guess.toNat then guess
  else guess + 1

/-- The first hit among the grids of `count`, `count + 1`, … digits, for `grids` of them. -/
def search (r : RoundingInterval) : Nat → Nat → Scaled
  | 0, count => ⟨r.gridFloor (r.magnitude - count), r.magnitude - count⟩
  | grids + 1, count =>
    match r.onGrid (r.magnitude - count) with
    | some digits => ⟨digits, r.magnitude - count⟩
    | none => search r grids (count + 1)

end RoundingInterval

/-- Moves the zeros at the end of the digits into the exponent, at most `fuel` of them. -/
def Scaled.trim : Nat → Scaled → Scaled
  | 0, s => s
  | fuel + 1, s =>
    if s.digits != 0 && s.digits % 10 == 0 then Scaled.trim fuel ⟨s.digits / 10, s.exponent + 1⟩
    else s

/-- The shortest digits of a finite float, its sign apart. -/
def shortest (x : Float) : Scaled :=
  let parts := FloatParts.ofFloat x
  if parts.mantissa == 0 then ⟨0, 0⟩
  else Scaled.trim 20 ((RoundingInterval.ofParts parts.mantissa parts.exponent).search 17 1)

end LayerTree.Decimal
