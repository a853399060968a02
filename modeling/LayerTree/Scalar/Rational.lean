import LayerTree.Scalar
import LayerTree.Scalar.Double

/-!
The exact rational as a scalar, at which statements about layout, colour and animation are read.
-/

set_option autoImplicit false
set_option relaxedAutoImplicit false

namespace LayerTree

namespace Rational

/-- The exact value of a finite float; zero for the floats that have none. -/
def ofFloat (x : Float) : Rat :=
  if FloatParts.isSpecial x then 0
  else
    let parts := FloatParts.ofFloat x
    let size : Rat := parts.mantissa * (2 : Rat) ^ parts.exponent
    if parts.negative then -size else size

def trunc (x : Rat) : Int := if x < 0 then x.ceil else x.floor

def round (x : Rat) : Int :=
  if x < 0 then (x - 1 / 2).ceil else (x + 1 / 2).floor

/-- The remainder of the quotient truncated toward zero. -/
def rem (x y : Rat) : Rat := x - y * trunc (x / y)

/-- The integer part, clamped to what 64 bits hold. -/
def toUInt64 (x : Rat) : UInt64 :=
  UInt64.ofNat (Nat.min (UInt64.size - 1) x.floor.toNat)

end Rational

instance : Scalar Rat where
  zero := 0
  one := 1
  decLt := inferInstance
  decLe := inferInstance
  ofFloat := Rational.ofFloat
  floor x := x.floor
  ceil x := x.ceil
  round x := Rational.round x
  rem := Rational.rem
  toUInt64 := Rational.toUInt64

end LayerTree
