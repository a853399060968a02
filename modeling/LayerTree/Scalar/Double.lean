import LayerTree.Scalar

/-!
The 64-bit float as a scalar.

Rounding to an integer goes through the 64-bit integer part, which is exact below 2^53; from there
on every float is an integer. The remainder is computed exactly on the integers that two floats
are multiples of a common power of two of.
-/

set_option autoImplicit false
set_option relaxedAutoImplicit false

namespace LayerTree

/-- A finite float as `mantissa * 2 ^ exponent`, its sign apart. -/
structure FloatParts where
  negative : Bool
  mantissa : Nat
  exponent : Int

namespace FloatParts

/-- Splits the bits of a finite float; a subnormal has the exponent of the smallest normal. -/
def ofFloat (x : Float) : FloatParts :=
  let bits := x.toBits.toNat
  let fraction : Nat := bits % Nat.pow 2 52
  let biased : Nat := bits / Nat.pow 2 52 % Nat.pow 2 11
  { negative := bits / Nat.pow 2 63 == 1
    mantissa := if biased == 0 then fraction else fraction + Nat.pow 2 52
    exponent := if biased == 0 then -1074 else (biased : Int) - 1075 }

/-- Whether the bits are those of an infinity or of no number. -/
def isSpecial (x : Float) : Bool := x.toBits.toNat / Nat.pow 2 52 % Nat.pow 2 11 == 2047

/-- The float `mantissa * 2 ^ exponent` of a mantissa below 2^53, exact when it is one. -/
def scaled (mantissa : Nat) (exponent : Int) : Float :=
  if mantissa == 0 then 0
  else
    let shift := Nat.min (52 - mantissa.log2) (exponent + 1074).toNat
    let full := mantissa * Nat.pow 2 shift
    let low := exponent - shift
    if full < Nat.pow 2 52 then Float.ofBits full.toUInt64
    else Float.ofBits ((low + 1075).toNat * Nat.pow 2 52 + (full - Nat.pow 2 52)).toUInt64

end FloatParts

namespace Double

/-- The integer part of a float, toward zero; a zero keeps its sign. -/
def trunc (x : Float) : Float :=
  if x == 0 then x
  else if x < 0 then
    if x ≤ -9007199254740992 then x else -(-x).toUInt64.toFloat
  else if x < 9007199254740992 then x.toUInt64.toFloat
  else x

def floor (x : Float) : Float :=
  let t := trunc x
  if x < t then t - 1 else t

def ceil (x : Float) : Float :=
  let t := trunc x
  if t < x then t + 1 else t

/-- The nearest integer, a half going away from zero. -/
def round (x : Float) : Float :=
  let t := trunc x
  if x - t ≥ 0.5 then t + 1 else if t - x ≥ 0.5 then t - 1 else t

/-- The exact remainder of the quotient truncated toward zero, with the sign of the dividend. -/
def rem (x y : Float) : Float :=
  if FloatParts.isSpecial x || y.isNaN || y == 0 then 0 / 0
  else if FloatParts.isSpecial y then x
  else
    let a := FloatParts.ofFloat x
    let b := FloatParts.ofFloat y
    let low := if a.exponent ≤ b.exponent then a.exponent else b.exponent
    let m := a.mantissa * Nat.pow 2 (a.exponent - low).toNat
    let n := b.mantissa * Nat.pow 2 (b.exponent - low).toNat
    let r := FloatParts.scaled (m % n) low
    if a.negative then -r else r

end Double

instance : Scalar Float where
  zero := 0
  one := 1
  natCast := Float.ofNat
  intCast := Float.ofInt
  decLt := inferInstance
  decLe := inferInstance
  ofFloat := id
  floor := Double.floor
  ceil := Double.ceil
  round := Double.round
  rem := Double.rem
  toUInt64 := Float.toUInt64

instance : Analytic Float where
  sqrt := Float.sqrt
  sin := Float.sin
  cos := Float.cos
  tan := Float.tan
  atan2 := Float.atan2
  pow := Float.pow

end LayerTree
