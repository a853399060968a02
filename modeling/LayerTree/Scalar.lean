/-!
The numbers that lengths, offsets, times and channels are computed with.

Layout, colour and animation are written once over `Scalar`; a running program uses 64-bit floats
and exact statements read the same definitions at the rationals. Comparisons are those of the type
itself, so a float that is not a number compares false with everything.
-/

set_option autoImplicit false
set_option relaxedAutoImplicit false

namespace LayerTree

/-- Arithmetic, comparison and rounding of one kind of number. -/
class Scalar (α : Type) extends Add α, Sub α, Mul α, Div α, Neg α, Zero α, One α, NatCast α,
    IntCast α, OfScientific α, LT α, LE α, BEq α where
  decLt : DecidableLT α
  decLe : DecidableLE α
  /-- The value of a finite float. -/
  ofFloat : Float → α
  floor : α → α
  ceil : α → α
  /-- The nearest integer, a half going away from zero. -/
  round : α → α
  /-- The remainder of the quotient truncated toward zero; it has the sign of the dividend. -/
  rem : α → α → α
  /-- The integer part, clamped to what 64 bits hold; zero for what is not a number. -/
  toUInt64 : α → UInt64

attribute [reducible, instance] Scalar.decLt Scalar.decLe

/-- The functions that curves and rotations need; nothing about them is assumed. -/
class Analytic (α : Type) where
  sqrt : α → α
  sin : α → α
  cos : α → α
  tan : α → α
  atan2 : α → α → α
  pow : α → α → α

namespace Scalar

variable {α : Type} [Scalar α]

/-- Whether the value differs from itself. -/
def isNaN (a : α) : Bool := !(a == a)

/-- Whether the value is a number and not infinite: only then is its distance to itself zero. -/
def isFinite (a : α) : Bool := a - a == 0

/-- The larger value, the second of two equal ones; what is not a number gives way. -/
def max (a b : α) : α :=
  if isNaN a then b else if isNaN b then a else if b < a then a else b

/-- The smaller value, the second of two equal ones; what is not a number gives way. -/
def min (a b : α) : α :=
  if isNaN a then b else if isNaN b then a else if a < b then a else b

/-- The value moved into `[lo, hi]`; what is not a number stays. -/
def clamp (lo hi a : α) : α :=
  if a < lo then lo else if hi < a then hi else a

def abs (a : α) : α := if a < 0 then -a else a

/-- The integer part, clamped to what 32 bits hold. -/
def toUInt32 (a : α) : UInt32 :=
  UInt32.ofNat (Nat.min (UInt32.size - 1) (toUInt64 a).toNat)

/-- The integer part, clamped to what a byte holds. -/
def toUInt8 (a : α) : UInt8 :=
  UInt8.ofNat (Nat.min (UInt8.size - 1) (toUInt64 a).toNat)

/-- Whether the value is below zero, or is the zero whose inverse is. -/
def isNegative (a : α) : Bool := decide (a < 0) || (a == 0 && decide (1 / a < 0))

def radians (degrees : α) : α := degrees * 0.017453292519943295

def sum (values : List α) : α := values.foldl (· + ·) 0

end Scalar

end LayerTree
