import LayerTree.Scalar

/-!
Reading decimal text as the nearest float.

A literal is an optional sign, digits with at most one point among them, and an optional exponent;
at least one digit stands before the exponent.
-/

set_option autoImplicit false
set_option relaxedAutoImplicit false

namespace LayerTree.Decimal

/-- The value `digits * 10 ^ exponent` with a sign. -/
structure Literal where
  negative : Bool
  digits : Nat
  exponent : Int

def digit (c : Char) : Nat := c.toNat - '0'.toNat

/-- The number that the digits write, continuing `start`. -/
def natOf (start : Nat) (cs : List Char) : Nat :=
  cs.foldl (fun n c => 10 * n + digit c) start

/-- The digits at the front of a text, and the rest. -/
def spanDigits (cs : List Char) : List Char × List Char :=
  (cs.takeWhile Char.isDigit, cs.dropWhile Char.isDigit)

/-- An optional sign at the front of a text, and the rest. -/
def spanSign : List Char → Bool × List Char
  | '-' :: rest => (true, rest)
  | '+' :: rest => (false, rest)
  | cs => (false, cs)

def Literal.toFloat (l : Literal) : Float :=
  let size := Float.ofScientific l.digits (l.exponent < 0) l.exponent.natAbs
  if l.negative then -size else size

def spanMantissa (cs : List Char) : List Char × List Char × List Char :=
  let (whole, rest) := spanDigits cs
  match rest with
  | '.' :: rest =>
    let (fraction, rest) := spanDigits rest
    (whole, fraction, rest)
  | _ => (whole, [], rest)

/-- The exponent at the front of a text: absent, or a sign and digits; fails when the digits are
missing. -/
def spanExponent : List Char → Option (Int × List Char)
  | c :: rest =>
    if c == 'e' || c == 'E' then
      let (negative, rest) := spanSign rest
      let (digits, rest) := spanDigits rest
      if digits.isEmpty then none
      else
        let size : Int := natOf 0 digits
        some (if negative then -size else size, rest)
    else some (0, c :: rest)
  | [] => some (0, [])

def scan (cs : List Char) : Option (Literal × List Char) :=
  let (negative, cs) := spanSign cs
  let (whole, fraction, cs) := spanMantissa cs
  if whole.isEmpty && fraction.isEmpty then none
  else
    (spanExponent cs).map fun (exponent, rest) =>
      (⟨negative, natOf (natOf 0 whole) fraction, exponent - fraction.length⟩, rest)

/-- The names of the floats that have no digits, in any case. -/
def readName (cs : List Char) : Option Float :=
  let (negative, cs) := spanSign cs
  let name := String.ofList (cs.map Char.toLower)
  if name == "inf" || name == "infinity" then some (if negative then -1 / 0 else 1 / 0)
  else if name == "nan" then some (0 / 0)
  else none

def read? (cs : List Char) : Option Float :=
  match scan cs with
  | some (literal, []) => some literal.toFloat
  | some (_, _ :: _) => none
  | none => readName cs

end LayerTree.Decimal
