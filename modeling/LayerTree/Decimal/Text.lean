import LayerTree.Decimal.Shortest

/-!
Two ways of writing a float in decimal: always positional, as path text has it, and with an
exponent where the positional form is long, as data has it.
-/

set_option autoImplicit false
set_option relaxedAutoImplicit false

namespace LayerTree.Decimal

def zeros (count : Nat) : String := String.ofList (List.replicate count '0')

/-- Digits with a point `places` digits from the right, and zeros where digits are missing. -/
def pointed (digits : String) (places : Nat) : String :=
  let cs := digits.toList
  if places < cs.length then
    String.ofList (cs.take (cs.length - places)) ++ "." ++
      String.ofList (cs.drop (cs.length - places))
  else "0." ++ zeros (places - cs.length) ++ digits

def sign (x : Float) : String := if (FloatParts.ofFloat x).negative then "-" else ""

def special (x : Float) : String :=
  if x.isNaN then "NaN" else sign x ++ "inf"

/-- The shortest positional text: no exponent, and no point after an integer. -/
def plain (x : Float) : String :=
  if FloatParts.isSpecial x then special x
  else
    let s := shortest x
    let digits := Nat.repr s.digits
    if 0 ≤ s.exponent then sign x ++ digits ++ zeros s.exponent.toNat
    else sign x ++ pointed digits (-s.exponent).toNat

/-- Digits with a point after the first one and a power of ten. -/
def scientific (digits : String) (power : Int) : String :=
  let cs := digits.toList
  let fraction := if cs.length ≤ 1 then "" else "." ++ String.ofList (cs.drop 1)
  String.ofList (cs.take 1) ++ fraction ++ "e" ++ toString power

/-- The text of a finite float in data: it always shows a point or an exponent, and is positional
when the first digit stands at most sixteen places left or four places right of the point. -/
def data (x : Float) : String :=
  let s := shortest x
  let digits := Nat.repr s.digits
  let before := (digits.length : Int) + s.exponent
  let body :=
    if s.digits == 0 then "0.0"
    else if 16 < before || before ≤ -5 then scientific digits (before - 1)
    else if 0 ≤ s.exponent then digits ++ zeros s.exponent.toNat ++ ".0"
    else pointed digits (-s.exponent).toNat
  sign x ++ body

end LayerTree.Decimal
