import LayerTree.Decimal.Reader
import LayerTree.Json
import LayerTree.Text

/-!
Reading data from text.

A number without point and exponent is an integer when it fits 64 bits. Any other number is a
float: of its digits only those count that fit an unsigned 64-bit integer, and that integer is
scaled by one power of ten, which may differ from the nearest float in the last place. A number
beyond the floats is refused. Lists and records may be nested up to a given depth; a repeated
field keeps its last value.

A document is read byte by byte, each byte being the character of its number: all that structures a
document is ASCII. The characters of a text are put together from their bytes when it is complete.
-/

set_option autoImplicit false
set_option relaxedAutoImplicit false

namespace LayerTree.Json

open Decimal (digit spanDigits spanExponent)

/-- The document that bytes are. -/
def documentOfBytes (bytes : List UInt8) : List Char := bytes.map fun b => Char.ofNat b.toNat

/-- The document that a text is written as, in UTF-8. -/
def documentOf (text : String) : List Char := documentOfBytes text.toUTF8.toList

/-- The text that a document is, when it is one. -/
def textOf? (document : List Char) : Option String :=
  String.fromUTF8? ⟨(document.map fun c => UInt8.ofNat c.toNat).toArray⟩

def nestingLimit : Nat := 127

/-- The characters that may stand between the parts of a text. -/
def isBlank (c : Char) : Bool := c == ' ' || c == '\n' || c == '\t' || c == '\r'

def skipBlanks (cs : List Char) : List Char := cs.dropWhile isBlank

/-- The greatest integer that the digits of a number may reach. -/
def significandLimit : Nat := Nat.pow 2 64 - 1

/-- Appends digits to a significand until it would pass the limit; also how many were taken. -/
def absorb (significand taken : Nat) : List Char → Nat × Nat
  | [] => (significand, taken)
  | c :: rest =>
    let next := 10 * significand + digit c
    if significandLimit < next then (significand, taken) else absorb next (taken + 1) rest

def powerOfTen (exponent : Nat) : Float := Float.ofScientific 1 false exponent

/-- Divides by powers of ten of at most 308 until the exponent is used up or nothing is left. -/
def scaleDown : Nat → Float → Nat → Float
  | 0, x, _ => x
  | steps + 1, x, exponent =>
    if exponent ≤ 308 then x / powerOfTen exponent
    else if x == 0 then x
    else scaleDown steps (x / powerOfTen 308) (exponent - 308)

/-- The float that a significand and a power of ten stand for; `none` beyond the floats. -/
def scale (significand : Nat) (exponent : Int) : Option Float :=
  let x := significand.toUInt64.toFloat
  if exponent < 0 then some (scaleDown 4 x exponent.natAbs)
  else if 308 < exponent then if x == 0 then some x else none
  else
    let y := x * powerOfTen exponent.toNat
    if y.isInf then none else some y

/-- The number with the given sign, integer digits, fraction digits and exponent. -/
def numberOf (negative : Bool) (whole fraction : List Char) (exponent : Int) : Option Number :=
  let (significand, taken) := absorb 0 0 whole
  let (significand, decimals) := absorb significand 0 fraction
  let power := exponent + (whole.length - taken : Nat) - decimals
  (scale significand power).map fun x => .double (if negative then -x else x)

def integerOf (negative : Bool) (whole : List Char) : Option Number :=
  let n := Decimal.natOf 0 whole
  if negative then
    if n != 0 && n ≤ Nat.pow 2 63 then some (.integer (-n)) else numberOf true whole [] 0
  else if n ≤ significandLimit then some (.integer n)
  else numberOf false whole [] 0

/-- A zero stands alone before the point; other numbers do not start with one. -/
def wellFormedWhole : List Char → Bool
  | [] => false
  | '0' :: rest => rest.isEmpty
  | _ => true

/-- A number as written: its sign, its digits before and after the point, and its exponent; none
stands for a number with neither point nor exponent. -/
structure Numeral where
  negative : Bool
  whole : List Char
  fraction : List Char
  exponent : Option Int

/-- The number that a numeral stands for; none beyond the floats. -/
def Numeral.number? (n : Numeral) : Option Number :=
  match n.exponent with
  | none => integerOf n.negative n.whole
  | some exponent => numberOf n.negative n.whole n.fraction exponent

/-- The numeral at the front of a text, and the rest. -/
def scanNumeral (cs : List Char) : Option (Numeral × List Char) :=
  let (negative, cs) := match cs with
    | '-' :: rest => (true, rest)
    | _ => (false, cs)
  let (whole, rest) := spanDigits cs
  if !wellFormedWhole whole then none
  else
    match rest with
    | '.' :: rest =>
      let (fraction, rest) := spanDigits rest
      if fraction.isEmpty then none
      else
        (spanExponent rest).map fun (exponent, rest) =>
          (⟨negative, whole, fraction, some exponent⟩, rest)
    | 'e' :: _ | 'E' :: _ =>
      (spanExponent rest).map fun (exponent, rest) =>
        (⟨negative, whole, [], some exponent⟩, rest)
    | _ => some (⟨negative, whole, [], none⟩, rest)

def scanNumber (cs : List Char) : Option (Number × List Char) :=
  (scanNumeral cs).bind fun (numeral, rest) => numeral.number?.map (·, rest)

def hexDigit? (c : Char) : Option Nat :=
  if c.isDigit then some (digit c)
  else if 'a' ≤ c && c ≤ 'f' then some (c.toNat - 'a'.toNat + 10)
  else if 'A' ≤ c && c ≤ 'F' then some (c.toNat - 'A'.toNat + 10)
  else none

/-- The four hexadecimal digits at the front of a text, and the rest. -/
def scanUnit : List Char → Option (Nat × List Char)
  | a :: b :: c :: d :: rest => do
    let a ← hexDigit? a
    let b ← hexDigit? b
    let c ← hexDigit? c
    let d ← hexDigit? d
    some (((a * 16 + b) * 16 + c) * 16 + d, rest)
  | _ => none

def isHighSurrogate (unit : Nat) : Bool := 0xD800 ≤ unit && unit < 0xDC00

def isLowSurrogate (unit : Nat) : Bool := 0xDC00 ≤ unit && unit < 0xE000

/-- The character of the escape after a backslash and `u`; half of a pair alone is refused. -/
def scanUnicode (cs : List Char) : Option (Char × List Char) :=
  (scanUnit cs).bind fun (unit, rest) =>
    if isLowSurrogate unit then none
    else if isHighSurrogate unit then
      match rest with
      | '\\' :: 'u' :: rest =>
        (scanUnit rest).bind fun (low, rest) =>
          if isLowSurrogate low then
            some (Char.ofNat (0x10000 + (unit - 0xD800) * 0x400 + (low - 0xDC00)), rest)
          else none
      | _ => none
    else some (Char.ofNat unit, rest)

/-- The character of the escape after a backslash, and the rest. -/
def scanEscape : List Char → Option (Char × List Char)
  | '"' :: rest => some ('"', rest)
  | '\\' :: rest => some ('\\', rest)
  | '/' :: rest => some ('/', rest)
  | 'b' :: rest => some ('\x08', rest)
  | 'f' :: rest => some ('\x0c', rest)
  | 'n' :: rest => some ('\n', rest)
  | 'r' :: rest => some ('\r', rest)
  | 't' :: rest => some ('\t', rest)
  | 'u' :: rest => scanUnicode rest
  | _ => none

/-- The rest of a text whose opening quote has been read, the bytes read so far in reverse; `fuel`
bounds its bytes. -/
def scanText : Nat → List Char → List Char → Option (String × List Char)
  | 0, _, _ => none
  | fuel + 1, sofar, cs =>
    match cs with
    | '"' :: rest => (textOf? sofar.reverse).map (·, rest)
    | '\\' :: rest =>
      (scanEscape rest).bind fun (c, rest) =>
        scanText fuel ((documentOf (String.singleton c)).reverse ++ sofar) rest
    | c :: rest => if c.toNat < 0x20 then none else scanText fuel (c :: sofar) rest
    | [] => none

/-- Sets a field, keeping its place when it is there already. -/
def setField (fields : List (String × Value)) (name : String) (value : Value) :
    List (String × Value) :=
  if fields.any (·.1 == name) then
    fields.map fun field => if field.1 == name then (name, value) else field
  else fields ++ [(name, value)]

/-- The fields with the last value of each name, where the name stood first. -/
def distinct (fields : List (String × Value)) : List (String × Value) :=
  fields.foldl (fun sofar field => setField sofar field.1 field.2) []

mutual

/-- The datum at the front of a text, and the rest; `fuel` bounds the work and `depth` the nesting
that is still allowed. -/
def scanValue : Nat → Nat → List Char → Option (Value × List Char)
  | 0, _, _ => none
  | fuel + 1, depth, cs =>
    match skipBlanks cs with
    | 'n' :: rest => (Text.stripStart "ull".toList rest).map (Value.null, ·)
    | 't' :: rest => (Text.stripStart "rue".toList rest).map (Value.bool true, ·)
    | 'f' :: rest => (Text.stripStart "alse".toList rest).map (Value.bool false, ·)
    | '"' :: rest => (scanText fuel [] rest).map fun (s, rest) => (.text s, rest)
    | '[' :: rest =>
      if depth == 0 then none
      else
        match skipBlanks rest with
        | ']' :: rest => some (.list [], rest)
        | _ =>
          (scanItems fuel (depth - 1) [] rest).map fun (items, rest) => (.list items, rest)
    | '\x7b' :: rest =>
      if depth == 0 then none
      else
        match skipBlanks rest with
        | '\x7d' :: rest => some (.record [], rest)
        | _ =>
          (scanFields fuel (depth - 1) [] rest).map fun (fields, rest) =>
            (.record (distinct fields), rest)
    | cs => (scanNumber cs).map fun (n, rest) => (.number n, rest)

/-- The items of a list up to its closing bracket, the items read so far in reverse. -/
def scanItems : Nat → Nat → List Value → List Char → Option (List Value × List Char)
  | 0, _, _, _ => none
  | fuel + 1, depth, sofar, cs =>
    (scanValue fuel depth cs).bind fun (item, rest) =>
      match skipBlanks rest with
      | ',' :: rest => scanItems fuel depth (item :: sofar) rest
      | ']' :: rest => some ((item :: sofar).reverse, rest)
      | _ => none

/-- The fields of a record up to its closing brace, repeated ones included, those read so far in
reverse. -/
def scanFields : Nat → Nat → List (String × Value) → List Char →
    Option (List (String × Value) × List Char)
  | 0, _, _, _ => none
  | fuel + 1, depth, sofar, cs =>
    match skipBlanks cs with
    | '"' :: rest =>
      (scanText fuel [] rest).bind fun (name, rest) =>
        match skipBlanks rest with
        | ':' :: rest =>
          (scanValue fuel depth rest).bind fun (value, rest) =>
            match skipBlanks rest with
            | ',' :: rest => scanFields fuel depth ((name, value) :: sofar) rest
            | '\x7d' :: rest => some (((name, value) :: sofar).reverse, rest)
            | _ => none
        | _ => none
    | _ => none

end

/-- The datum that a whole document writes, with at most `depth` levels of nesting. -/
def readWithin (depth : Nat) (document : List Char) : Option Value :=
  match scanValue (document.length + 1) depth document with
  | some (value, rest) => if (skipBlanks rest).isEmpty then some value else none
  | none => none

def readDocument? (document : List Char) : Option Value := readWithin nestingLimit document

def read? (text : String) : Option Value := readDocument? (documentOf text)

end LayerTree.Json
