import LayerTree.Color
import LayerTree.Record

/-!
Colours in descriptors: a name, hexadecimal digits after `#`, a record of channels, or a list of
three or four channels. Channels in records and lists are fractions.
-/

set_option autoImplicit false
set_option relaxedAutoImplicit false

namespace LayerTree.Color

open Json (Value)

variable {α : Type} [Scalar α]

/-- Channels as fractions, not multiplied by alpha. -/
structure Channels (α : Type) where
  r : α
  g : α
  b : α
  a : α

def Channels.toColor (c : Channels α) : Color := ofUnit c.r c.g c.b c.a

def named? (name : String) : Option (Channels α) :=
  match name with
  | "red" => some ⟨1, 0, 0, 1⟩
  | "black" => some ⟨0, 0, 0, 1⟩
  | "blue" => some ⟨0, 0, 1, 1⟩
  | "white" => some ⟨1, 1, 1, 1⟩
  | "green" => some ⟨0, 1, 0, 1⟩
  | "yellow" => some ⟨1, 1, 0, 1⟩
  | "purple" => some ⟨0.5, 0, 0.5, 1⟩
  | "gray" => some ⟨0.5, 0.5, 0.5, 1⟩
  | "darkGray" => some ⟨1 / 3.0, 1 / 3.0, 1 / 3.0, 1⟩
  | "lightGray" => some ⟨2.0 / 3.0, 2.0 / 3.0, 2.0 / 3.0, 1⟩
  | "brown" => some ⟨0.6, 0.4, 0.2, 1⟩
  | "orange" => some ⟨1, 0.5, 0, 1⟩
  | "cyan" => some ⟨0, 1, 1, 1⟩
  | "magenta" => some ⟨1, 0, 1, 1⟩
  | "clear" => some ⟨0, 0, 0, 0⟩
  | _ => none

/-- The number that a pair of characters writes in base sixteen; a plus sign may stand in front of
a digit. -/
def hexPair? (a b : Char) : Option Nat :=
  if a == '+' then Json.hexDigit? b
  else
    (Json.hexDigit? a).bind fun high => (Json.hexDigit? b).map fun low => 16 * high + low

/-- One hexadecimal digit for both digits of a byte. -/
def hexDouble? (c : Char) : Option Nat := (Json.hexDigit? c).map (17 * ·)

/-- The bytes that the characters after `#` write; alpha is 255 where it is not written. -/
def hexBytes? : List Char → Option (Nat × Nat × Nat × Nat)
  | [r, g, b] => do
    some (← hexDouble? r, ← hexDouble? g, ← hexDouble? b, 255)
  | [r, g, b, a] => do
    some (← hexDouble? r, ← hexDouble? g, ← hexDouble? b, ← hexDouble? a)
  | [r, r', g, g', b, b'] => do
    some (← hexPair? r r', ← hexPair? g g', ← hexPair? b b', 255)
  | [r, r', g, g', b, b', a, a'] => do
    some (← hexPair? r r', ← hexPair? g g', ← hexPair? b b', ← hexPair? a a')
  | _ => none

def hex? (cs : List Char) : Option (Channels α) :=
  ((Text.stripStart ['#'] cs).bind hexBytes?).map fun (r, g, b, a) =>
    ⟨(r : α) / 255.0, (g : α) / 255.0, (b : α) / 255.0, (a : α) / 255.0⟩

/-- The channels of a colour text: a name or hexadecimal digits, with white space around them. -/
def ofText? (s : String) : Option (Channels α) :=
  let cs := Text.trim s.toList
  (named? (String.ofList cs)).or (hex? cs)

/-- The channels of a record: red, green and blue must be numbers, and so must alpha when it is
there. -/
def ofRecord? (r : Record) : Option (Channels α) := do
  let red ← r.number? "r"
  let green ← r.number? "g"
  let blue ← r.number? "b"
  let alpha ← if r.contains "a" then r.number? "a" else some 1
  some ⟨red, green, blue, alpha⟩

/-- The channels of a list: three or four items, all of them numbers. -/
def ofItems? (items : List Value) : Option (Channels α) :=
  match items.mapM Value.number? with
  | some [r, g, b] => some ⟨r, g, b, 1⟩
  | some [r, g, b, a] => some ⟨r, g, b, a⟩
  | _ => none

def channels? : Value → Option (Channels α)
  | .text s => ofText? s
  | .record fields => ofRecord? ⟨fields⟩
  | .list items => ofItems? items
  | _ => none

/-- The colour that a value describes, its channels read as `α`. -/
def read? (α : Type) [Scalar α] (value : Option Value) : Option Color :=
  (value.bind channels?).map fun c : Channels α => c.toColor

def readD (α : Type) [Scalar α] (value : Option Value) (default : Color) : Color :=
  (read? α value).getD default

end LayerTree.Color
