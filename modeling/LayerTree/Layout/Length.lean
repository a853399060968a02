import LayerTree.Json
import LayerTree.Decimal.Reader
import LayerTree.Text

/-!
Lengths and offsets in descriptors: numbers, percentages of a container, and keywords.
-/

set_option autoImplicit false
set_option relaxedAutoImplicit false

namespace LayerTree.Layout

open Json (Value)

inductive Extent (α : Type) where
  /-- The container is covered. -/
  | fill
  /-- A length in local units. -/
  | fixed (length : α)
  /-- The content decides. -/
  | natural
  deriving DecidableEq, Inhabited

inductive Axis where
  | horizontal
  | vertical
  deriving DecidableEq

variable {α : Type} [Scalar α]

/-- The finite number that a percentage text writes before its sign. -/
def percentOf? (text : String) : Option Float :=
  let cs := Text.trim text.toList
  if cs.getLast? == some '%' then
    (Decimal.read? (Text.trim cs.dropLast)).filter fun x => !x.isNaN && !x.isInf
  else none

/-- The percentage of a full length that a text writes; a default for any other text. -/
def percent (text : String) (full default : α) : α :=
  match percentOf? text with
  | some x => full * Scalar.ofFloat x / 100.0
  | none => default

/-- A number as it is, or a text as a percentage. -/
def percentOrNumber? (value : Value) (full default : α) : Option α :=
  match value with
  | .number n => some n.value
  | .text s => some (percent s full default)
  | _ => none

/-- What a size field asks for in a container of the given length. -/
def extent (value : Option Value) (full : α) : Extent α :=
  match value with
  | some (.number n) => .fixed n.value
  | some (.text s) => if s == "fill" then .fill else .fixed (percent s full full)
  | _ => .natural

def Axis.near : Axis → String
  | horizontal => "left"
  | vertical => "top"

def Axis.far : Axis → String
  | horizontal => "right"
  | vertical => "bottom"

/-- Where a box of the given length starts in its container. -/
def offset (value : Option Value) (axis : Axis) (container length : α) : α :=
  match value with
  | some (.number n) => n.value
  | some (.text s) =>
    if s == axis.near then 0
    else if s == axis.far then container - length
    else if s == "center" then (container - length) / 2.0
    else percent s container 0
  | _ => 0

end LayerTree.Layout
