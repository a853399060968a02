import LayerTree.Layer

/-!
The clock of a sprite that steps through one row of its sheet as the timeline advances.
-/

set_option autoImplicit false
set_option relaxedAutoImplicit false

namespace LayerTree

structure SpriteClock (α : Type) where
  /-- How many columns and rows the sheet has. -/
  slice : Cell
  slotRow : Nat
  /-- How often the row is run through on the timeline. -/
  repeatCount : α
  /-- The column that is shown; none before the first offset. -/
  step : Option Nat
  deriving DecidableEq

namespace SpriteClock

variable {α : Type} [Scalar α]

/-- A clock that has shown nothing yet; a sheet has at least one column and one row. -/
def start (slice : Cell) (slotRow : Nat) (repeatCount : α) : SpriteClock α :=
  ⟨⟨Nat.max slice.column 1, Nat.max slice.row 1⟩, slotRow, repeatCount, none⟩

/-- The column at an offset: the steps made until then, counted around the row. -/
def stepAt (clock : SpriteClock α) (t : α) : Nat :=
  let steps := Scalar.floor (t * clock.repeatCount * (clock.slice.column : α))
  if !Scalar.isFinite steps || decide (steps < 0) then 0
  else (Scalar.toUInt64 steps).toNat % clock.slice.column

def rectOf (clock : SpriteClock α) (column : Nat) : Rect α :=
  Cell.rect clock.slice ⟨column, clock.slotRow⟩

/-- The clock at an offset, and the part of the sheet to show when that is another one. -/
def advance (clock : SpriteClock α) (t : α) : Option (Rect α) × SpriteClock α :=
  let column := clock.stepAt t
  if clock.step == some column then (none, clock)
  else (some (clock.rectOf column), { clock with step := some column })

end SpriteClock

end LayerTree
