import LayerTree.ResourceUrl

/-!
Seeks of a video player.

A seek takes time. While one is in flight no other is issued: the latest offset asked for is kept
pending instead. Each seek carries a ticket, by which its completion is recognised.
-/

set_option autoImplicit false
set_option relaxedAutoImplicit false

namespace LayerTree

/-- The number of an element in the order of building. Programs count in 64 bits, but ids do not
come round as no memory holds `2 ^ 64` elements. The generations of the seeks of one element do, as
there is no bound on how often a video is asked to seek. -/
abbrev ElementId := Nat

/-- Identifies one seek: the element that it is for, and how many that element had before. -/
structure SeekTicket where
  element : ElementId
  generation : Nat
  deriving DecidableEq, Inhabited

structure SeekState (α : Type) where
  /-- The seek that has not landed. -/
  inFlight : Option SeekTicket
  /-- The latest offset asked for since it was issued. -/
  pending : Option α
  nextGeneration : Nat
  deriving DecidableEq

namespace SeekState

variable {α : Type}

def initial : SeekState α := ⟨none, none, 0⟩

/-- The generation after another one; they are counted in 64 bits. -/
def nextAfter (generation : Nat) : Nat := (generation + 1) % UInt64.size

/-- The ticket of a new seek, which is in flight from now on. -/
def issue (s : SeekState α) (element : ElementId) : SeekTicket × SeekState α :=
  let ticket : SeekTicket := ⟨element, s.nextGeneration⟩
  (ticket, { s with inFlight := some ticket, nextGeneration := nextAfter s.nextGeneration })

/-- Keeps an offset for when the seek in flight has landed. -/
def postpone (s : SeekState α) (t : α) : SeekState α := { s with pending := some t }

/-- Nothing in flight and nothing pending; generations go on. -/
def reset (s : SeekState α) : SeekState α := { s with inFlight := none, pending := none }

end SeekState

/-- What a completion of a seek led to. -/
inductive SeekCompletion where
  /-- The seek landed, and a pending offset was applied. -/
  | drained
  /-- The seek landed, and nothing was pending. -/
  | settled
  /-- The ticket is not that of a seek in flight. -/
  | stale
  deriving DecidableEq

end LayerTree
