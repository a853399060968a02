import LayerTree.Playback.Run

/-!
Histories of runs: the record of a run together with the ends of media that the host reported.

A report is entered where it is taken, that is where the element is found and has a video, and
stands before what it causes.
-/

set_option autoImplicit false
set_option relaxedAutoImplicit false

namespace LayerTree

variable {α : Type}

inductive Entry (α : Type) where
  /-- The media of an element's video were reported to be over, and repeat or do not. -/
  | ended (element : ElementId) (repeats : Bool)
  | noted (occurrence : Occurrence α)
  deriving DecidableEq

namespace Entry

@[match_pattern]
abbrev caused (event : Event α) : Entry α := noted (.caused event)

def element : Entry α → ElementId
  | ended element _ => element
  | noted occurrence => occurrence.element

end Entry

/-- The reports that an operation on the element at the root takes. -/
def Operation.reports : Operation α → Element α → List (Entry α)
  | videoReachedEnd repeats id, e =>
    match e.subtree? id with
    | some part => if part.body.video.isSome then [.ended id (repeats part.body)] else []
    | none => []
  | _, _ => []

def Call.reports (c : Call α) (e : Element α) : List (Entry α) :=
  match e.subtree? c.element with
  | some part => c.operation.reports part
  | none => []

namespace Element

variable [Scalar α]

/-- What one call adds to the history. -/
def entries (c : Call α) (e : Element α) : List (Entry α) :=
  c.reports e ++ (e.make c).1.map .noted

def history : List (Call α) → Element α → List (Entry α)
  | [], _ => []
  | c :: calls, e => e.entries c ++ history calls (e.make c).2

end Element

end LayerTree
