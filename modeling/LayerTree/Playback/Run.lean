import LayerTree.Playback.Control

/-!
Runs: what a host does with a built tree, one call after the other, and what that causes.

A call goes to any element of the tree. The record of a run holds, in order, every completion of a
seek that an element took and everything that an operation caused outside of the tree.
-/

set_option autoImplicit false
set_option relaxedAutoImplicit false

namespace LayerTree

/-- What a host can ask of an element. Players are asked whether they are ready during the
operation, and so is the host whether a video repeats. -/
inductive Operation (α : Type) where
  | setTimeOffset (ready : Player → Bool) (t : α) (autoplay : Bool)
  | completeSeek (ready : Player → Bool) (ticket : SeekTicket)
  | startAutoplay
  | pauseAutoplay
  | videoReachedEnd (repeats : Body α → Bool) (id : ElementId)
  | touchDown
  | touchCancel
  | press
  | clear

structure Call (α : Type) where
  element : ElementId
  operation : Operation α

inductive Occurrence (α : Type) where
  /-- The completion of a seek was taken: it did not turn out stale. -/
  | landed (ticket : SeekTicket)
  | caused (event : Event α)
  deriving DecidableEq

namespace Event

variable {α : Type}

def element : Event α → ElementId
  | seek player _ => player.element
  | rewind player => player.element
  | play player => player.element
  | pause player => player.element
  | started element => element
  | finished element _ => element
  | action element _ => element

end Event

namespace Occurrence

variable {α : Type}

def element : Occurrence α → ElementId
  | landed ticket => ticket.element
  | caused event => event.element

def issued? : Occurrence α → Option SeekTicket
  | caused (.seek _ request) => some request.ticket
  | _ => none

def landed? : Occurrence α → Option SeekTicket
  | landed ticket => some ticket
  | _ => none

def requestTo? (id : ElementId) : Occurrence α → Option (SeekRequest α)
  | caused (.seek player request) => if player.element == id then some request else none
  | _ => none

end Occurrence

/-- The record of a completion: nothing when it turned out stale. -/
def SeekCompletion.record {α : Type} (ticket : SeekTicket) : SeekCompletion → List (Occurrence α)
  | stale => []
  | drained => [.landed ticket]
  | settled => [.landed ticket]

namespace Operation

variable {α : Type} [Scalar α]

/-- What an operation on the element at the root leads to and what is recorded of it. -/
def perform : Operation α → Element α → List (Occurrence α) × Element α
  | setTimeOffset ready t autoplay, e =>
    let done := e.setTimeOffset ready t autoplay
    (done.1.map .caused, done.2)
  | completeSeek ready ticket, e =>
    let done := e.completeSeek ready ticket
    (done.1.1.record ticket ++ done.1.2.map .caused, done.2)
  | startAutoplay, e =>
    let done := e.startAutoplay
    (done.1.map .caused, done.2)
  | pauseAutoplay, e =>
    let done := e.pauseAutoplay
    (done.1.map .caused, done.2)
  | videoReachedEnd repeats id, e =>
    let done := e.videoReachedEnd repeats id
    ((done.1.getD []).map .caused, done.2)
  | touchDown, e => ([], e.touchDown.2)
  | touchCancel, e => ([], e.touchCancel.2)
  | press, e =>
    let done := e.press
    ((done.1.getD []).map .caused, done.2)
  | clear, e => ([], e.clear)

end Operation

namespace Element

variable {α : Type} [Scalar α]

/-- Makes a call; there is nothing to call on an element that is not in the tree. -/
def make (c : Call α) (e : Element α) : List (Occurrence α) × Element α :=
  (e.update? c.element c.operation.perform).getD ([], e)

def run : List (Call α) → Element α → List (Occurrence α) × Element α
  | [], e => ([], e)
  | c :: calls, e =>
    let first := e.make c
    let others := run calls first.2
    (first.1 ++ others.1, others.2)

end Element

end LayerTree
