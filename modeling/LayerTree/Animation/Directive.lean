import LayerTree.Animation.Value
import LayerTree.Outline.ArcLength

/-!
Animation directives: what is animated, over which values, and when; and the value at any time.

The whole timeline is one unit long. A directive runs through its values once a cycle, holds its
first value before it begins and its last one after its cycles are over.
-/

set_option autoImplicit false
set_option relaxedAutoImplicit false

namespace LayerTree

inductive LayerTarget where
  | root
  | tilingHost
  | image
  | shape
  | text
  deriving DecidableEq

inductive AnimatedProperty where
  | transform
  | opacity
  | backgroundColor
  | borderColor
  | borderWidth
  | cornerRadius
  | contents
  | position
  | path
  | fillColor
  | strokeColor
  | lineWidth
  | strokeStart
  | strokeEnd
  | textColor
  deriving DecidableEq

/-- The name that rendering backends know the property by. -/
def AnimatedProperty.keyPath : AnimatedProperty → String
  | transform => "transform"
  | opacity => "opacity"
  | backgroundColor => "backgroundColor"
  | borderColor => "borderColor"
  | borderWidth => "borderWidth"
  | cornerRadius => "cornerRadius"
  | contents => "contents"
  | position => "position"
  | path => "path"
  | fillColor => "fillColor"
  | strokeColor => "strokeColor"
  | lineWidth => "lineWidth"
  | strokeStart => "strokeStart"
  | strokeEnd => "strokeEnd"
  | textColor => "foregroundColor"

inductive Calculation where
  /-- The values in between. -/
  | linear
  /-- Nothing: each value is held for an equal share of the cycle. -/
  | discrete
  /-- The places in between, at constant speed. -/
  | paced
  deriving DecidableEq

/-- What a directive passes through in one cycle. -/
inductive Keyframes (α : Type) where
  /-- Values at equal distances in time. -/
  | values (vs : List (AnimValue α))
  /-- An outline that is followed, turning along with it when asked to. -/
  | motionPath (path : Outline α) (rotateAuto : Bool)
  deriving DecidableEq

structure Directive (α : Type) where
  target : LayerTarget
  property : AnimatedProperty
  keyframes : Keyframes α
  /-- When the first cycle starts. -/
  begin : α
  duration : α
  repeatCount : α
  calculation : Calculation
  deriving DecidableEq

namespace Directive

variable {α : Type} [Scalar α]

def unitDuration : α := 1

/-- Values that fill the timeline once. -/
def ofValues (target : LayerTarget) (property : AnimatedProperty) (vs : List (AnimValue α))
    (calculation : Calculation) : Directive α :=
  ⟨target, property, .values vs, 0, unitDuration, 1, calculation⟩

/-- A change from one value to another over the whole timeline. -/
def transition (target : LayerTarget) (property : AnimatedProperty) (start finish : AnimValue α) :
    Directive α :=
  ofValues target property [start, finish] .linear

/-- A cycle of values that is repeated so that the cycles fill the timeline. -/
def looping (target : LayerTarget) (property : AnimatedProperty) (vs : List (AnimValue α))
    (repeatCount : α) : Directive α :=
  ⟨target, property, .values vs, 0, unitDuration / repeatCount, repeatCount, .linear⟩

def motion (target : LayerTarget) (path : Outline α) (rotateAuto : Bool) : Directive α :=
  ⟨target, .position, .motionPath path rotateAuto, 0, unitDuration, 1, .paced⟩

/-- Whether two directives animate the same property of the same layer. -/
def sameProperty (d e : Directive α) : Bool :=
  d.target == e.target && d.property == e.property

/-- How far the cycle at time `t` has come, from zero to one. -/
def phase (d : Directive α) (t : α) : α :=
  if !Scalar.isFinite t || decide (t ≤ d.begin) || decide (d.duration ≤ 0) then 0
  else if d.duration * d.repeatCount ≤ t - d.begin then 1
  else Scalar.rem (t - d.begin) d.duration / d.duration

/-- The value among `vs` whose share of the cycle the phase falls into. -/
def heldValue (vs : List (AnimValue α)) (phase : α) : Option (AnimValue α) :=
  let share := (Scalar.toUInt64 (Scalar.floor (phase * (vs.length : α)))).toNat
  vs[Nat.min share (vs.length - 1)]?

/-- The value between the two neighbours among `vs` that the phase falls between. -/
def betweenValues (vs : List (AnimValue α)) (phase : α) : Option (AnimValue α) :=
  let place := phase * ((vs.length - 1 : Nat) : α)
  let index := Nat.min (Scalar.toUInt64 (Scalar.floor place)).toNat (vs.length - 2)
  match vs[index]?, vs[index + 1]? with
  | some a, some b => some (a.lerp b (place - (index : α)))
  | _, _ => none

/-- The value at a phase of the cycle; none among no values. -/
def sampleValues (vs : List (AnimValue α)) (phase : α) (calculation : Calculation) :
    Option (AnimValue α) :=
  if vs.length ≤ 1 || decide (1 ≤ phase) then vs.getLast?
  else
    match calculation with
    | .discrete => heldValue vs phase
    | .linear | .paced => betweenValues vs phase

/-- The point at a parameter of a curve, and the displacement between two points close around. -/
def tangentAt (seg : Segment α) (u : α) : Point α × Vec α :=
  let before := Scalar.max (u - 0.0001) 0
  let after := Scalar.min (u + 0.0001) 1
  (seg.eval u, (seg.eval after).sub (seg.eval before))

/-- The point and tangent at a fraction of the length of consecutive curves. -/
def sampleAlong [Analytic α] (segs : List (Segment α)) (phase : α) : Option (Point α × Vec α) :=
  let lengths := segs.map Segment.length
  let total := Scalar.sum lengths
  match segs with
  | [] => none
  | first :: _ =>
    if total ≤ 0 then some (first.eval 0, ⟨1, 0⟩)
    else
      (locate lengths (Scalar.clamp 0 1 phase * total)).bind fun (index, distance) =>
        segs[index]?.map fun seg =>
          tangentAt seg (if 0 < seg.length then seg.parameterAt distance else 0)

/-- The value at time `t`; none only without values, and without anything to move along. -/
def sample [Analytic α] (d : Directive α) (t : α) : Option (AnimValue α) :=
  match d.keyframes with
  | .values vs => sampleValues vs (d.phase t) d.calculation
  | .motionPath path rotateAuto =>
    (sampleAlong path.segments (d.phase t)).map fun (position, tangent) =>
      .motion position (if rotateAuto then Analytic.atan2 tangent.y tangent.x else 0)

end Directive

end LayerTree
