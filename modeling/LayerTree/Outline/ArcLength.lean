import LayerTree.Outline.Segment

/-!
Lengths along curves, and the places at given lengths.

The length of a curve is the integral of its speed, by five-point Gauss quadrature on parts that are
halved until it is exact. The parameter at a length is found in the part that the length falls
into, by bisection.
-/

set_option autoImplicit false
set_option relaxedAutoImplicit false

namespace LayerTree

variable {α : Type} [Scalar α]

/-- The part that a distance along consecutive lengths falls into, and how far into it. A distance
beyond the end falls at the end of the last part. -/
def locate : List α → α → Option (Nat × α)
  | [], _ => none
  | [length], distance => some (0, Scalar.min distance length)
  | length :: next :: rest, distance =>
    if distance ≤ length then some (0, Scalar.min distance length)
    else (locate (next :: rest) (distance - length)).map fun (i, d) => (i + 1, d)

namespace Segment

variable [Analytic α]

def norm (x y : α) : α := Analytic.sqrt (x * x + y * y)

/-- The rate at which one coordinate of a quadratic curve changes. -/
def quadRate (p q r t : α) : α := 2.0 * ((q - p) * (1 - t) + (r - q) * t)

/-- The rate at which one coordinate of a cubic curve changes. -/
def cubicRate (p q r s t : α) : α :=
  let m := 1 - t
  3.0 * ((q - p) * (m * m) + 2.0 * (r - q) * (m * t) + (s - r) * (t * t))

def speed (t : α) : Segment α → α
  | line p q => norm (q.x - p.x) (q.y - p.y)
  | quad p q r => norm (quadRate p.x q.x r.x t) (quadRate p.y q.y r.y t)
  | cubic p q r s => norm (cubicRate p.x q.x r.x s.x t) (cubicRate p.y q.y r.y s.y t)

/-- The length between two parameters, by quadrature. -/
def lengthBetween (seg : Segment α) (a b : α) : α :=
  let half := 0.5 * (b - a)
  let mid := 0.5 * (a + b)
  let pair (node weight : α) : α :=
    weight * (seg.speed (mid - half * node) + seg.speed (mid + half * node))
  half * (0.5688888888888889 * seg.speed mid + pair 0.5384693101056831 0.47862867049936647 +
    pair 0.906179845938664 0.23692688505618908)

structure Part (α : Type) where
  lo : α
  hi : α
  length : α

/-- The part of a curve between two parameters, measured at once. -/
def partBetween (seg : Segment α) (lo hi : α) : Part α := ⟨lo, hi, seg.lengthBetween lo hi⟩

/-- Halves a part, and its halves in turn, until the lengths of two halves add up to that of the
whole. This takes many steps only around a place where the speed comes close to zero. -/
def refine (seg : Segment α) (tolerance : α) : Nat → Part α → List (Part α)
  | 0, part => [part]
  | steps + 1, part =>
    let mid := 0.5 * (part.lo + part.hi)
    let left := seg.partBetween part.lo mid
    let right := seg.partBetween mid part.hi
    if tolerance < Scalar.abs (left.length + right.length - part.length) then
      refine seg tolerance steps left ++ refine seg tolerance steps right
    else [left, right]

/-- How often a part may be halved. -/
def halvings : Nat := 32

/-- How many equal parts a curve is cut into at least. -/
def partCount : Nat := 16

/-- The parameters that bound these parts. -/
def evenCuts : List α := (List.range (partCount + 1)).map fun (i : Nat) => (i : α) / (partCount : α)

/-- Puts a parameter in its place among parameters in ascending order. -/
def insertCut (t : α) : List α → List α
  | [] => [t]
  | u :: rest => if t < u then t :: u :: rest else u :: insertCut t rest

/-- The parameters at which a curve is cut at first. Where it stops and goes back, both coordinates
turn; the speed is smooth only on either side. -/
def cuts (seg : Segment α) : List α := seg.turns.foldr insertCut evenCuts

def partsAt (seg : Segment α) : List α → List (Part α)
  | lo :: hi :: rest => seg.partBetween lo hi :: partsAt seg (hi :: rest)
  | _ => []

/-- The parts of a curve, each measured up to a tiny share of the whole. -/
def parts (seg : Segment α) : List (Part α) :=
  let coarse := seg.partsAt seg.cuts
  let tolerance := 1e-13 * Scalar.sum (coarse.map Part.length)
  coarse.flatMap (seg.refine tolerance halvings)

def length (seg : Segment α) : α :=
  match seg with
  | line p q => norm (q.x - p.x) (q.y - p.y)
  | _ => Scalar.sum (seg.parts.map Part.length)

/-- Halves the interval `[lo, hi]` around the parameter at which the length from `origin` is
`distance`. -/
def bisect (seg : Segment α) (origin distance : α) : Nat → α → α → α
  | 0, lo, hi => 0.5 * (lo + hi)
  | steps + 1, lo, hi =>
    let mid := 0.5 * (lo + hi)
    if seg.lengthBetween origin mid < distance then bisect seg origin distance steps mid hi
    else bisect seg origin distance steps lo mid

/-- The parameter at which the length from the start is `distance`. -/
def parameterAt (seg : Segment α) (distance : α) : α :=
  match seg with
  | line _ _ => distance / seg.length
  | _ =>
    let parts := seg.parts
    let lengths := parts.map Part.length
    if distance ≤ 0 then 0
    else if Scalar.sum lengths ≤ distance then 1
    else
      match locate lengths distance with
      | none => 0
      | some (i, d) =>
        match parts[i]? with
        | none => 0
        | some part => seg.bisect part.lo d 50 part.lo part.hi

end Segment

end LayerTree
