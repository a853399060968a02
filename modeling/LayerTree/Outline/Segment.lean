import LayerTree.Outline

/-!
The curves that an outline consists of, the points on them, and the rectangle that they fill.
-/

set_option autoImplicit false
set_option relaxedAutoImplicit false

namespace LayerTree

/-- A curve of degree one, two or three between its first and its last point. -/
inductive Segment (α : Type) where
  | line (p q : Point α)
  | quad (p q r : Point α)
  | cubic (p q r s : Point α)
  deriving DecidableEq, Inhabited

variable {α : Type} [Scalar α]

namespace Segment

def start : Segment α → Point α
  | line p _ => p
  | quad p _ _ => p
  | cubic p _ _ _ => p

def finish : Segment α → Point α
  | line _ q => q
  | quad _ _ r => r
  | cubic _ _ _ s => s

def quadAt (p q r t : α) : α :=
  let m := 1 - t
  p * (m * m) + (q * (m * 2.0) + r * t) * t

def cubicAt (p q r s t : α) : α :=
  let m := 1 - t
  p * (m * m * m) + (q * (m * m * 3.0) + (r * (m * 3.0) + s * t) * t) * t

/-- The point at a parameter between zero and one. -/
def eval (t : α) : Segment α → Point α
  | line p q => p.lerp q t
  | quad p q r => ⟨quadAt p.x q.x r.x t, quadAt p.y q.y r.y t⟩
  | cubic p q r s => ⟨cubicAt p.x q.x r.x s.x t, cubicAt p.y q.y r.y s.y t⟩

/-- The parameters inside the curve among candidates. -/
def inside (ts : List α) : List α := ts.filter fun t => decide (0 < t) && decide (t < 1)

/-- Where one coordinate of a quadratic curve turns. -/
def quadTurns (p q r : α) : List α :=
  let first := q - p
  let bend := (r - q) - first
  if bend == 0 then [] else inside [-first / bend]

/-- The solutions of `c0 + c1 t = 0`; zero stands for all numbers. -/
def linearRoots (c0 c1 : α) : List α :=
  if c1 == 0 then if c0 == 0 then [0] else []
  else if Scalar.isFinite (-c0 / c1) then [-c0 / c1] else []

/-- The second solution of `s0 + s1 t + t² = 0` beside a first one, when it is finite. -/
def rootPair (s0 root : α) : List α :=
  let other := s0 / root
  if Scalar.isFinite other then [root, other] else [root]

/-- The solutions of `s0 + s1 t + t² = 0`. The first is the one that does not cancel. -/
def monicRoots [Analytic α] (s0 s1 : α) : List α :=
  let discriminant := s1 * s1 - 4.0 * s0
  if !Scalar.isFinite discriminant then rootPair s0 (-s1)
  else if discriminant < 0 then []
  else if discriminant == 0 then [-0.5 * s1]
  else
    let size := Analytic.sqrt discriminant
    rootPair s0 (-0.5 * (s1 + if Scalar.isNegative s1 then -size else size))

/-- The solutions of `c0 + c1 t + c2 t² = 0`; linear when the leading coefficient is too small. -/
def quadraticRoots [Analytic α] (c0 c1 c2 : α) : List α :=
  let s0 := c0 * (1 / c2)
  let s1 := c1 * (1 / c2)
  if c2 == 0 || !Scalar.isFinite s0 || !Scalar.isFinite s1 then linearRoots c0 c1
  else monicRoots s0 s1

/-- Where one coordinate of a cubic curve turns. -/
def cubicTurns [Analytic α] (p q r s : α) : List α :=
  let d0 := q - p
  let d1 := r - q
  let d2 := s - r
  inside (quadraticRoots d0 (2.0 * (d1 - d0)) (d0 - 2.0 * d1 + d2))

/-- The parameters at which a coordinate turns. -/
def turns [Analytic α] : Segment α → List α
  | line _ _ => []
  | quad p q r => quadTurns p.x q.x r.x ++ quadTurns p.y q.y r.y
  | cubic p q r s => cubicTurns p.x q.x r.x s.x ++ cubicTurns p.y q.y r.y s.y

def bounds [Analytic α] (seg : Segment α) : Rect α :=
  (seg.turns.map (seg.eval ·)).foldl Rect.unionPoint (Rect.ofPoints seg.start seg.finish)

end Segment

namespace Outline

def samePoint (p q : Point α) : Bool := p.x == q.x && p.y == q.y

/-- The curves of an outline that starts a part at `start` and has come to `current`. Closing
draws a line back only when it leads somewhere. -/
def segmentsFrom : Point α → Point α → Outline α → List (Segment α)
  | _, _, [] => []
  | _, _, .moveTo p :: rest => segmentsFrom p p rest
  | start, current, .lineTo p :: rest => .line current p :: segmentsFrom start p rest
  | start, current, .quadTo p q :: rest => .quad current p q :: segmentsFrom start q rest
  | start, current, .curveTo p q r :: rest => .cubic current p q r :: segmentsFrom start r rest
  | start, current, .close :: rest =>
    if samePoint current start then segmentsFrom start current rest
    else .line current start :: segmentsFrom start start rest

def segments (o : Outline α) : List (Segment α) := segmentsFrom Point.zero Point.zero o

/-- The smallest rectangle around the curves of an outline; without curves, the one without extent
at the origin. -/
def bounds [Analytic α] (o : Outline α) : Rect α :=
  match segments o with
  | [] => Rect.zero
  | seg :: rest => (rest.map Segment.bounds).foldl Rect.union seg.bounds

end Outline

end LayerTree
