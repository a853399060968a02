import LayerTree.Scalar

/-!
Points, sizes, rectangles, affine maps and the scale between local units and device pixels.
-/

set_option autoImplicit false
set_option relaxedAutoImplicit false

namespace LayerTree

structure Point (α : Type) where
  x : α
  y : α
  deriving DecidableEq, Inhabited

/-- A displacement in the plane, or a pair of factors. -/
structure Vec (α : Type) where
  x : α
  y : α
  deriving DecidableEq, Inhabited

structure Size (α : Type) where
  width : α
  height : α
  deriving DecidableEq, Inhabited

structure Rect (α : Type) where
  x0 : α
  y0 : α
  x1 : α
  y1 : α
  deriving DecidableEq, Inhabited

/-- The map `(x, y) ↦ (a x + c y + e, b x + d y + f)`. -/
structure Affine (α : Type) where
  a : α
  b : α
  c : α
  d : α
  e : α
  f : α
  deriving DecidableEq, Inhabited

/-- Device pixels for one local unit, along each axis. -/
structure ScaleFactor (α : Type) where
  x : α
  y : α
  deriving DecidableEq, Inhabited

variable {α : Type} [Scalar α]

namespace Point

def zero : Point α := ⟨0, 0⟩

def toVec (p : Point α) : Vec α := ⟨p.x, p.y⟩

def translate (p : Point α) (v : Vec α) : Point α := ⟨p.x + v.x, p.y + v.y⟩

/-- The displacement that leads from `q` to `p`. -/
def sub (p q : Point α) : Vec α := ⟨p.x - q.x, p.y - q.y⟩

/-- The point at fraction `t` of the way from `p` to `q`. -/
def lerp (p q : Point α) (t : α) : Point α :=
  ⟨p.x + t * (q.x - p.x), p.y + t * (q.y - p.y)⟩

end Point

namespace Vec

def zero : Vec α := ⟨0, 0⟩

def add (v w : Vec α) : Vec α := ⟨v.x + w.x, v.y + w.y⟩

/-- The displacement at fraction `t` of the way from `v` to `w`. -/
def lerp (v w : Vec α) (t : α) : Vec α := ⟨v.x + (w.x - v.x) * t, v.y + (w.y - v.y) * t⟩

end Vec

namespace Rect

/-- The rectangle of a given size at a given corner; negative sides reach the other way. -/
def ofOriginSize (origin : Point α) (size : Size α) : Rect α :=
  let x := origin.x + size.width
  let y := origin.y + size.height
  ⟨Scalar.min origin.x x, Scalar.min origin.y y, Scalar.max origin.x x, Scalar.max origin.y y⟩

def width (r : Rect α) : α := r.x1 - r.x0

def height (r : Rect α) : α := r.y1 - r.y0

def size (r : Rect α) : Size α := ⟨r.width, r.height⟩

def center (r : Rect α) : Point α := ⟨0.5 * (r.x0 + r.x1), 0.5 * (r.y0 + r.y1)⟩

def translate (r : Rect α) (v : Vec α) : Rect α :=
  ⟨r.x0 + v.x, r.y0 + v.y, r.x1 + v.x, r.y1 + v.y⟩

/-- The smallest rectangle that holds both. -/
def union (r s : Rect α) : Rect α :=
  ⟨Scalar.min r.x0 s.x0, Scalar.min r.y0 s.y0, Scalar.max r.x1 s.x1, Scalar.max r.y1 s.y1⟩

/-- The smallest rectangle that holds a rectangle and a point. -/
def unionPoint (r : Rect α) (p : Point α) : Rect α :=
  ⟨Scalar.min r.x0 p.x, Scalar.min r.y0 p.y, Scalar.max r.x1 p.x, Scalar.max r.y1 p.y⟩

/-- The rectangle with two points at opposite corners. -/
def ofPoints (p q : Point α) : Rect α :=
  ⟨Scalar.min p.x q.x, Scalar.min p.y q.y, Scalar.max p.x q.x, Scalar.max p.y q.y⟩

def zero : Rect α := ⟨0, 0, 0, 0⟩

end Rect

namespace Affine

/-- Multiplies each coordinate by a factor of its own. -/
def scaling (x y : α) : Affine α := ⟨x, 0, 0, y, 0, 0⟩

def shift (v : Vec α) : Affine α := ⟨1, 0, 0, 1, v.x, v.y⟩

/-- Turns around the origin by an angle in radians. -/
def rotation [Analytic α] (angle : α) : Affine α :=
  let s := Analytic.sin angle
  let c := Analytic.cos angle
  ⟨c, s, -s, c, 0, 0⟩

/-- The map that applies `n` and then `m`. -/
def mul (m n : Affine α) : Affine α where
  a := m.a * n.a + m.c * n.b
  b := m.b * n.a + m.d * n.b
  c := m.a * n.c + m.c * n.d
  d := m.b * n.c + m.d * n.d
  e := m.a * n.e + m.c * n.f + m.e
  f := m.b * n.e + m.d * n.f + m.f

def apply (m : Affine α) (p : Point α) : Point α :=
  ⟨m.a * p.x + m.c * p.y + m.e, m.b * p.x + m.d * p.y + m.f⟩

end Affine

namespace ScaleFactor

def identity : ScaleFactor α := ⟨1, 1⟩

def uniform (s : α) : ScaleFactor α := ⟨s, s⟩

def applySize (k : ScaleFactor α) (s : Size α) : Size α := ⟨s.width * k.x, s.height * k.y⟩

def applyPoint (k : ScaleFactor α) (p : Point α) : Point α := ⟨p.x * k.x, p.y * k.y⟩

def toAffine (k : ScaleFactor α) : Affine α := Affine.scaling k.x k.y

end ScaleFactor

end LayerTree
