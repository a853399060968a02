import LayerTree.Decimal.Text
import LayerTree.Geometry

/-!
Outlines: lists of drawing elements, their images under affine maps, their interpolation and their
text.
-/

set_option autoImplicit false
set_option relaxedAutoImplicit false

namespace LayerTree

inductive PathElement (α : Type) where
  | moveTo (p : Point α)
  | lineTo (p : Point α)
  | quadTo (p q : Point α)
  | curveTo (p q r : Point α)
  | close
  deriving DecidableEq, Inhabited

abbrev Outline (α : Type) := List (PathElement α)

namespace PathElement

variable {α : Type}

/-- The element with each of its points replaced. -/
def mapPoints {β : Type} (f : Point α → Point β) : PathElement α → PathElement β
  | moveTo p => moveTo (f p)
  | lineTo p => lineTo (f p)
  | quadTo p q => quadTo (f p) (f q)
  | curveTo p q r => curveTo (f p) (f q) (f r)
  | close => close

/-- Whether two elements draw in the same way, wherever their points are. -/
def sameKind : PathElement α → PathElement α → Bool
  | moveTo _, moveTo _ => true
  | lineTo _, lineTo _ => true
  | quadTo _ _, quadTo _ _ => true
  | curveTo _ _ _, curveTo _ _ _ => true
  | close, close => true
  | _, _ => false

/-- Two elements of one kind, each point at fraction `t` of the way; the first of two others. -/
def lerp [Scalar α] (t : α) : PathElement α → PathElement α → PathElement α
  | moveTo p, moveTo p' => moveTo (p.lerp p' t)
  | lineTo p, lineTo p' => lineTo (p.lerp p' t)
  | quadTo p q, quadTo p' q' => quadTo (p.lerp p' t) (q.lerp q' t)
  | curveTo p q r, curveTo p' q' r' => curveTo (p.lerp p' t) (q.lerp q' t) (r.lerp r' t)
  | e, _ => e

def pointText (p : Point Float) : String := Decimal.plain p.x ++ "," ++ Decimal.plain p.y

def toSvg : PathElement Float → String
  | moveTo p => "M" ++ pointText p
  | lineTo p => "L" ++ pointText p
  | quadTo p q => "Q" ++ pointText p ++ " " ++ pointText q
  | curveTo p q r => "C" ++ pointText p ++ " " ++ pointText q ++ " " ++ pointText r
  | close => "Z"

end PathElement

namespace Outline

variable {α : Type}

def transform [Scalar α] (m : Affine α) (o : Outline α) : Outline α :=
  o.map (PathElement.mapPoints m.apply)

def toDevice [Scalar α] (k : ScaleFactor α) (o : Outline α) : Outline α :=
  transform k.toAffine o

/-- Whether two outlines consist of elements of the same kinds in the same order. -/
def sameStructure : Outline α → Outline α → Bool
  | [], [] => true
  | e :: es, f :: fs => e.sameKind f && sameStructure es fs
  | _, _ => false

/-- Outlines of the same structure are interpolated point by point; others switch halfway. -/
def lerp [Scalar α] (o p : Outline α) (t : α) : Outline α :=
  if sameStructure o p then List.zipWith (PathElement.lerp t) o p
  else if t < 0.5 then o else p

def toSvg (o : Outline Float) : String := " ".intercalate (o.map PathElement.toSvg)

end Outline

end LayerTree
