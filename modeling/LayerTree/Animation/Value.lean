import LayerTree.Color
import LayerTree.Outline
import LayerTree.ResourceUrl
import LayerTree.Transform

/-!
The values that animations pass through, and the values between them.
-/

set_option autoImplicit false
set_option relaxedAutoImplicit false

namespace LayerTree

structure ImageFrame where
  url : ResourceUrl
  index : Nat
  deriving DecidableEq, Inhabited

inductive AnimValue (α : Type) where
  | scalar (x : α)
  | color (c : Color)
  | transform (t : Transform α)
  | path (o : Outline α)
  | image (f : ImageFrame)
  /-- A place on a motion path, and the angle of the path there in radians. -/
  | motion (position : Point α) (rotation : α)
  deriving DecidableEq

namespace AnimValue

variable {α : Type} [Scalar α]

/-- The value at fraction `t` of the way from `a` to `b`. Values of different kinds, images and
places on a path switch at the end of the way. -/
def lerp (a b : AnimValue α) (t : α) : AnimValue α :=
  match a, b with
  | scalar x, scalar y => scalar (x + (y - x) * t)
  | color c, color d => color (c.lerp d t)
  | transform f, transform g => transform (f.lerp g t)
  | path o, path p => path (Outline.lerp o p t)
  | a, b => if t < 1 then a else b

end AnimValue

end LayerTree
