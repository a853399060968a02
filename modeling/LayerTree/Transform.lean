import LayerTree.Geometry
import LayerTree.Record

/-!
Layer transforms and how the fields of a record describe them.
-/

set_option autoImplicit false
set_option relaxedAutoImplicit false

namespace LayerTree

open Json (Value)

/-- A scaling, then a rotation, then a shift, around the anchor of a layer. -/
structure Transform (α : Type) where
  translate : Vec α
  /-- Radians, clockwise where the second axis points down. -/
  rotation : α
  scale : Vec α
  deriving DecidableEq, Inhabited

namespace Transform

variable {α : Type} [Scalar α]

def identity : Transform α := ⟨Vec.zero, 0, ⟨1, 1⟩⟩

def isIdentity (t : Transform α) : Bool :=
  t.translate.x == 0 && t.translate.y == 0 && t.rotation == 0 && t.scale.x == 1 && t.scale.y == 1

def moved (t : Transform α) (delta : Vec α) : Transform α :=
  { t with translate := t.translate.add delta }

def rotated (t : Transform α) (delta : α) : Transform α :=
  { t with rotation := t.rotation + delta }

def toAffine [Analytic α] (t : Transform α) : Affine α :=
  ((Affine.shift t.translate).mul (Affine.rotation t.rotation)).mul
    (Affine.scaling t.scale.x t.scale.y)

/-- Each component at fraction `t` of the way from `a` to `b`. -/
def lerp (a b : Transform α) (t : α) : Transform α where
  translate := a.translate.lerp b.translate t
  rotation := a.rotation + (b.rotation - a.rotation) * t
  scale := a.scale.lerp b.scale t

/-- The first two items of a list, when both are numbers. -/
def pair? : Value → Option (α × α)
  | .list (x :: y :: _) => do
    let x ← x.number?
    let y ← y.number?
    some (x, y)
  | _ => none

/-- A rotation in degrees: a number, or the third item of a list. -/
def degrees? : Value → Option α
  | .number n => some n.value
  | .list items => items[2]?.bind Value.number?
  | _ => none

/-- A pair of scale factors: one number for both, or the first two items of a list. -/
def factors? : Value → Option (Vec α)
  | .number n => some ⟨n.value, n.value⟩
  | v => (pair? v).map fun (x, y) => ⟨x, y⟩

/-- The transform that three optional field values describe; what is missing or malformed changes
nothing. -/
def ofValues (translate rotate scale : Option Value) (k : ScaleFactor α) : Transform α where
  translate := ((translate.bind pair?).map fun (x, y) => ⟨x * k.x, y * k.y⟩).getD Vec.zero
  rotation := ((rotate.bind degrees?).map Scalar.radians).getD 0
  scale := (scale.bind factors?).getD ⟨1, 1⟩

/-- The transform that a record describes, if it names any component. A component that it does not
name is taken from the base. -/
def ofFields (fields : Record) (k : ScaleFactor α) (base : Record) : Option (Transform α) :=
  let names := ["translate", "rotate", "scale"]
  if names.any fields.contains then
    let get (name : String) : Option Value := (fields.get? name).or (base.get? name)
    some (ofValues (get "translate") (get "rotate") (get "scale") k)
  else none

end Transform

end LayerTree
