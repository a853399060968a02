import LayerTree.Outline

/-!
Elliptical arcs given by their end points, drawn as cubic curves.
-/

set_option autoImplicit false
set_option relaxedAutoImplicit false

namespace LayerTree

/-- An arc between two points of an ellipse; of the four arcs that two ellipses allow, the flags
choose one. -/
structure EndpointArc (α : Type) where
  start : Point α
  finish : Point α
  radii : Vec α
  rotation : α
  /-- Whether to take the longer way. -/
  large : Bool
  /-- Whether angles grow along the arc. -/
  sweep : Bool

/-- A part of an ellipse around its centre. -/
structure CenterArc (α : Type) where
  center : Point α
  radii : Vec α
  startAngle : α
  sweepAngle : α
  rotation : α

variable {α : Type} [Scalar α] [Analytic α]

def halfTurn : α := 3.141592653589793

def fullTurn : α := 2.0 * (halfTurn : α)

def Vec.rotate (v : Vec α) (angle : α) : Vec α :=
  let s := Analytic.sin angle
  let c := Analytic.cos angle
  ⟨v.x * c - v.y * s, v.x * s + v.y * c⟩

namespace EndpointArc

/-- Whether the arc degenerates to a line. -/
def isLine (arc : EndpointArc α) : Bool :=
  decide (Scalar.abs arc.radii.x ≤ 0.00001) || decide (Scalar.abs arc.radii.y ≤ 0.00001) ||
    (arc.start.x == arc.finish.x && arc.start.y == arc.finish.y)

/-- The sweep between two angles, in the direction that the arc asks for. -/
def sweepBetween (arc : EndpointArc α) (startAngle endAngle : α) : α :=
  let angle := Scalar.rem (endAngle - startAngle) fullTurn
  if arc.sweep && decide (angle < 0) then angle + fullTurn
  else if !arc.sweep && decide (0 < angle) then angle - fullTurn
  else angle

/-- The arc around the centre of its ellipse; radii too small to reach both points are enlarged. -/
def toCenter (arc : EndpointArc α) : CenterArc α :=
  let turn := Scalar.rem arc.rotation fullTurn
  let s := Analytic.sin turn
  let c := Analytic.cos turn
  let dx := (arc.start.x - arc.finish.x) * 0.5
  let dy := (arc.start.y - arc.finish.y) * 0.5
  let mx := (arc.start.x + arc.finish.x) * 0.5
  let my := (arc.start.y + arc.finish.y) * 0.5
  let px := c * dx + s * dy
  let py := -s * dx + c * dy
  let rx := Scalar.abs arc.radii.x
  let ry := Scalar.abs arc.radii.y
  let excess := px * px / (rx * rx) + py * py / (ry * ry)
  let grow := if 1 < excess then Analytic.sqrt excess else 1
  let rx := rx * grow
  let ry := ry * grow
  let area := rx * ry
  let u := rx * py
  let v := ry * px
  let squares := u * u + v * v
  let side : α := if arc.large == arc.sweep then -1 else 1
  let coefficient :=
    side * Analytic.sqrt (Scalar.abs ((area * area - squares) / squares))
  let cx := coefficient * u / ry
  let cy := -coefficient * v / rx
  let startAngle := Analytic.atan2 ((py - cy) / ry) ((px - cx) / rx)
  let endAngle := Analytic.atan2 ((-py - cy) / ry) ((-px - cx) / rx)
  { center := ⟨c * cx - s * cy + mx, s * cx + c * cy + my⟩
    radii := ⟨rx, ry⟩
    startAngle := startAngle
    sweepAngle := arc.sweepBetween startAngle endAngle
    rotation := arc.rotation }

end EndpointArc

namespace CenterArc

def sample (arc : CenterArc α) (angle : α) : Vec α :=
  Vec.rotate ⟨arc.radii.x * Analytic.cos angle, arc.radii.y * Analytic.sin angle⟩ arc.rotation

/-- The point at a displacement from the centre plus a multiple of another. -/
def place (arc : CenterArc α) (v : Vec α) (factor : α) (w : Vec α) : Point α :=
  ⟨arc.center.x + (v.x + factor * w.x), arc.center.y + (v.y + factor * w.y)⟩

def pointAt (arc : CenterArc α) (v : Vec α) : Point α := arc.center.translate v

/-- `count` curves from an angle on, each spanning `step`, with control arms of relative length
`arm`. -/
def curvesFrom (arc : CenterArc α) (step arm : α) : Nat → α → Outline α
  | 0, _ => []
  | count + 1, angle =>
    let next := angle + step
    let quarter : α := halfTurn / 2.0
    .curveTo (arc.place (arc.sample angle) arm (arc.sample (angle + quarter)))
      (arc.place (arc.sample next) (-arm) (arc.sample (next + quarter)))
      (arc.pointAt (arc.sample next)) :: curvesFrom arc step arm count next

/-- The curves that follow the arc to within a tenth of a unit. -/
def curves (arc : CenterArc α) : Outline α :=
  let size := Scalar.max arc.radii.x arc.radii.y / 0.1
  let perTurn := Scalar.max (Analytic.pow (1.1163 * size) (1 / 6.0)) 3.999999
  let count := Scalar.ceil (perTurn * Scalar.abs arc.sweepAngle * (1 / fullTurn))
  let step := arc.sweepAngle / count
  let direction : α := if arc.sweepAngle < 0 then -1 else 1
  let arm := 4.0 / 3.0 * Analytic.tan (Scalar.abs (0.25 * step)) * direction
  arc.curvesFrom step arm (Scalar.toUInt64 count).toNat arc.startAngle

end CenterArc

/-- What draws an arc from its start. -/
def EndpointArc.outline (arc : EndpointArc α) : Outline α :=
  if arc.isLine then [.lineTo arc.finish] else arc.toCenter.curves

end LayerTree
