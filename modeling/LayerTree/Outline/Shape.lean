import LayerTree.Outline.Reader
import LayerTree.Record

/-!
Shapes in descriptors: path text, or a reference to a path that is known by name.
-/

set_option autoImplicit false
set_option relaxedAutoImplicit false

namespace LayerTree.Outline

open Json (Value)

variable {α : Type} [Scalar α] [Analytic α]

abbrev NamedPaths := String → Option Value

/-- The outline that a value writes as path text. -/
def ofText (value : Value) : Except Failure (Outline α) :=
  match value with
  | .text s =>
    let cs := Text.trim s.toList
    if cs.isEmpty then .error (.malformed "empty path data")
    else
      match read cs with
      | .ok o => .ok o
      | .error e => .error (.malformed ("path data: " ++ e.message))
  | _ => .error (.malformed "path data must be a string")

/-- The name that a shape refers to, if it is a reference. -/
def reference? (shape : Value) : Option String :=
  (Record.ofValue? shape).bind fun r => r.text? "ref"

/-- The outline of a shape, or why there is none. -/
def ofShape (paths : NamedPaths) (shape : Value) : Except Failure (Outline α) :=
  match reference? shape with
  | some name =>
    match paths name with
    | some value => ofText value
    | none => .error (.unresolved ("path `" ++ name ++ "`"))
  | none => ofText shape

/-- The outline of a shape that may be absent or broken. -/
def ofShape? (paths : NamedPaths) (shape : Option Value) : Option (Outline α) :=
  shape.bind fun value => (ofShape paths value).toOption

/-- The outlines of a list of shapes, or of a single shape; broken ones are left out. -/
def ofShapes (paths : NamedPaths) (shapes : Option Value) : List (Outline α) :=
  match shapes with
  | some (.list items) => items.filterMap fun item => ofShape? paths (some item)
  | other => (ofShape? paths other).toList

end LayerTree.Outline
