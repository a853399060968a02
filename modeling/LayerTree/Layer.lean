import LayerTree.Color
import LayerTree.Outline
import LayerTree.ResourceUrl
import LayerTree.Transform

/-!
The layers that one element is drawn with.

An element has a root style, at most one primary content, and optional layers around it: a host
that repeats the content, a mask, and texts.
-/

set_option autoImplicit false
set_option relaxedAutoImplicit false

namespace LayerTree

inductive Gravity where
  /-- Stretched to the bounds. -/
  | resize
  /-- Covering the bounds with its own aspect. -/
  | aspectFill
  deriving DecidableEq

inductive TextAlign where
  | left
  | center
  | right
  deriving DecidableEq

/-- A drop shadow, in device pixels. -/
structure Shadow (α : Type) where
  color : Color
  offset : Vec α
  opacity : α
  radius : α
  deriving DecidableEq

/-- The style of the root layer before any animation. -/
structure LayerStyle (α : Type) where
  background : Option Color
  borderWidth : α
  borderColor : Color
  cornerRadius : α
  shadow : Option (Shadow α)
  opacity : α
  /-- Applied around the anchor. -/
  transform : Transform α
  /-- A point of the bounds, as fractions of their sides. -/
  anchor : Point α
  /-- Where the anchor is in the frame of the parent. -/
  position : Point α
  masksToBounds : Bool
  deriving DecidableEq

structure ImageLayer (α : Type) where
  url : ResourceUrl
  frame : Rect α
  frameCount : Nat
  gravity : Gravity
  deriving DecidableEq

/-- The columns and rows of a sheet of cells, or one cell of it. -/
structure Cell where
  column : Nat
  row : Nat
  deriving DecidableEq, Inhabited

structure SpriteLayer (α : Type) where
  url : ResourceUrl
  frame : Rect α
  slice : Cell
  slot : Cell
  /-- The part of the sheet that is shown, as fractions of its sides. -/
  contentsRect : Rect α
  deriving DecidableEq

structure ShapeLayer (α : Type) where
  path : Outline α
  frame : Rect α
  fill : Option Color
  stroke : Color
  lineWidth : α
  shadow : Option (Shadow α)
  strokeStart : α
  strokeEnd : α
  deriving DecidableEq

structure VideoLayer (α : Type) where
  url : ResourceUrl
  frame : Rect α
  gravity : Gravity
  stream : Bool
  deriving DecidableEq

inductive Primary (α : Type) where
  | image (layer : ImageLayer α)
  | sprite (layer : SpriteLayer α)
  | shape (layer : ShapeLayer α)
  | video (layer : VideoLayer α)
  deriving DecidableEq

/-- A layer that holds the content five times, so that it can be shifted by its own size without
showing an edge. -/
structure TilingHost (α : Type) where
  tiles : List (Rect α)
  transform : Transform α
  deriving DecidableEq

structure MaskLayer (α : Type) where
  url : ResourceUrl
  frame : Rect α
  deriving DecidableEq

structure TextLayer (α : Type) where
  text : String
  frame : Rect α
  fontSize : α
  color : Color
  align : TextAlign
  deriving DecidableEq

structure RichTextSpan (α : Type) where
  text : String
  fontSize : Option α
  color : Option Color
  bold : Bool
  deriving DecidableEq

structure RichText (α : Type) where
  spans : List (RichTextSpan α)
  deriving DecidableEq

structure RichTextLayer (α : Type) where
  text : RichText α
  frame : Rect α
  deriving DecidableEq

structure Layers (α : Type) where
  style : LayerStyle α
  primary : Option (Primary α)
  tiling : Option (TilingHost α)
  mask : Option (MaskLayer α)
  text : Option (TextLayer α)
  richText : Option (RichTextLayer α)
  deriving DecidableEq

variable {α : Type} [Scalar α]

/-- The part of a sheet that one of its cells takes, as fractions of the sheet's sides. -/
def Cell.rect (slice cell : Cell) : Rect α :=
  let columns : α := (Nat.max slice.column 1 : Nat)
  let rows : α := (Nat.max slice.row 1 : Nat)
  let column : α := (cell.column : α)
  let row : α := (cell.row : α)
  ⟨column / columns, row / rows, (column + 1) / columns, (row + 1) / rows⟩

/-- The bounds and their copies on the left, right, upper and lower side. -/
def TilingHost.around (bounds : Rect α) : TilingHost α where
  tiles :=
    [bounds, bounds.translate ⟨-bounds.width, 0⟩, bounds.translate ⟨bounds.width, 0⟩,
      bounds.translate ⟨0, -bounds.height⟩, bounds.translate ⟨0, bounds.height⟩]
  transform := Transform.identity

namespace Layers

omit [Scalar α]

def image? (l : Layers α) : Option (ImageLayer α) :=
  match l.primary with
  | some (.image layer) => some layer
  | _ => none

def sprite? (l : Layers α) : Option (SpriteLayer α) :=
  match l.primary with
  | some (.sprite layer) => some layer
  | _ => none

def shape? (l : Layers α) : Option (ShapeLayer α) :=
  match l.primary with
  | some (.shape layer) => some layer
  | _ => none

def showCell (rect : Rect α) (l : Layers α) : Layers α :=
  match l.primary with
  | some (.sprite layer) =>
    { l with primary := some (.sprite { layer with contentsRect := rect }) }
  | _ => l

def withOpacity (opacity : α) (l : Layers α) : Layers α :=
  { l with style := { l.style with opacity := opacity } }

end Layers

end LayerTree
