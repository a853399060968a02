import LayerTree.Layout.Length
import LayerTree.Outline.Segment
import LayerTree.Record

/-!
The box of an element: its size from its own fields, its content and its container, and then its
place in the container.
-/

set_option autoImplicit false
set_option relaxedAutoImplicit false

namespace LayerTree

/-- The place of an element, in local units and in device pixels. -/
structure Box (α : Type) where
  /-- Relative to the content of the parent. -/
  logical : Rect α
  /-- Relative to the frame of the parent. -/
  frame : Rect α
  /-- Whether a size field asked to cover the container. -/
  fill : Bool
  deriving DecidableEq, Inhabited

variable {α : Type} [Scalar α]

namespace Box

/-- The size in local units, which is the container of the children. -/
def contentSize (b : Box α) : Size α := b.logical.size

/-- The frame moved to the origin, which is where the layers of the element are. -/
def bounds (b : Box α) : Rect α := Rect.ofOriginSize Point.zero b.frame.size

end Box

namespace Layout

/-- Whether a content size can stand for the size of a box. -/
def usable (s : Size α) : Bool :=
  Scalar.isFinite s.width && Scalar.isFinite s.height && decide (0 < s.width) &&
    decide (0 < s.height)

/-- The far corner of an outline, so that its margin to the origin counts. -/
def outlineSize [Analytic α] (o : Outline α) : Size α := ⟨o.bounds.x1, o.bounds.y1⟩

/-- The size of the content: of the image, else of the mask, else of the outline. -/
def intrinsicSize [Analytic α] (image mask : Option (Size α)) (outline : Option (Outline α)) :
    Option (Size α) :=
  ((image.filter usable).or (mask.filter usable)).or ((outline.map outlineSize).filter usable)

def lengthOr (container : α) : Extent α → α
  | .fixed length => length
  | _ => container

/-- The smallest size of the content's aspect that covers the container. -/
def coverSize (container natural : Size α) : Size α :=
  let height := container.width * (natural.height / natural.width)
  if container.height < height then ⟨container.width, height⟩
  else ⟨container.height * (natural.width / natural.height), container.height⟩

/-- The size of a box with content, when no axis is to be covered: an axis left to the content
follows the other one. -/
def fitSize (container natural : Size α) (w h : Extent α) : Size α :=
  match w, h with
  | .natural, .natural => natural
  | .natural, h =>
    let height := lengthOr container.height h
    ⟨height * (natural.width / natural.height), height⟩
  | w, .natural =>
    let width := lengthOr container.width w
    ⟨width, width * (natural.height / natural.width)⟩
  | w, h => ⟨lengthOr container.width w, lengthOr container.height h⟩

/-- The size of a box before negative lengths are dropped. -/
def sizeOf (container : Size α) (natural : Option (Size α)) (w h : Extent α) : Size α :=
  match w, h, natural with
  | .fill, _, none => container
  | .fill, _, some natural => coverSize container natural
  | _, .fill, none => container
  | _, .fill, some natural => coverSize container natural
  | w, h, none => ⟨lengthOr container.width w, lengthOr container.height h⟩
  | w, h, some natural => fitSize container natural w h

def fills : Extent α → Extent α → Bool
  | .fill, _ => true
  | _, .fill => true
  | _, _ => false

def box (desc : Record) (container : Size α) (natural : Option (Size α)) (k : ScaleFactor α) :
    Box α :=
  let w := extent (desc.get? "w") container.width
  let h := extent (desc.get? "h") container.height
  let raw := Layout.sizeOf container natural w h
  let size : Size α := ⟨Scalar.max raw.width 0, Scalar.max raw.height 0⟩
  let origin : Point α :=
    ⟨offset (desc.get? "x") .horizontal container.width size.width,
      offset (desc.get? "y") .vertical container.height size.height⟩
  { logical := Rect.ofOriginSize origin size
    frame := Rect.ofOriginSize (k.applyPoint origin) (k.applySize size)
    fill := fills w h }

end Layout

end LayerTree
