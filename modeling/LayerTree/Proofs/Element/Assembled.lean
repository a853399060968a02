import LayerTree.Element.Build

/-!
A body in two steps: what is asked of the host, and what is made of the answers.

The second step is a pure function of the answers, so what holds of every body is shown of that
function.
-/

set_option autoImplicit false
set_option relaxedAutoImplicit false

namespace LayerTree.Build

variable {σ α : Type} [Scalar α]

def natural [Analytic α] (h : Host σ α) (info : Record)
    (image mask : Option (ResourceUrl × ImageInfo)) : Option (Size α) :=
  Layout.intrinsicSize (image.map (·.2.size)) (mask.map (·.2.size))
    (Outline.ofShape? h.delegate.namedPath (info.get? "path"))

def layers (info : Record) (container : Size α) (k : ScaleFactor α) (box : Box α)
    (content : Option (Primary α)) (mask : Option (ResourceUrl × ImageInfo))
    (text : Option (TextLayer α)) (richText : Option (RichTextLayer α)) : Layers α :=
  let tiling := tiling? info content box.bounds
  { style := finishStyle (baseStyle info box container k) info content tiling
    primary := content
    tiling := tiling
    mask := mask.map fun (url, _) => ⟨url, box.bounds⟩
    text := text
    richText := richText }

variable [Analytic α]

def assemble (paths : Outline.NamedPaths) (k : ScaleFactor α) (info : Record) (id : ElementId)
    (box : Box α) (layers : Layers α) (frames : List ResourceUrl)
    (surface : Option (VideoSurface α)) : Body α :=
  let animations := Animations.ofDescriptor paths frames ⟨info, layers, k, box.bounds⟩
  { id := id
    info := info
    scale := k
    action := info.text? "action"
    box := box
    layers := layers
    animations := animations.directives
    sprite := spriteClock? layers animations.spriteRepeat
    seek := SeekState.initial
    video := surface }

theorem body_eq (h : Host σ α) (screen : Size α) (k : ScaleFactor α) (info : Record)
    (container : Size α) (id : ElementId) :
    body h screen k info container id = (do
      let image ← h.loadField info "img"
      let mask ← h.loadField info "mask"
      let path := Outline.ofShape? h.delegate.namedPath (info.get? "path")
      let box := Layout.box info container (natural h info image mask) k
      let content ← primary h info image path box k
      let text ← text? h info box.bounds screen k
      let richText ← richText? h info box.bounds
      let frames ← h.loadImages (Animations.imageSources info)
      pure (assemble h.delegate.namedPath k info id box
        (layers info container k box content.1 mask text richText) frames content.2)) :=
  rfl

end LayerTree.Build
