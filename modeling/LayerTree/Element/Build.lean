import LayerTree.Element
import LayerTree.Expansion

/-!
Building element trees.

Every element is built from its merged descriptor, the size of its container and the scale. A
feature that is malformed, or whose resource is not available, is left out; building never fails.
What is asked of the host is asked in a fixed order: the image, the mask, the sprite sheet or the
video where they are wanted, the height of the text, the styled text, the images of the animation,
and then whatever the children need.
-/

set_option autoImplicit false
set_option relaxedAutoImplicit false

namespace LayerTree

open Json (Value)

/-- The font size of texts that give none, as a fraction of the screen width. -/
def defaultFontRatio {α : Type} [Scalar α] : α := 20.0 / 320.0

structure Host (σ α : Type) where
  delegate : Delegate σ α
  media : MediaBackend σ α

namespace Host

variable {σ α : Type}

/-- The local copy of a source, if it has an address and a copy. -/
def localUrl (h : Host σ α) (source : String) : StateM σ (Option ResourceUrl) :=
  match ResourceUrl.resolve source h.delegate.baseUrl with
  | some url => h.delegate.mapToLocal url
  | none => pure none

/-- The local copy of an image and what is known about it, if there is anything to show. -/
def loadImage (h : Host σ α) (source : String) :
    StateM σ (Option (ResourceUrl × ImageInfo)) := do
  match ← h.localUrl source with
  | none => pure none
  | some url =>
    match ← h.media.probeImage url with
    | .ok info => pure (if info.isVisible then some (url, info) else none)
    | .error _ => pure none

def loadField (h : Host σ α) (info : Record) (name : String) :
    StateM σ (Option (ResourceUrl × ImageInfo)) :=
  match info.text? name with
  | some source => h.loadImage source
  | none => pure none

def loadImages (h : Host σ α) : List String → StateM σ (List ResourceUrl)
  | [] => pure []
  | source :: sources => do
    let first ← h.loadImage source
    let others ← loadImages h sources
    pure ((first.map (·.1)).toList ++ others)

end Host

namespace Build

variable {σ α : Type} [Scalar α]

def twoItems? : List Value → Option (Value × Value)
  | [x, y] => some (x, y)
  | _ => none

/-- A field that is a list of exactly two numbers or percentages, each of its own length. -/
def percentPair? (info : Record) (name : String) (full : Size α) : Option (Point α) := do
  let items ← info.list? name
  let (x, y) ← twoItems? items
  let px ← Layout.percentOrNumber? x full.width 0
  let py ← Layout.percentOrNumber? y full.height 0
  some ⟨px, py⟩

/-- The offset of a shadow: two numbers, or one unit each way. -/
def shadowOffset (shadow : Record) (k : ScaleFactor α) : Vec α :=
  match shadow.numbers? "offset" with
  | some [x, y] => ⟨x * k.x, y * k.y⟩
  | _ => ⟨k.x, k.y⟩

def shadow? (info : Record) (k : ScaleFactor α) : Option (Shadow α) :=
  (info.record? "shadow").map fun shadow =>
    { color := Color.readD α (shadow.get? "color") Color.black
      offset := shadowOffset shadow k
      opacity := shadow.numberD "opacity" 0.5
      radius := shadow.numberD "radius" 1 * k.x }

/-- The anchor as fractions of the box, which must not be empty; the middle when none is given. -/
def anchor (info : Record) (size : Size α) : Point α :=
  let middle : Point α := ⟨0.5, 0.5⟩
  if 0 < size.width ∧ 0 < size.height then
    match percentPair? info "anchor" size with
    | some p => ⟨p.x / size.width, p.y / size.height⟩
    | none => middle
  else middle

/-- Where the anchor is put: at a given place of the container, or in the middle of the frame. -/
def position (info : Record) (box : Box α) (container : Size α) (k : ScaleFactor α) : Point α :=
  match percentPair? info "pos" container with
  | some p => k.applyPoint p
  | none => box.frame.center

/-- The style of the root layer as far as it depends on the descriptor alone. -/
def baseStyle (info : Record) (box : Box α) (container : Size α) (k : ScaleFactor α) :
    LayerStyle α where
  background := Color.read? α (info.get? "bc")
  borderWidth := ((info.number? "borderWidth").map (· * k.x)).getD 0
  borderColor :=
    if (info.number? (α := α) "borderWidth").isSome then
      Color.readD α (info.get? "borderColor") Color.black
    else Color.black
  cornerRadius := info.numberD "cornerRadius" 0 * k.x
  shadow := shadow? info k
  opacity := info.numberD "opacity" 1
  transform := (Transform.ofFields info k Record.empty).getD Transform.identity
  anchor := anchor info box.logical.size
  position := position info box container k
  masksToBounds := info.flag "clip"

/-- How many columns or rows a slice gives: at least one, and one when it gives none. -/
def cellCount (α : Type) [Scalar α] (value : Option Value) : Nat :=
  match value.bind (Value.number? (α := α)) with
  | some n => if Scalar.isFinite n then (Scalar.toUInt32 (Scalar.max n 1)).toNat else 1
  | none => 1

/-- The cell that a sprite shows first: two numbers, or the first cell. -/
def slot (α : Type) [Scalar α] (info : Record) : Cell :=
  match info.numbers? (α := α) "slot" with
  | some [x, y] =>
    ⟨(Scalar.toUInt32 (Scalar.max x 0)).toNat, (Scalar.toUInt32 (Scalar.max y 0)).toNat⟩
  | _ => ⟨0, 0⟩

/-- The sheet and the slice of a sprite, when the descriptor gives both. -/
def spriteFields? (info : Record) : Option (String × List Value) := do
  let source ← info.text? "sprite"
  let slice ← info.list? "slice"
  some (source, slice)

def sprite? (h : Host σ α) (info : Record) (bounds : Rect α) :
    StateM σ (Option (SpriteLayer α)) :=
  match spriteFields? info with
  | none => pure none
  | some (source, sliceItems) => do
    match ← h.loadImage source with
    | none => pure none
    | some (url, _) =>
      let slice : Cell := ⟨cellCount α sliceItems[0]?, cellCount α sliceItems[1]?⟩
      let cell := slot α info
      pure (some ⟨url, bounds, slice, cell, Cell.rect slice cell⟩)

def shape (info : Record) (path : Outline α) (bounds : Rect α) (k : ScaleFactor α) :
    ShapeLayer α where
  path := Outline.toDevice k path
  frame := bounds
  fill := Color.read? α (info.get? "fillColor")
  stroke := Color.readD α (info.get? "strokeColor") Color.black
  lineWidth := info.numberD "lineWidth" 0 * k.x
  shadow := shadow? info k
  strokeStart := info.numberD "strokeStart" 0
  strokeEnd := info.numberD "strokeEnd" 1

/-- The source of a video and whether it is streamed; a radio always is. -/
def videoSource? (info : Record) : Option (String × Bool) :=
  match info.text? "video" with
  | some source => some (source, info.flag "stream")
  | none => (info.text? "radio").map (·, true)

/-- What the player of a video is opened with: the address of a stream, or a local copy. -/
def videoUrl (h : Host σ α) (source : String) (stream : Bool) :
    StateM σ (Option ResourceUrl) :=
  if stream then pure (ResourceUrl.resolve source h.delegate.baseUrl) else h.localUrl source

def openedVideo (info : Record) (bounds : Rect α) (fill stream : Bool) (url : ResourceUrl) :
    VideoLayer α × VideoSurface α :=
  (⟨url, bounds, if fill then .aspectFill else .resize, stream⟩,
    { url := url
      startSecs := info.numberD "videoStart" 0
      durationSecs := info.numberD "videoDuration" 1
      playing := false
      needsRewind := false })

def video? (h : Host σ α) (info : Record) (bounds : Rect α) (fill : Bool) :
    StateM σ (Option (VideoLayer α × VideoSurface α)) :=
  match videoSource? info with
  | none => pure none
  | some (source, stream) => do
    match ← videoUrl h source stream with
    | none => pure none
    | some url =>
      match ← h.media.openVideo url stream with
      | .ok _ => pure (some (openedVideo info bounds fill stream url))
      | .error _ => pure none

/-- The primary content and the surface of its video: the first that can be built of image,
sprite, shape and video. -/
def primary (h : Host σ α) (info : Record) (image : Option (ResourceUrl × ImageInfo))
    (path : Option (Outline α)) (box : Box α) (k : ScaleFactor α) :
    StateM σ (Option (Primary α) × Option (VideoSurface α)) :=
  match image with
  | some (url, img) => pure (some (.image ⟨url, box.bounds, img.frameCount, .aspectFill⟩), none)
  | none => do
    match ← sprite? h info box.bounds with
    | some sprite => pure (some (.sprite sprite), none)
    | none =>
      match path with
      | some path => pure (some (.shape (shape info path box.bounds k)), none)
      | none =>
        match ← video? h info box.bounds box.fill with
        | some (layer, surface) => pure (some (.video layer), some surface)
        | none => pure (none, none)

/-- The host of repeated content, for an image or a shape that asks for it. -/
def tiling? (info : Record) (primary : Option (Primary α)) (bounds : Rect α) :
    Option (TilingHost α) :=
  if info.flag "tiling" then
    match primary with
    | some (.image _) => some (TilingHost.around bounds)
    | some (.shape _) => some (TilingHost.around bounds)
    | _ => none
  else none

/-- The base style with what the content adds: sprites and repeated content are cut at the bounds,
and a shape carries the shadow itself. -/
def finishStyle (style : LayerStyle α) (info : Record) (primary : Option (Primary α))
    (tiling : Option (TilingHost α)) : LayerStyle α :=
  { style with
    masksToBounds := style.masksToBounds || (spriteFields? info).isSome || tiling.isSome
    shadow := match primary with
      | some (.shape _) => none
      | _ => style.shadow }

def fontSize (info : Record) (screen : Size α) (k : ScaleFactor α) : α :=
  let default := defaultFontRatio * screen.width
  let size := match info.get? "fontSize" with
    | some (.number n) => n.value
    | some (.text s) => Layout.percent s screen.height default
    | _ => default
  size * k.y

/-- Where the lines of a text stand; in the middle unless the descriptor says otherwise. -/
def textAlign (info : Record) : TextAlign :=
  match info.text? "textAlign" with
  | some "left" => .left
  | some "right" => .right
  | _ => .center

/-- The text that a descriptor gives, moved down so that it stands in the middle of the height. -/
def text? (h : Host σ α) (info : Record) (bounds : Rect α) (screen : Size α)
    (k : ScaleFactor α) : StateM σ (Option (TextLayer α)) :=
  match info.text? "text" with
  | none => pure none
  | some text => do
    let size := fontSize info screen k
    let measured ← h.media.measureText text size bounds.width
    pure (some
      { text := text
        frame := bounds.translate ⟨0, (bounds.height - measured) / 2.0⟩
        fontSize := size
        color := Color.readD α (info.get? "textColor") Color.black
        align := textAlign info })

omit [Scalar α] in
def richText? (h : Host σ α) (info : Record) (bounds : Rect α) :
    StateM σ (Option (RichTextLayer α)) :=
  match info.texts? "markdown" with
  | none => pure none
  | some lines => do
    let rendered ← h.delegate.renderMarkdown info lines
    pure (rendered.map fun text => ⟨text, bounds⟩)

/-- The clock of a sprite that is asked to step. -/
def spriteClock? (layers : Layers α) (repeatCount : Option α) : Option (SpriteClock α) := do
  let count ← repeatCount
  let sprite ← layers.sprite?
  some (SpriteClock.start sprite.slice sprite.slot.row count)

variable [Analytic α]

def body (h : Host σ α) (screen : Size α) (k : ScaleFactor α) (info : Record)
    (container : Size α) (id : ElementId) : StateM σ (Body α) := do
  let image ← h.loadField info "img"
  let mask ← h.loadField info "mask"
  let path : Option (Outline α) := Outline.ofShape? h.delegate.namedPath (info.get? "path")
  let natural := Layout.intrinsicSize (image.map (·.2.size)) (mask.map (·.2.size)) path
  let box := Layout.box info container natural k
  let (content, surface) ← primary h info image path box k
  let tiling := tiling? info content box.bounds
  let text ← text? h info box.bounds screen k
  let richText ← richText? h info box.bounds
  let layers : Layers α :=
    { style := finishStyle (baseStyle info box container k) info content tiling
      primary := content
      tiling := tiling
      mask := mask.map fun (url, _) => ⟨url, box.bounds⟩
      text := text
      richText := richText }
  let frames ← h.loadImages (Animations.imageSources info)
  let source : AnimationSource α := ⟨info, layers, k, box.bounds⟩
  let animations := Animations.ofDescriptor h.delegate.namedPath frames source
  pure
    { id := id
      info := info
      scale := k
      action := info.text? "action"
      box := box
      layers := layers
      animations := animations.directives
      sprite := spriteClock? layers animations.spriteRepeat
      seek := SeekState.initial
      video := surface }

mutual

/-- The tree of an expansion, its ids counted from `id` with parents before their children; also
the first id that is not taken. -/
def tree (h : Host σ α) (screen : Size α) (k : ScaleFactor α) :
    Expansion → Size α → ElementId → StateM σ (Element α × ElementId)
  | .node info children, container, id => do
    let root ← body h screen k info container id
    let (kids, next) ← trees h screen k children root.box.contentSize (id + 1)
    pure (.node root kids, next)

def trees (h : Host σ α) (screen : Size α) (k : ScaleFactor α) :
    List Expansion → Size α → ElementId → StateM σ (List (Element α) × ElementId)
  | [], _, id => pure ([], id)
  | e :: es, container, id => do
    let (first, next) ← tree h screen k e container id
    let (others, last) ← trees h screen k es container next
    pure (first :: others, last)

end

end Build

namespace Element

variable {σ α : Type} [Scalar α] [Analytic α]

/-- Builds the tree of a descriptor in a container of the given size, which is the size of the
screen as well. There is none only when prototypes are nested deeper than a stack can be. -/
def load (h : Host σ α) (desc : Record) (dimension : Size α) (k : ScaleFactor α) :
    StateM σ (Option (Element α)) :=
  match Expansion.ofDescriptor? h.delegate.prototype desc with
  | none => pure none
  | some expansion => do
    let (root, _) ← Build.tree h dimension k expansion dimension 0
    pure (some root)

/-- The same with ids that are counted from `first`, unless prototypes are nested more than `depth`
levels deep. -/
def loadWithin (depth : Nat) (h : Host σ α) (desc : Record) (dimension : Size α)
    (k : ScaleFactor α) (first : ElementId) : StateM σ (Option (Element α)) :=
  match Expansion.within h.delegate.prototype depth desc with
  | none => pure none
  | some expansion => do
    let (root, _) ← Build.tree h dimension k expansion dimension first
    pure (some root)

end Element

end LayerTree
