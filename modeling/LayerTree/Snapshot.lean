import LayerTree.Element
import LayerTree.Json.Printer
import LayerTree.Playback.Control

/-!
Element trees and their parts as data.
-/

set_option autoImplicit false
set_option relaxedAutoImplicit false

namespace LayerTree.Snapshot

open Json (Value)

/-- A float; null when it is infinite or not a number. -/
def float (x : Float) : Value := if FloatParts.isSpecial x then .null else .number (.double x)

def nat (n : Nat) : Value := .number (.integer n)

def optional {β : Type} (encode : β → Value) : Option β → Value
  | some b => encode b
  | none => .null

def point (p : Point Float) : Value := .record [("x", float p.x), ("y", float p.y)]

def vec (v : Vec Float) : Value := .record [("x", float v.x), ("y", float v.y)]

def size (s : Size Float) : Value :=
  .record [("width", float s.width), ("height", float s.height)]

def rect (r : Rect Float) : Value :=
  .record [("x0", float r.x0), ("y0", float r.y0), ("x1", float r.x1), ("y1", float r.y1)]

def scaleFactor (k : ScaleFactor Float) : Value := .record [("x", float k.x), ("y", float k.y)]

/-- A colour, its channels already multiplied by alpha. -/
def color (c : Color) : Value :=
  .record [("r", nat c.r.toNat), ("g", nat c.g.toNat), ("b", nat c.b.toNat), ("a", nat c.a.toNat)]

def transform (t : Transform Float) : Value :=
  .record [("translate", vec t.translate), ("rotation_rad", float t.rotation),
    ("scale", vec t.scale)]

def box (b : Box Float) : Value :=
  .record [("local", rect b.logical), ("frame", rect b.frame), ("fill", .bool b.fill)]

def pathElement : PathElement Float → Value
  | .moveTo p => .record [("MoveTo", point p)]
  | .lineTo p => .record [("LineTo", point p)]
  | .quadTo p q => .record [("QuadTo", .list [point p, point q])]
  | .curveTo p q r => .record [("CurveTo", .list [point p, point q, point r])]
  | .close => .text "ClosePath"

def elements (o : Outline Float) : Value := .list (o.map pathElement)

def tagged (kind : String) (value : Value) : Value :=
  .record [("type", .text kind), ("value", value)]

/-- A value of an animation, outlines as `path` writes them. -/
def animValue (path : Outline Float → Value) : AnimValue Float → Value
  | .scalar x => tagged "scalar" (float x)
  | .color c => tagged "color" (color c)
  | .transform t => tagged "transform" (transform t)
  | .path o => tagged "path" (path o)
  | .image f => tagged "image" (.record [("url", .text f.url.text), ("index", nat f.index)])
  | .motion p rotation =>
    tagged "motion" (.record [("position", point p), ("rotation_rad", float rotation)])

def target : LayerTarget → String
  | .root => "root"
  | .tilingHost => "tiling_host"
  | .image => "image"
  | .shape => "shape"
  | .text => "text"

def property : AnimatedProperty → String
  | .transform => "transform"
  | .opacity => "opacity"
  | .backgroundColor => "background_color"
  | .borderColor => "border_color"
  | .borderWidth => "border_width"
  | .cornerRadius => "corner_radius"
  | .contents => "contents"
  | .position => "position"
  | .path => "path"
  | .fillColor => "fill_color"
  | .strokeColor => "stroke_color"
  | .lineWidth => "line_width"
  | .strokeStart => "stroke_start"
  | .strokeEnd => "stroke_end"
  | .textColor => "text_color"

def calculation : Calculation → String
  | .linear => "linear"
  | .discrete => "discrete"
  | .paced => "paced"

def keyframes : Keyframes Float → Value
  | .values vs =>
    .record [("kind", .text "values"), ("data", .list (vs.map (animValue elements)))]
  | .motionPath path rotateAuto =>
    .record [("kind", .text "motion_path"),
      ("data", .record [("path", elements path), ("rotate_auto", .bool rotateAuto)])]

/-- A directive. Every directive holds its first value before it begins and its last one after. -/
def directive (d : Directive Float) : Value :=
  .record [("target", .text (target d.target)), ("property", .text (property d.property)),
    ("keyframes", keyframes d.keyframes), ("begin", float d.begin),
    ("duration", float d.duration), ("repeat_count", float d.repeatCount),
    ("fill", .text "both"), ("calculation", .text (calculation d.calculation))]

def shadow (s : Shadow Float) : Value :=
  .record [("color", color s.color), ("offset", .list [float s.offset.x, float s.offset.y]),
    ("opacity", float s.opacity), ("radius", float s.radius)]

def style (s : LayerStyle Float) : Value :=
  .record [("background", optional color s.background), ("border_width", float s.borderWidth),
    ("border_color", color s.borderColor), ("corner_radius", float s.cornerRadius),
    ("shadow", optional shadow s.shadow), ("opacity", float s.opacity),
    ("transform", transform s.transform), ("anchor", point s.anchor),
    ("position", point s.position), ("masks_to_bounds", .bool s.masksToBounds)]

def gravity : Gravity → Value
  | .resize => .text "resize"
  | .aspectFill => .text "aspect_fill"

def cell (c : Cell) : Value := .list [nat c.column, nat c.row]

def primary : Primary Float → Value
  | .image l =>
    .record [("kind", .text "image"), ("url", .text l.url.text), ("frame", rect l.frame),
      ("frame_count", nat l.frameCount), ("gravity", gravity l.gravity)]
  | .sprite l =>
    .record [("kind", .text "sprite"), ("url", .text l.url.text), ("frame", rect l.frame),
      ("slice", cell l.slice), ("slot", cell l.slot), ("contents_rect", rect l.contentsRect)]
  | .shape l =>
    .record [("kind", .text "shape"), ("path", .text (Outline.toSvg l.path)),
      ("frame", rect l.frame), ("fill", optional color l.fill), ("stroke", color l.stroke),
      ("line_width", float l.lineWidth), ("shadow", optional shadow l.shadow),
      ("stroke_start", float l.strokeStart), ("stroke_end", float l.strokeEnd)]
  | .video l =>
    .record [("kind", .text "video"), ("url", .text l.url.text), ("frame", rect l.frame),
      ("gravity", gravity l.gravity), ("stream", .bool l.stream)]

def tiling (h : TilingHost Float) : Value :=
  .record [("tiles", .list (h.tiles.map rect)), ("transform", transform h.transform)]

def mask (m : MaskLayer Float) : Value :=
  .record [("url", .text m.url.text), ("frame", rect m.frame)]

def textAlign : TextAlign → Value
  | .left => .text "left"
  | .center => .text "center"
  | .right => .text "right"

def text (t : TextLayer Float) : Value :=
  .record [("text", .text t.text), ("frame", rect t.frame), ("font_size", float t.fontSize),
    ("color", color t.color), ("align", textAlign t.align)]

def span (s : RichTextSpan Float) : Value :=
  .record [("text", .text s.text), ("font_size", optional float s.fontSize),
    ("color", optional color s.color), ("bold", .bool s.bold)]

def richText (l : RichTextLayer Float) : Value :=
  .record [("text", .record [("spans", .list (l.text.spans.map span))]), ("frame", rect l.frame)]

def layers (l : Layers Float) : Value :=
  .record [("style", style l.style), ("primary", optional primary l.primary),
    ("tiling", optional tiling l.tiling), ("mask", optional mask l.mask),
    ("text", optional text l.text), ("rich_text", optional richText l.richText)]

def ticket (t : SeekTicket) : Value :=
  .record [("element", nat t.element), ("generation", nat t.generation)]

def seek (s : SeekState Float) : Value :=
  .record [("in_flight", optional ticket s.inFlight), ("pending", optional float s.pending),
    ("next_generation", nat s.nextGeneration)]

def spriteClock (c : SpriteClock Float) : Value :=
  .record [("slice", cell c.slice), ("slot_row", nat c.slotRow),
    ("repeat_count", float c.repeatCount), ("step", optional nat c.step)]

def video (v : VideoSurface Float) : Value :=
  .record [("start_secs", float v.startSecs), ("duration_secs", float v.durationSecs),
    ("playing", .bool v.playing)]

/-- A field that is left out when there is nothing to say. -/
def field {β : Type} (name : String) (encode : β → Value) : Option β → List (String × Value)
  | some b => [(name, encode b)]
  | none => []

def animations (ds : List (Directive Float)) : List (String × Value) :=
  if ds.isEmpty then [] else [("animations", .list (ds.map directive))]

/-- The fields of an element apart from its children. -/
def body (b : Body Float) : List (String × Value) :=
  [("id", nat b.id)] ++ field "action" Value.text b.action ++
    [("frame", box b.box), ("layers", layers b.layers)] ++ animations b.animations ++
    [("playback", .record [("sprite", optional spriteClock b.sprite), ("seek", seek b.seek)])] ++
    field "video" video b.video

mutual

def element : Element Float → Value
  | .node b children =>
    match elementList children with
    | [] => .record (body b)
    | kids => .record (body b ++ [("children", .list kids)])

def elementList : List (Element Float) → List Value
  | [] => []
  | e :: es => element e :: elementList es

end

end LayerTree.Snapshot
