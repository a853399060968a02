import LayerTree.Animation.Directive
import LayerTree.Color.Reader
import LayerTree.Host
import LayerTree.Outline.Shape

/-!
The animations that a descriptor asks for.

There are three sources, a later one replacing what an earlier one says about the same property of
the same layer: the frames of an animated image, the record `to` of values to change to, and the
record `loop` of a repeated movement. What would animate a layer that is not there is left out.
-/

set_option autoImplicit false
set_option relaxedAutoImplicit false

namespace LayerTree

structure Animations (α : Type) where
  /-- At most one directive for each property of each layer. -/
  directives : List (Directive α)
  /-- How often a stepping sprite runs through its row, when it is asked to step. -/
  spriteRepeat : Option α
  deriving DecidableEq

/-- What animations are compiled from: the merged descriptor and what was built from it. -/
structure AnimationSource (α : Type) where
  info : Record
  layers : Layers α
  scale : ScaleFactor α
  bounds : Rect α

namespace Animations

variable {α : Type} [Scalar α]

/-- How far `vibrate` goes to either side, in local units. -/
def vibrateDelta : α := 10.0

/-- How far `wiggle` turns to either side, in degrees. -/
def wiggleDegrees : α := 15.0

/-- The directives with one more at the end, which replaces one for the same property. -/
def push (ds : List (Directive α)) (d : Directive α) : List (Directive α) :=
  ds.filter (fun e => !e.sameProperty d) ++ [d]

/-- The frames of an animated image after its first, which is shown before the animation. -/
def imageSequence (src : AnimationSource α) : List (Directive α) :=
  match src.layers.image? with
  | some image =>
    if 1 < image.frameCount then
      let frames := (List.range' 1 (image.frameCount - 1)).map fun i => .image ⟨image.url, i⟩
      [Directive.ofValues .image .contents frames .discrete]
    else []
  | none => []

def scalarChange (target : LayerTarget) (property : AnimatedProperty) (start : α)
    (finish : Option α) : List (Directive α) :=
  (finish.map fun x => Directive.transition target property (.scalar start) (.scalar x)).toList

def colorChange (target : LayerTarget) (property : AnimatedProperty) (start : Color)
    (finish : Option Color) : List (Directive α) :=
  (finish.map fun c => Directive.transition target property (.color start) (.color c)).toList

def rootChanges (wanted : Record) (src : AnimationSource α) : List (Directive α) :=
  let style := src.layers.style
  let color (name : String) : Option Color := Color.read? α (wanted.get? name)
  let scaled (name : String) : Option α := (wanted.number? name).map (· * src.scale.x)
  let transform := (Transform.ofFields wanted src.scale src.info).map fun t =>
    Directive.transition .root .transform (.transform style.transform) (.transform t)
  transform.toList ++
    scalarChange .root .opacity style.opacity (wanted.number? "opacity") ++
    colorChange .root .backgroundColor (style.background.getD Color.transparent) (color "bc") ++
    colorChange .root .borderColor style.borderColor (color "borderColor") ++
    scalarChange .root .borderWidth style.borderWidth (scaled "borderWidth") ++
    scalarChange .root .cornerRadius style.cornerRadius (scaled "cornerRadius")

def textChanges (wanted : Record) (src : AnimationSource α) : List (Directive α) :=
  match src.layers.text with
  | some text => colorChange .text .textColor text.color (Color.read? α (wanted.get? "textColor"))
  | none => []

/-- The image sequence of other images. -/
def imageChanges (frames : List ResourceUrl) (src : AnimationSource α) : List (Directive α) :=
  match src.layers.image?, frames with
  | some _, url :: urls =>
    let values := (url :: urls).map fun u => AnimValue.image ⟨u, 0⟩
    [Directive.ofValues .image .contents values .discrete]
  | _, _ => []

/-- The movement along a path, which starts where the moved layer stands. -/
def motionChanges [Analytic α] (paths : Outline.NamedPaths) (wanted : Record)
    (src : AnimationSource α) : List (Directive α) :=
  match Outline.ofShape? paths (wanted.get? "pos") with
  | some path =>
    let (target, origin) := match src.layers.tiling with
      | some _ => (LayerTarget.tilingHost, src.bounds.center)
      | none => (LayerTarget.root, src.layers.style.position)
    let placed := Outline.transform (Affine.shift origin.toVec)
      (Outline.toDevice src.scale path)
    [Directive.motion target placed true]
  | none => []

/-- The change of an outline: through a list of outlines, or to a single one. -/
def outlineChanges [Analytic α] (paths : Outline.NamedPaths) (wanted : Record)
    (shape : ShapeLayer α) (k : ScaleFactor α) : List (Directive α) :=
  match wanted.list? "path" with
  | some items =>
    let others := items.filterMap fun item => Outline.ofShape? paths (some item)
    let values := AnimValue.path shape.path ::
      others.map fun o => AnimValue.path (Outline.toDevice k o)
    [Directive.ofValues .shape .path values .linear]
  | none =>
    match Outline.ofShape? paths (wanted.get? "path") with
    | some o =>
      [Directive.transition .shape .path (.path shape.path) (.path (Outline.toDevice k o))]
    | none => []

def shapeChanges [Analytic α] (paths : Outline.NamedPaths) (wanted : Record)
    (src : AnimationSource α) : List (Directive α) :=
  match src.layers.shape? with
  | some shape =>
    let color (name : String) : Option Color := Color.read? α (wanted.get? name)
    let width : Option α := (wanted.number? "lineWidth").map (· * src.scale.x)
    outlineChanges paths wanted shape src.scale ++
      colorChange .shape .fillColor (shape.fill.getD Color.transparent) (color "fillColor") ++
      colorChange .shape .strokeColor shape.stroke (color "strokeColor") ++
      scalarChange .shape .lineWidth shape.lineWidth width ++
      scalarChange .shape .strokeStart shape.strokeStart (wanted.number? "strokeStart") ++
      scalarChange .shape .strokeEnd shape.strokeEnd (wanted.number? "strokeEnd")
  | none => []

/-- The directives of the record `to`, given the images that it names. -/
def transitions [Analytic α] (paths : Outline.NamedPaths) (frames : List ResourceUrl)
    (wanted : Record) (src : AnimationSource α) : List (Directive α) :=
  rootChanges wanted src ++ textChanges wanted src ++ imageChanges frames src ++
    motionChanges paths wanted src ++ shapeChanges paths wanted src

/-- How often a loop repeats; a count that is not positive and finite stands for one. -/
def loopRepeat (spec : Record) : α :=
  ((spec.number? "repeat").filter fun r => Scalar.isFinite r && decide (0 < r)).getD 1

/-- How far a shift goes, by the size of the element, in the direction of the compass that is
given; south when none is. -/
def shiftVector (direction : Option String) (bounds : Rect α) : Vec α :=
  match direction with
  | some "n" => ⟨0, -bounds.height⟩
  | some "e" => ⟨bounds.width, 0⟩
  | some "w" => ⟨-bounds.width, 0⟩
  | _ => ⟨0, bounds.height⟩

/-- A movement to one side, back, to the other side and back. -/
def swing (base there back : Transform α) : List (AnimValue α) :=
  [.transform base, .transform there, .transform base, .transform back, .transform base]

/-- A shift of the repeated content, or of the element when its content is not repeated. -/
def shiftLoop (spec : Record) (src : AnimationSource α) : Directive α :=
  let vector := shiftVector (spec.text? "direction") src.bounds
  let (target, start) := match src.layers.tiling with
    | some host => (LayerTarget.tilingHost, host.transform)
    | none => (LayerTarget.root, src.layers.style.transform)
  Directive.looping target .transform [.transform start, .transform (start.moved vector)]
    (loopRepeat spec)

/-- A shape going through other outlines and back to its own; nothing without others. -/
def outlineLoop [Analytic α] (paths : Outline.NamedPaths) (spec : Record)
    (src : AnimationSource α) : List (Directive α) :=
  match src.layers.shape?, Outline.ofShapes paths (spec.get? "path") with
  | some shape, o :: os =>
    let others := (o :: os).map fun p => AnimValue.path (Outline.toDevice src.scale p)
    let values := AnimValue.path shape.path :: others ++ [.path shape.path]
    [Directive.looping .shape .path values (loopRepeat spec)]
  | _, _ => []

def loops [Analytic α] (paths : Outline.NamedPaths) (spec : Record) (src : AnimationSource α) :
    List (Directive α) :=
  let base := src.layers.style.transform
  match spec.text? "style" with
  | some "vibrate" =>
    let delta := spec.numberD "delta" vibrateDelta * src.scale.x
    let values := swing base (base.moved ⟨delta, 0⟩) (base.moved ⟨-delta, 0⟩)
    [Directive.looping .root .transform values (loopRepeat spec)]
  | some "wiggle" =>
    let delta := Scalar.radians (spec.numberD "delta" wiggleDegrees)
    let values := swing base (base.rotated delta) (base.rotated (-delta))
    [Directive.looping .root .transform values (loopRepeat spec)]
  | some "shift" => [shiftLoop spec src]
  | some "blink" =>
    [Directive.looping .root .opacity [.scalar 1, .scalar 0, .scalar 1] (loopRepeat spec)]
  | some "path" => outlineLoop paths spec src
  | _ => []

/-- How often a sprite runs through its row, when the loop is one of a sprite. -/
def spriteRepeat? (spec : Record) : Option α :=
  if spec.text? "style" == some "sprite" then some (loopRepeat spec) else none

/-- The images named by the record `to` of a descriptor. -/
def imageSources (info : Record) : List String :=
  (((info.record? "to").bind fun wanted => wanted.list? "img").getD []).filterMap Json.Value.text?

/-- The animations of an element, given the images that its record `to` names. -/
def ofDescriptor [Analytic α] (paths : Outline.NamedPaths) (frames : List ResourceUrl)
    (src : AnimationSource α) : Animations α :=
  let changes :=
    ((src.info.record? "to").map fun wanted => transitions paths frames wanted src).getD []
  let repeated := ((src.info.record? "loop").map fun spec => loops paths spec src).getD []
  { directives := (imageSequence src ++ changes ++ repeated).foldl push []
    spriteRepeat := (src.info.record? "loop").bind spriteRepeat? }

end Animations

end LayerTree
