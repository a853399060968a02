import LayerTree.Animation.OfDescriptor
import LayerTree.Layout.Box
import LayerTree.Playback.Seek
import LayerTree.Playback.SpriteClock

/-!
Element trees: what one node holds, how a tree is walked, and how one of its elements is found.
-/

set_option autoImplicit false
set_option relaxedAutoImplicit false

namespace LayerTree

/-- A video and the part of it that the timeline covers. -/
structure VideoSurface (α : Type) where
  /-- What the player was opened with. -/
  url : ResourceUrl
  /-- The media time at the start of the timeline, in seconds. -/
  startSecs : α
  /-- The media seconds that the timeline covers. -/
  durationSecs : α
  playing : Bool
  /-- Whether the media is over and has to be rewound before it plays again. -/
  needsRewind : Bool
  deriving DecidableEq

namespace VideoSurface

variable {α : Type} [Scalar α]

/-- The media time at an offset. -/
def mediaTime (v : VideoSurface α) (t : α) : α := v.startSecs + t * v.durationSecs

end VideoSurface

/-- One element without its children. -/
structure Body (α : Type) where
  id : ElementId
  /-- The descriptor, merged over its prototype. -/
  info : Record
  scale : ScaleFactor α
  /-- What a tap on the element does. -/
  action : Option String
  box : Box α
  layers : Layers α
  animations : List (Directive α)
  /-- The clock of a stepping sprite. -/
  sprite : Option (SpriteClock α)
  seek : SeekState α
  video : Option (VideoSurface α)

inductive Element (α : Type) where
  | node (body : Body α) (children : List (Element α))

namespace Element

variable {α : Type}

def body : Element α → Body α
  | node body _ => body

def children : Element α → List (Element α)
  | node _ children => children

mutual

/-- All bodies of the tree, a parent before its children. -/
def toList : Element α → List (Body α)
  | node body children => body :: listAll children

/-- All bodies of several trees. -/
def listAll : List (Element α) → List (Body α)
  | [] => []
  | e :: es => e.toList ++ listAll es

end

def size (e : Element α) : Nat := e.toList.length

/-- The body with the given id that comes first. -/
def find? (id : ElementId) (e : Element α) : Option (Body α) :=
  e.toList.find? fun b => b.id == id

mutual

/-- The subtree whose root has the given id and comes first. -/
def subtree? (id : ElementId) : Element α → Option (Element α)
  | node body children =>
    if body.id == id then some (node body children) else subtreeAmong? id children

def subtreeAmong? (id : ElementId) : List (Element α) → Option (Element α)
  | [] => none
  | e :: es => (subtree? id e).or (subtreeAmong? id es)

end

mutual

/-- Replaces the first subtree with the given id by what a function makes of it; also what else
the function answers. -/
def update? {β : Type} (id : ElementId) (f : Element α → β × Element α) :
    Element α → Option (β × Element α)
  | node body children =>
    if body.id == id then some (f (node body children))
    else (updateAmong? id f children).map fun (answer, kids) => (answer, node body kids)

def updateAmong? {β : Type} (id : ElementId) (f : Element α → β × Element α) :
    List (Element α) → Option (β × List (Element α))
  | [] => none
  | e :: es =>
    match update? id f e with
    | some (answer, e') => some (answer, e' :: es)
    | none => (updateAmong? id f es).map fun (answer, es') => (answer, e :: es')

end

mutual

def map (f : Body α → Body α) : Element α → Element α
  | node body children => node (f body) (mapAll f children)

def mapAll (f : Body α → Body α) : List (Element α) → List (Element α)
  | [] => []
  | e :: es => e.map f :: mapAll f es

end

mutual

/-- Changes every body of the tree, children before their parent, and collects what the changes
tell in that order. -/
def sweep {ε : Type} (f : Body α → List ε × Body α) : Element α → List ε × Element α
  | node body children =>
    let below := sweepAll f children
    let own := f body
    (below.1 ++ own.1, node own.2 below.2)

def sweepAll {ε : Type} (f : Body α → List ε × Body α) :
    List (Element α) → List ε × List (Element α)
  | [] => ([], [])
  | e :: es =>
    let first := sweep f e
    let others := sweepAll f es
    (first.1 ++ others.1, first.2 :: others.2)

end

def hasVideo (e : Element α) : Bool := e.toList.any fun b => b.video.isSome

def isPlaying (e : Element α) : Bool :=
  e.toList.any fun b => b.video.any fun v => v.playing

end Element

end LayerTree
