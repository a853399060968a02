import LayerTree.Element

/-!
Driving a built tree: applying timeline offsets, completing seeks, playing and pausing, and taps.

No operation talks to a player itself. Each answers the tree that it leads to and the events that
it causes, in order: what the players are asked to do and what the host is told.
-/

set_option autoImplicit false
set_option relaxedAutoImplicit false

namespace LayerTree

structure Player where
  element : ElementId
  url : ResourceUrl
  deriving DecidableEq, Inhabited

structure SeekRequest (α : Type) where
  /-- Seconds from the start of the media. -/
  target : α
  /-- How much earlier the seek may land, in seconds. -/
  toleranceBefore : α
  /-- How much later the seek may land, in seconds. -/
  toleranceAfter : α
  ticket : SeekTicket
  deriving DecidableEq

/-- What an operation on a tree causes outside of it. -/
inductive Event (α : Type) where
  | seek (player : Player) (request : SeekRequest α)
  | rewind (player : Player)
  | play (player : Player)
  | pause (player : Player)
  | started (element : ElementId)
  /-- A video stopped; completed when it came to its end. -/
  | finished (element : ElementId) (completed : Bool)
  | action (element : ElementId) (name : String)
  deriving DecidableEq

variable {α : Type}

def pressedOpacity [Scalar α] : α := 0.5

/-- How far from its target a seek may land, in seconds. -/
def seekTolerance [Scalar α] : α := 1 / 60.0

def playAction : String := "play"

namespace Body

def player (b : Body α) (v : VideoSurface α) : Player := ⟨b.id, v.url⟩

def withOpacity (opacity : α) (b : Body α) : Body α :=
  { b with layers := b.layers.withOpacity opacity }

def withPlayOpacity (opacity : α) (b : Body α) : Body α :=
  if b.action == some playAction then b.withOpacity opacity else b

variable [Scalar α]

/-- Moves a stepping sprite to an offset; the cell changes only with the step. -/
def stepSprite (t : α) (b : Body α) : Body α :=
  match b.sprite with
  | none => b
  | some clock =>
    let moved := clock.advance t
    let layers := match moved.1 with
      | some rect => b.layers.showCell rect
      | none => b.layers
    { b with sprite := some moved.2, layers := layers }

/-- Seeks a video to an offset if its player is ready, or keeps the offset while a seek is in
flight. -/
def seekVideo (ready : Player → Bool) (t : α) (b : Body α) : List (Event α) × Body α :=
  match b.video with
  | none => ([], b)
  | some video =>
    match b.seek.inFlight with
    | some _ => ([], { b with seek := b.seek.postpone t })
    | none =>
      if ready (b.player video) then
        let issued := b.seek.issue b.id
        ([.seek (b.player video)
            ⟨video.mediaTime t, seekTolerance, seekTolerance, issued.1⟩],
          { b with seek := issued.2 })
      else ([], b)

/-- Applies an offset to one element; while the timeline plays by itself, videos are left alone. -/
def applyOffset (ready : Player → Bool) (t : α) (autoplay : Bool) (b : Body α) :
    List (Event α) × Body α :=
  if autoplay then ([], b.stepSprite t) else (b.stepSprite t).seekVideo ready t

omit [Scalar α]

/-- Starts a video that does not play, rewound if it was over. -/
def startVideo (b : Body α) : List (Event α) × Body α :=
  match b.video with
  | none => ([], b)
  | some video =>
    if video.playing then ([], b)
    else
      let player := b.player video
      let rewinding := if video.needsRewind then [Event.rewind player] else []
      (rewinding ++ [.play player, .started b.id],
        { b with video := some { video with playing := true, needsRewind := false } })

def pauseVideo (b : Body α) : List (Event α) × Body α :=
  match b.video with
  | none => ([], b)
  | some video =>
    if video.playing then
      ([.pause (b.player video), .finished b.id false],
        { b with video := some { video with playing := false } })
    else ([], b)

/-- A video that came to its end plays again from the start, or stops and is to be rewound. Also
whether it was playing and stopped. -/
def endVideo (repeats : Bool) (video : VideoSurface α) (b : Body α) :
    (List (Event α) × Bool) × Body α :=
  if repeats then (([.rewind (b.player video), .play (b.player video)], false), b)
  else
    let stopped := { b with video := some { video with playing := false, needsRewind := true } }
    if video.playing then (([.finished b.id true], true), stopped) else (([], false), stopped)

/-- Nothing in flight, nothing pending, and no video. -/
def tearDown (b : Body α) : Body α := { b with video := none, seek := b.seek.reset }

end Body

namespace Element

def setPlayOpacity (opacity : α) (e : Element α) : Element α := e.map (Body.withPlayOpacity opacity)

section

variable [Scalar α]

/-- Applies a timeline offset to the tree, children first; an offset outside of the timeline
changes nothing. -/
def setTimeOffset (ready : Player → Bool) (t : α) (autoplay : Bool) (e : Element α) :
    List (Event α) × Element α :=
  if 0 ≤ t ∧ t ≤ 1 then e.sweep (Body.applyOffset ready t autoplay) else ([], e)

/-- Takes the completion of a seek of the element at the root. -/
def landSeek (ready : Player → Bool) (ticket : SeekTicket) (e : Element α) :
    (SeekCompletion × List (Event α)) × Element α :=
  let b := e.body
  if b.video.isSome && b.seek.inFlight == some ticket then
    let landed := node { b with seek := b.seek.reset } e.children
    match b.seek.pending with
    | some t =>
      let applied := landed.setTimeOffset ready t false
      ((.drained, applied.1), applied.2)
    | none => ((.settled, []), landed)
  else ((.stale, []), e)

/-- Takes the completion of a seek anywhere in the tree. An offset that was pending is applied to
the element and everything below it. -/
def completeSeek (ready : Player → Bool) (ticket : SeekTicket) (e : Element α) :
    (SeekCompletion × List (Event α)) × Element α :=
  (e.update? ticket.element (landSeek ready ticket)).getD ((.stale, []), e)

/-- Starts every video that does not play, children first; the buttons that start playing hide
when one did. -/
def startAutoplay (e : Element α) : List (Event α) × Element α :=
  let started := e.sweep Body.startVideo
  if started.1.isEmpty then started else (started.1, started.2.setPlayOpacity 0)

/-- What a start answers: whether there is a video that it starts. -/
def startAnswer (e : Element α) : Bool :=
  e.toList.any fun b => b.video.any fun video => !video.playing

/-- Pauses every video that plays, children first; the buttons that start playing reappear when
one did. -/
def pauseAutoplay (e : Element α) : List (Event α) × Element α :=
  let paused := e.sweep Body.pauseVideo
  if paused.1.isEmpty then paused else (paused.1, paused.2.setPlayOpacity 1)

/-- What a pause answers: whether there is a video that it stops. -/
def pauseAnswer (e : Element α) : Bool := e.isPlaying

/-- What the end of its media means for the element at the root: nothing without a video. -/
def endHere (repeats : Body α → Bool) (e : Element α) :
    Option (List (Event α) × Bool) × Element α :=
  match e.body.video with
  | none => (none, e)
  | some video =>
    let ended := e.body.endVideo (repeats e.body) video
    (some ended.1, node ended.2 e.children)

/-- Takes the end of the media of an element's video: none when there is no such video. When that
stops a video, the buttons of the tree that start playing reappear. -/
def videoReachedEnd (repeats : Body α → Bool) (id : ElementId) (e : Element α) :
    Option (List (Event α)) × Element α :=
  match e.update? id (endHere repeats) with
  | some (some (events, stopped), next) =>
    (some events, if stopped then next.setPlayOpacity 1 else next)
  | _ => (none, e)

/-- Shows whether a tappable element is held; also whether the element is one. -/
def setActionOpacity (opacity : α) (e : Element α) : Bool × Element α :=
  if e.body.action.isSome then (true, node (e.body.withOpacity opacity) e.children)
  else (false, e)

def touchDown (e : Element α) : Bool × Element α := e.setActionOpacity pressedOpacity

def touchCancel (e : Element α) : Bool × Element α := e.setActionOpacity 1

/-- A tap on the element; none when nothing happens on one. -/
def press (e : Element α) : Option (List (Event α)) × Element α :=
  match e.body.action with
  | some name => (some [.action e.body.id name], (e.setActionOpacity 1).2)
  | none => (none, e)

end

/-- Drops the children and the video of the element; completions of their seeks are stale from now
on. -/
def clear (e : Element α) : Element α := node e.body.tearDown []

end Element

end LayerTree
