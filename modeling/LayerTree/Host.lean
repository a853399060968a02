import LayerTree.Layer

/-!
What an element tree is built against: a delegate, which knows prototypes, paths and addresses,
and a media backend, which reads images, opens players and measures text.

Answers that a load asks for may depend on, and change, a state of the host; lookups of prototypes,
paths and the base address do not.
-/

set_option autoImplicit false
set_option relaxedAutoImplicit false

namespace LayerTree

open Json (Value)

/-- What has to be known about an image. -/
structure ImageInfo where
  width : Nat
  height : Nat
  /-- One for a still image. -/
  frameCount : Nat
  deriving DecidableEq, Inhabited

namespace ImageInfo

/-- The size in pixels. -/
def size {α : Type} [Scalar α] (info : ImageInfo) : Size α :=
  ⟨(info.width : α), (info.height : α)⟩

/-- Whether there is anything to show. -/
def isVisible (info : ImageInfo) : Bool :=
  0 < info.frameCount && 0 < info.width && 0 < info.height

end ImageInfo

/-- The lookups that need no state. -/
structure Lookups where
  /-- The record that supplies default fields under a name. -/
  prototype : String → Option Record
  /-- The path that is shared under a name. -/
  namedPath : String → Option Value
  /-- What relative addresses are resolved against. -/
  baseUrl : Option ResourceUrl

namespace Lookups

def none : Lookups := ⟨fun _ => .none, fun _ => .none, .none⟩

end Lookups

/-- The host that an element tree is built for. -/
structure Delegate (σ α : Type) extends Lookups where
  /-- The local copy of a resource, if there is one. -/
  mapToLocal : ResourceUrl → StateM σ (Option ResourceUrl)
  /-- The styled text of markdown lines, if the host renders them. -/
  renderMarkdown : Record → List String → StateM σ (Option (RichText α))

/-- The services that media are read with. -/
structure MediaBackend (σ α : Type) where
  /-- The size and frames of a local image. -/
  probeImage : ResourceUrl → StateM σ (Except Failure ImageInfo)
  /-- Opens a player for a local file, or for a stream. -/
  openVideo : ResourceUrl → Bool → StateM σ (Except Failure Unit)
  /-- The height of a text of a given font size, wrapped to a width, all in device pixels. -/
  measureText : String → α → α → StateM σ α

end LayerTree
