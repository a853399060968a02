import LayerTree.Media.Png.Chunk
import LayerTree.Media.Png.Header

/-!
What the chunks of a PNG file say before the pixels.

Little that an ancillary chunk says is checked: when it is too short it is mostly passed over. What
places a frame is the exception, and so are the chunks about colours that have more or other bytes
than they may have.
-/

set_option autoImplicit false
set_option relaxedAutoImplicit false

namespace LayerTree.Media.Png

open Scan

/-- The number of bytes that an image may need while its rows are read. -/
def memoryLimit : Nat := Nat.pow 2 29

structure Preamble where
  header : Header
  hasPalette : Bool
  transparent : Bool
  hasCodePoints : Bool
  hasMastering : Bool
  hasLight : Bool
  /-- The number of the last frame that was placed. -/
  lastFrame : Option Nat
  /-- The number of bytes that are kept of chunks. -/
  kept : Nat
  deriving DecidableEq

namespace Preamble

/-- What is known after the first chunk. -/
def start (h : Header) : Preamble := ⟨h, false, false, false, false, false, none, 0⟩

/-- After the palette, of which there is one with at least a colour and at most 256. -/
def palette (p : Preamble) (data : List UInt8) : Option Preamble :=
  if p.hasPalette || data.length < 3 || 768 < data.length then none
  else some { p with hasPalette := true, kept := p.kept + data.length }

/-- Whether data can say which pixels are transparent: where pixels have no such channel, a gray or
a colour, or a list for a palette that is known. -/
def isTransparency (p : Preamble) (data : List UInt8) : Bool :=
  match p.header.color with
  | .gray => 2 ≤ data.length
  | .rgb => 6 ≤ data.length
  | .indexed => p.hasPalette
  | _ => false

/-- After a chunk about transparency, of which the first legal one counts. -/
def transparency (p : Preamble) (data : List UInt8) : Preamble :=
  if p.transparent then p
  else { p with transparent := p.isTransparency data, kept := p.kept + data.length }

/-- After the colour behind the image. Where it would be an index, the palette comes first. -/
def background (p : Preamble) : Option Preamble :=
  if p.header.color == .indexed && !p.hasPalette then none else some p

/-- After the code points of the colour space. They count before the palette and once; their matrix
has to be that of red, green and blue. -/
def codePoints (p : Preamble) (data : List UInt8) : Option Preamble :=
  if p.hasPalette || p.hasCodePoints || data.length < 4 then some p
  else match data with
    | [_, _, matrix, range] =>
      if matrix == 0 && range ≤ 1 then some { p with hasCodePoints := true } else none
    | _ => none

/-- After the colours of the display, which count before the palette and once. -/
def mastering (p : Preamble) (data : List UInt8) : Option Preamble :=
  if p.hasPalette || p.hasMastering || data.length < 24 then some p
  else if data.length == 24 then some { p with hasMastering := true }
  else none

/-- After the light levels, which count once. -/
def light (p : Preamble) (data : List UInt8) : Option Preamble :=
  if p.hasLight || data.length < 8 then some p
  else if data.length == 8 then some { p with hasLight := true }
  else none

def nextFrame (p : Preamble) : Nat :=
  match p.lastFrame with
  | some number => number + 1
  | none => 0

/-- After what places a frame. Frames are numbered in order, and one that is placed before the
pixels covers the image. -/
def frame (p : Preamble) : Scan Preamble := do
  let number ← longBigEndian
  let width ← longBigEndian
  let height ← longBigEndian
  let left ← longBigEndian
  let top ← longBigEndian
  skip 4
  let disposal ← byte
  let blending ← byte
  require (number == p.nextFrame)
  require (width == p.header.width && height == p.header.height && left == 0 && top == 0)
  require (disposal ≤ 2 && blending ≤ 1)
  pure { p with lastFrame := some number }

/-- What is known after one more chunk, or nothing when it makes the file illegal. -/
def after (p : Preamble) (kind : ChunkKind) (data : List UInt8) : Option Preamble :=
  match kind with
  | .palette => p.palette data
  | .transparency => some (p.transparency data)
  | .background => p.background
  | .codePoints => p.codePoints data
  | .mastering => p.mastering data
  | .light => p.light data
  | .frame => (p.frame.run data).map (·.1)
  | .other true => some p
  | _ => none

/-- The length of a row of pixels when it is shown, with whole bytes for each sample. -/
def rowLength (p : Preamble) : Nat :=
  p.header.width * p.header.color.channels p.transparent * (if p.header.depth == 16 then 2 else 1)

/-- Whether there is memory for a row besides what is kept. -/
def fits (p : Preamble) : Bool := p.rowLength + p.kept ≤ memoryLimit

end Preamble

/-- Reads chunks up to the first one of pixels. Pixels of a frame have a number in front, and come
after what places a frame. -/
def toPixels : Nat → Preamble → Scan Preamble
  | 0, _ => failure
  | fuel + 1, p => do
    let (length, name) ← chunkStart
    match ChunkKind.ofName name with
    | .imageData => pure p
    | .frameData =>
      require (p.lastFrame.isSome && 4 ≤ length)
      pure p
    | kind =>
      match ← chunkData length name with
      | none => toPixels fuel p
      | some data => do
        let p ← p.after kind data
        toPixels fuel p

end LayerTree.Media.Png
