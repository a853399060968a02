import LayerTree.Media.Bytes
import LayerTree.Media.Gif.Codes

/-!
The size and the number of frames of a GIF image.

The size is that of the screen on which frames are shown. Frames count up to the first one whose
pixels cannot all be read. What follows the last pixel in the data of a frame is passed over.
-/

set_option autoImplicit false
set_option relaxedAutoImplicit false

namespace LayerTree.Media.Gif

open Scan

/-- The two ways in which a file may start. -/
def signatures : List (List UInt8) := ["GIF87a".toUTF8.toList, "GIF89a".toUTF8.toList]

def extensionMark : UInt8 := 0x21

def frameMark : UInt8 := 0x2C

def trailerMark : UInt8 := 0x3B

/-- The label of the extension that times a frame. -/
def controlLabel : UInt8 := 0xF9

/-- The labels of extensions: plain text, control, comment and application. -/
def extensionLabels : List UInt8 := [0x01, controlLabel, 0xFE, 0xFF]

/-- The length of the table of colours that flags announce; none has no length. -/
def paletteLength (flags : UInt8) : Nat :=
  if flags &&& 0x80 == 0 then 0 else 3 * Nat.pow 2 ((flags &&& 7).toNat + 1)

structure Screen where
  width : Nat
  height : Nat
  hasPalette : Bool
  deriving DecidableEq

def screen : Scan Screen := do
  require (signatures.contains (← take 6))
  let width ← word
  let height ← word
  let flags ← byte
  skip 2
  skip (paletteLength flags)
  pure ⟨width, height, paletteLength flags != 0⟩

/-- Passes over blocks with their lengths in front, up to the empty block at their end; also the
length of the last one before it. -/
def passBlocks : Nat → Nat → Scan Nat
  | 0, _ => failure
  | fuel + 1, last => do
    let length ← byte
    if length == 0 then pure last
    else
      skip length.toNat
      passBlocks fuel length.toNat

/-- Passes over an extension whose mark has been read. What times a frame is in a block of four
bytes, the last one if there are several. -/
def extension : Scan Unit := do
  let label ← byte
  require (extensionLabels.contains label)
  let last ← passBlocks ((← get).length + 1) 0
  require (label != controlLabel || last == 4)

/-- The mark that the next block starts with. More bytes have to follow it, except when it ends the
file after another block. -/
def nextMark (afterBlock : Bool) : Scan UInt8 := do
  let mark ← byte
  require ((afterBlock && mark == trailerMark) || !(← get).isEmpty)
  pure mark

/-- Passes over extensions; the mark of the first other block. -/
def firstMark : Nat → Bool → Scan UInt8
  | 0, _ => failure
  | fuel + 1, afterBlock => do
    let mark ← nextMark afterBlock
    if mark == extensionMark then
      extension
      firstMark fuel true
    else pure mark

/-- The header of a frame: its size, the order of its rows, whether it has colours of its own, and
the bits that a pixel of its data needs. -/
structure Frame where
  width : Nat
  height : Nat
  interlaced : Bool
  hasPalette : Bool
  literalBits : Nat
  deriving DecidableEq

/-- The header of a frame whose mark has been read. -/
def frameHeader : Scan Frame := do
  skip 4
  let width ← word
  let height ← word
  let flags ← byte
  skip (paletteLength flags)
  let literalBits ← byte
  require (literalBits != 0 && literalBits ≤ 11)
  pure ⟨width, height, flags &&& 0x40 != 0, paletteLength flags != 0, literalBits.toNat⟩

/-- The data of a frame: what has been decoded, the bytes that are left of the current block, and
all bytes from there on. -/
structure FrameData where
  decoder : Decoder
  left : Nat
  bytes : List UInt8

namespace FrameData

/-- Decodes a part of the current block. -/
def decodeBlock (f : FrameData) (room : Nat) : Option (FrameData × Nat) :=
  let piece := f.bytes.take f.left
  (f.decoder.decode piece room).map fun (decoder, unused, room) =>
    let used := piece.length - unused.length
    (⟨decoder, f.left - used, f.bytes.drop used⟩, room)

/-- Decodes what is held when the data are at their end; there is no answer when that leads no
further. -/
def decodeEnd (f : FrameData) (room : Nat) : Option (FrameData × Nat) :=
  (f.decoder.decode [] room).bind fun (decoder, _, left) =>
    if decoder.held == f.decoder.held && left == room then none
    else some ({ f with decoder := decoder }, left)

/-- Goes on with a block of the given length. -/
def enterBlock (f : FrameData) (length : Nat) (bytes : List UInt8) : FrameData :=
  { f with left := length, bytes := bytes }

/-- Reads pixels until there is no room left. Nothing is read after the code that ends the data. -/
def fill : Nat → FrameData → Nat → Option FrameData
  | 0, _, _ => none
  | fuel + 1, f, room =>
    match f.bytes with
    | [] => none
    | length :: rest =>
      let next :=
        if f.decoder.ended then none
        else if f.left != 0 then f.decodeBlock room
        else if length != 0 then some (f.enterBlock length.toNat rest, room)
        else f.decodeEnd room
      match next with
      | none => none
      | some (f, 0) => some f
      | some (f, room) => fill fuel f room

def read (f : FrameData) (pixels : Nat) : Option FrameData :=
  if pixels == 0 then none
  else fill (10 * f.bytes.length + f.decoder.held + 2) f pixels

def readRows (width : Nat) : Nat → FrameData → Option FrameData
  | 0, f => some f
  | rows + 1, f => (f.read width).bind (readRows width rows)

end FrameData

/-- Reads all pixels of a frame whose mark has been read; what follows of its blocks remains. -/
def pixels (hasPalette : Bool) : Scan Nat := do
  let frame ← frameHeader
  let left ← byte
  require (hasPalette || frame.hasPalette)
  let data : FrameData := ⟨Decoder.start frame.literalBits, left.toNat, ← get⟩
  let rest ← if frame.interlaced then data.readRows frame.width frame.height
    else data.read (frame.width * frame.height)
  set rest.bytes
  pure rest.left

/-- Passes over the rest of a frame, from within a block; then the mark of the next block. -/
def afterPixels (left : Nat) : Scan UInt8 := do
  skip left
  let _ ← passBlocks ((← get).length + 1) 0
  nextMark true

/-- The number of frames from a block with the given mark up to the first one that cannot be
shown. -/
def frameCount (hasPalette : Bool) : Nat → UInt8 → List UInt8 → Nat
  | 0, _, _ => 0
  | fuel + 1, mark, bytes =>
    if mark == extensionMark then
      match (extension *> nextMark true).run bytes with
      | none => 0
      | some (mark, rest) => frameCount hasPalette fuel mark rest
    else if mark == frameMark then
      match (pixels hasPalette).run bytes with
      | none => 0
      | some (left, rest) =>
        match (afterPixels left).run rest with
        | none => 1
        | some (mark, rest) => frameCount hasPalette fuel mark rest + 1
    else 0

/-- The screen of an image and the number of its frames. -/
def image : Scan (Screen × Nat) := do
  let s ← screen
  let mark ← firstMark ((← get).length + 1) false
  let bytes ← get
  pure (s, frameCount s.hasPalette (bytes.length + 1) mark bytes)

def read? (bytes : List UInt8) : Option (Screen × Nat) := (image.run bytes).map (·.1)

end LayerTree.Media.Gif
