import LayerTree.Media.Bytes

/-!
The chunks of a PNG file: a length, a name of four letters, data and a checksum of name and data.
-/

set_option autoImplicit false
set_option relaxedAutoImplicit false

namespace LayerTree.Media.Png

open Scan

/-- One step of the division that the checksum is the remainder of. -/
def checksumShift (remainder : UInt32) : UInt32 :=
  if remainder &&& 1 == 1 then (remainder >>> 1) ^^^ 0xEDB88320 else remainder >>> 1

/-- The remainder after one more byte. -/
def checksumByte (remainder : UInt32) (b : UInt8) : UInt32 :=
  Nat.repeat checksumShift 8 (remainder ^^^ b.toUInt32)

def checksum (bytes : List UInt8) : UInt32 :=
  bytes.foldl checksumByte 0xFFFFFFFF ^^^ 0xFFFFFFFF

inductive ChunkKind where
  /-- The size and the form of the image. -/
  | header
  /-- The colours of a palette. -/
  | palette
  /-- The transparency of a colour, or of the colours of a palette. -/
  | transparency
  /-- The colour behind the image. -/
  | background
  /-- The place and the time of a frame. -/
  | frame
  /-- The colour space, named by code points. -/
  | codePoints
  /-- The colours of the display that the image was made on. -/
  | mastering
  /-- The lightest pixels. -/
  | light
  /-- The pixels of the image. -/
  | imageData
  /-- The pixels of a later frame. -/
  | frameData
  /-- Anything else; a reader may go on without it only if it is ancillary. -/
  | other (ancillary : Bool)
  deriving DecidableEq

namespace ChunkKind

/-- The chunks that are told apart by their names. -/
def names : List (String × ChunkKind) :=
  [("IHDR", header), ("PLTE", palette), ("tRNS", transparency), ("bKGD", background),
    ("fcTL", frame), ("cICP", codePoints), ("mDCV", mastering), ("cLLI", light),
    ("IDAT", imageData), ("fdAT", frameData)]

/-- Whether a name is that of an ancillary chunk: its first letter is a small one. -/
def isAncillaryName : List UInt8 → Bool
  | b :: _ => b &&& 0x20 != 0
  | [] => false

def ofName (name : List UInt8) : ChunkKind :=
  match names.find? (fun entry => entry.1.toUTF8.toList == name) with
  | some (_, kind) => kind
  | none => other (isAncillaryName name)

end ChunkKind

/-- The length and the name at the front of a chunk. -/
def chunkStart : Scan (Nat × List UInt8) := do
  let length ← longBigEndian
  let name ← take 4
  pure (length, name)

/-- The data of a chunk after its front. The data of an ancillary chunk whose checksum is wrong
count for nothing; no other chunk may be damaged. -/
def chunkData (length : Nat) (name : List UInt8) : Scan (Option (List UInt8)) := do
  let data ← take length
  let sum ← longBigEndian
  let intact := (checksum (name ++ data)).toNat == sum
  require (intact || ChunkKind.isAncillaryName name)
  pure (if intact then some data else none)

end LayerTree.Media.Png
