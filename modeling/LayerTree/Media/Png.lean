import LayerTree.Media.Png.Preamble

/-!
The size of a PNG image, read from its chunks up to the first one of pixels.
-/

set_option autoImplicit false
set_option relaxedAutoImplicit false

namespace LayerTree.Media.Png

open Scan

def signature : List UInt8 := [0x89, 0x50, 0x4E, 0x47, 0x0D, 0x0A, 0x1A, 0x0A]

def firstChunk : Scan Header := do
  let (length, name) ← chunkStart
  require (ChunkKind.ofName name == .header)
  match ← chunkData length name with
  | none => failure
  | some data => ((header.run data).map (·.1) : Option Header)

def size : Scan (Nat × Nat) := do
  expect signature
  let h ← firstChunk
  let p ← toPixels (← get).length (.start h)
  require p.fits
  pure (h.width, h.height)

def size? (bytes : List UInt8) : Option (Nat × Nat) := (size.run bytes).map (·.1)

end LayerTree.Media.Png
