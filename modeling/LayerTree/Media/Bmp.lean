import LayerTree.Media.Bytes

/-!
The size of a BMP image, read from its headers and from the masks and the palette after them.
-/

set_option autoImplicit false
set_option relaxedAutoImplicit false

namespace LayerTree.Media.Bmp

open Scan

def signature : List UInt8 := [0x42, 0x4D]

/-- The largest width or height that is believed. -/
def longestSide : Nat := 0xFFFF

/-- How pixels are stored, as far as it decides what follows the headers. -/
inductive Storage where
  /-- Channels in the pixels themselves. -/
  | direct
  /-- Indices into a palette. -/
  | palette
  /-- Channels cut out of this many bits by masks. -/
  | masks (bits : Nat)
  deriving DecidableEq

structure Header where
  width : Nat
  height : Nat
  bits : Nat
  storage : Storage
  /-- The length of the palette; zero stands for one entry for each index. -/
  colors : Nat
  deriving DecidableEq

/-- A number of 32 bits in two's complement. -/
def signed (n : Nat) : Int := if n < Nat.pow 2 31 then n else n - 4294967296

def coreStorage : Nat → Option Storage
  | 1 => some .palette
  | 4 => some .palette
  | 8 => some .palette
  | 24 => some .direct
  | _ => none

def infoStorage : Nat → Nat → Option Storage
  | 0, 1 => some .palette
  | 0, 2 => some .palette
  | 0, 4 => some .palette
  | 0, 8 => some .palette
  | 0, 16 => some .direct
  | 0, 24 => some .direct
  | 0, 32 => some .direct
  | 1, 8 => some .palette
  | 2, 4 => some .palette
  | 3, 16 => some (.masks 16)
  | 3, 32 => some (.masks 32)
  | _, _ => none

/-- The header of the oldest kind, whose sides have 16 bits. -/
def coreHeader : Scan Header := do
  let width ← word
  let height ← word
  let planes ← word
  let bits ← word
  require (width != 0 && height != 0 && planes == 1)
  let storage ← (coreStorage bits : Option Storage)
  pure ⟨width, height, bits, storage, 0⟩

/-- The start that all later headers share. A negative height says that rows go from the top down,
which only two of the compression methods allow. -/
def infoHeader : Scan Header := do
  let width := signed (← long)
  let height := signed (← long)
  let planes ← word
  let bits ← word
  let method ← long
  skip 12
  let colors ← long
  skip 4
  require (decide (0 < width) && decide (width ≤ longestSide) && decide (height ≤ longestSide))
  require (height != 0 && height != -2147483648 && planes == 1)
  require (decide (0 < height) || method == 0 || method == 3)
  let storage ← (infoStorage method bits : Option Storage)
  pure ⟨width.toNat, height.natAbs, bits, storage, colors⟩

/-- The number of zero bits below the lowest set one, of the lowest `fuel` bits. -/
def trailingZeros : Nat → Nat → Nat
  | 0, _ => 0
  | fuel + 1, n => if n % 2 == 1 then 0 else trailingZeros fuel (n / 2) + 1

/-- The number of set bits at the low end, of the lowest `fuel` bits. -/
def trailingOnes : Nat → Nat → Nat
  | 0, _ => 0
  | fuel + 1, n => if n % 2 == 0 then 0 else trailingOnes fuel (n / 2) + 1

/-- Whether a mask is one run of set bits within the bits of a pixel, or has none. -/
def isMask (bits mask : Nat) : Bool :=
  let shift := trailingZeros 32 mask
  let run := trailingOnes 32 (mask >>> shift)
  mask == 0 || (mask >>> (shift + run) == 0 && shift + run ≤ bits)

/-- The masks of the channels; only the alpha channel may be without one. -/
def masks (bits headerLength : Nat) : Scan Unit := do
  let red ← long
  let green ← long
  let blue ← long
  let alpha ← if 56 ≤ headerLength then long else pure 0
  require (red != 0 && green != 0 && blue != 0)
  require ([red, green, blue, alpha].all (isMask bits))

/-- The palette, of which no more entries are read than a byte can name. -/
def palette (h : Header) (entryLength : Nat) : Scan Unit := do
  require (h.colors ≤ Nat.pow 2 h.bits)
  let entries := if h.colors == 0 then Nat.pow 2 h.bits else h.colors
  skip (Nat.min entries 256 * entryLength)

def size : Scan (Nat × Nat) := do
  expect signature
  skip 12
  let afterFile ← get
  let headerLength ← long
  require ([12, 40, 52, 56, 108, 124].contains headerLength)
  let h ← if headerLength == 12 then coreHeader else infoHeader
  match h.storage with
  | .masks bits => masks bits headerLength
  | _ => pure ()
  set (afterFile.drop headerLength)
  match h.storage with
  | .palette => palette h (if headerLength == 12 then 3 else 4)
  | _ => pure ()
  pure (h.width, h.height)

def size? (bytes : List UInt8) : Option (Nat × Nat) := (size.run bytes).map (·.1)

end LayerTree.Media.Bmp
