/-!
Reading numbers from the front of a sequence of bytes.
-/

set_option autoImplicit false
set_option relaxedAutoImplicit false

namespace LayerTree.Media

/-- A reader of bytes: it takes what it reads from the front, and may fail. -/
abbrev Scan := StateT (List UInt8) Option

namespace Scan

def byte : Scan UInt8
  | [] => none
  | b :: rest => some (b, rest)

def take (count : Nat) : Scan (List UInt8) := fun bytes =>
  if count ≤ bytes.length then some (bytes.take count, bytes.drop count) else none

/-- Passes over `count` bytes, all of which must be there. -/
def skip (count : Nat) : Scan Unit := do
  let _ ← take count

/-- The number that bytes spell when the first one counts least. -/
def littleEndian (bytes : List UInt8) : Nat :=
  bytes.foldr (fun b n => b.toNat + 256 * n) 0

/-- The number that bytes spell when the first one counts most. -/
def bigEndian (bytes : List UInt8) : Nat :=
  bytes.foldl (fun n b => 256 * n + b.toNat) 0

/-- The next two bytes as a number, the first one counting least. -/
def word : Scan Nat := littleEndian <$> take 2

/-- The next four bytes as a number, the first one counting least. -/
def long : Scan Nat := littleEndian <$> take 4

/-- The next four bytes as a number, the first one counting most. -/
def longBigEndian : Scan Nat := bigEndian <$> take 4

def require (condition : Bool) : Scan Unit :=
  if condition then pure () else failure

/-- Goes on only if the next bytes are the given ones. -/
def expect (bytes : List UInt8) : Scan Unit := do
  require ((← take bytes.length) == bytes)

end Scan

end LayerTree.Media
