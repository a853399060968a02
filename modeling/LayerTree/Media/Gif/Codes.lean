import LayerTree.Media.Bytes

/-!
How many pixels the compressed data of a GIF frame stand for.

A code names a string of pixels, and every code after the first one since the table was emptied adds
a string: the last one with one more pixel. Codes have a number of bits that grows with the table.
What the strings hold does not matter for the number of pixels, so only their lengths are kept.

Data come in pieces, and there is room for so many pixels. Codes are decoded group by group, as many
as are held in 64 bits, and a code is still decoded, and must have a meaning, when the room is used
up by codes of its group.
-/

set_option autoImplicit false
set_option relaxedAutoImplicit false

namespace LayerTree.Media.Gif

def longestCode : Nat := 12

/-- The largest number of bits that are held. -/
def holdLimit : Nat := 64

/-- The largest number of codes in a group. -/
def groupLimit : Nat := 6

/-- What is known after some codes. -/
structure Decoder where
  /-- The bits that a pixel needs. -/
  literalBits : Nat
  /-- The bits of the next code. -/
  size : Nat
  /-- The bits that are held, the next one lowest. -/
  pending : Nat
  /-- How many bits are held. -/
  held : Nat
  /-- The lengths of the strings, in the order of their codes. -/
  lengths : Array Nat
  /-- The last code; none when the table was emptied since. -/
  last : Option Nat
  /-- The pixels of the last string that there was no room for yet. -/
  waiting : Nat
  ended : Bool

namespace Decoder

/-- The lengths of the strings in an empty table: single pixels, and none for the two codes that
name no string. -/
def literals (literalBits : Nat) : Array Nat :=
  Array.replicate (Nat.pow 2 literalBits) 1 ++ #[0, 0]

def start (literalBits : Nat) : Decoder :=
  ⟨literalBits, literalBits + 1, 0, 0, literals literalBits, none, 0, false⟩

/-- The code that empties the table. -/
def clearCode (d : Decoder) : Nat := Nat.pow 2 d.literalBits

/-- The code that ends the data. -/
def endCode (d : Decoder) : Nat := d.clearCode + 1

def nextCode (d : Decoder) : Nat := d.lengths.size

/-- How many pixels the string of a code has. -/
def lengthOf (d : Decoder) (code : Nat) : Nat := d.lengths.getD code 0

def clear (d : Decoder) : Decoder :=
  { d with size := d.literalBits + 1, lengths := literals d.literalBits, last := none }

def refill (d : Decoder) (bytes : List UInt8) : Decoder × List UInt8 :=
  let count := (holdLimit - d.held) / 8
  let taken := bytes.take count
  ({ d with
      pending := d.pending + Scan.littleEndian taken * Nat.pow 2 d.held
      held := d.held + 8 * taken.length },
    bytes.drop count)

/-- The first codes of some bits. -/
def codesIn (size : Nat) : Nat → Nat → Nat → List Nat
  | 0, _, _ => []
  | count + 1, pending, held =>
    if held < size then []
    else pending % Nat.pow 2 size :: codesIn size count (pending / Nat.pow 2 size) (held - size)

/-- The next codes, as far as they are held. -/
def group (d : Decoder) : List Nat := codesIn d.size groupLimit d.pending d.held

def dropCodes (d : Decoder) (count : Nat) : Decoder :=
  { d with pending := d.pending / Nat.pow 2 (d.size * count), held := d.held - d.size * count }

/-- Adds the last string with one more pixel, unless the table is full. -/
def grow (d : Decoder) (last : Nat) : Decoder :=
  if Nat.pow 2 longestCode ≤ d.nextCode then d
  else
    { d with
      lengths := d.lengths.push (d.lengthOf last + 1)
      size := if Nat.pow 2 d.size ≤ d.nextCode + 1 && d.size < longestCode then d.size + 1
        else d.size }

/-- The codes at the front of a group that leave the size of codes as it is, name strings of the
table and have room. The last code of a group does not count. -/
def plainFront (d : Decoder) : Nat → Nat → List Nat → List Nat
  | spare + 1, room, code :: next :: rest =>
    if code == d.clearCode || code == d.endCode || d.nextCode ≤ code || room < d.lengthOf code then
      []
    else code :: plainFront d spare (room - d.lengthOf code) (next :: rest)
  | _, _, _ => []

/-- Decodes a code that names a string of the table. -/
def takePlain (d : Decoder) (code : Nat) : Decoder :=
  { (match d.last with
      | some last => d.grow last
      | none => d) with last := some code }

/-- Decodes any code; also the room that is left, and whether to go on. Only a code that names a
string, or the one that is added with it, has a meaning. -/
def takeCode (d : Decoder) (last room code : Nat) : Option (Decoder × Nat × Bool) :=
  if code == d.clearCode then some (d.clear, room, false)
  else if code == d.endCode then some ({ d with ended := true }, room, false)
  else if d.nextCode < code then none
  else
    let length := if code == d.nextCode then d.lengthOf last + 1 else d.lengthOf code
    let grown := { d.grow last with last := some code }
    if room < length then some ({ grown with waiting := length }, room, false)
    else some (grown, room - length, room != length)

/-- The room that is left after plain codes. -/
def roomAfter (d : Decoder) (room : Nat) (codes : List Nat) : Nat :=
  codes.foldl (fun room code => room - d.lengthOf code) room

/-- Decodes groups of codes until the room is used up, no code is left, or a code asks for a new
start. The bound is on the number of groups. -/
def takeGroups : Nat → Decoder → List UInt8 → Nat → Option (Decoder × List UInt8 × Nat)
  | 0, _, _, _ => none
  | fuel + 1, d, bytes, room =>
    let (d, bytes) := d.refill bytes
    let codes := d.group
    let front := d.plainFront (Nat.pow 2 d.size - 1 - d.nextCode) room codes
    let room := d.roomAfter room front
    match codes[front.length]? with
    | none => some (d, bytes, room)
    | some code =>
      let d := front.foldl takePlain (d.dropCodes (front.length + 1))
      match d.last.bind fun last => d.takeCode last room code with
      | none => none
      | some (d, room, true) => takeGroups fuel d bytes room
      | some (d, room, false) => some (d, bytes, room)

/-- Decodes the first code since the table was emptied, if it is there. -/
def takeFirst (d : Decoder) (bytes : List UInt8) : Option (Decoder × List UInt8) :=
  let (d, bytes) := if d.held < d.size then d.refill bytes else (d, bytes)
  match codesIn d.size 1 d.pending d.held with
  | [] => some (d, bytes)
  | code :: _ =>
    let d := d.dropCodes 1
    if d.nextCode ≤ code then none
    else if code == d.clearCode then some (d.clear, bytes)
    else if code == d.endCode then some ({ d with ended := true }, bytes)
    else some ({ d with last := some code, waiting := d.lengthOf code }, bytes)

/-- Puts the waiting pixels into the room, as far as it goes. -/
def deliver (d : Decoder) (room : Nat) : Decoder × Nat :=
  ({ d with waiting := d.waiting - room }, room - d.waiting)

/-- Decodes a piece of data into some room: the data that are not needed, and the room that is left.
There is no answer when a code has no meaning. -/
def decode (d : Decoder) (piece : List UInt8) (room : Nat) :
    Option (Decoder × List UInt8 × Nat) := do
  let (d, bytes) ← if d.last.isNone then d.takeFirst piece else some (d, piece)
  let (d, room) := d.deliver room
  if d.last.isNone || d.waiting != 0 then some (d, bytes, room)
  else takeGroups (8 * bytes.length + d.held + 1) d bytes room

end Decoder

end LayerTree.Media.Gif
