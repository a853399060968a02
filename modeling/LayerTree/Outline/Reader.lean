import LayerTree.Decimal.Reader
import LayerTree.Outline.Arc
import LayerTree.Text

/-!
Reading path text.

A text is a sequence of commands, each a letter and its numbers; a lower-case letter takes points
relative to the current one. A number where a letter could stand repeats the last command. The
text ends at the first character that can start neither.
-/

set_option autoImplicit false
set_option relaxedAutoImplicit false

namespace LayerTree.Outline

/-- Why a path text could not be read. -/
inductive ReadError where
  | wrongNumber
  | unexpectedEnd
  | unknownCommand (letter : Char)
  | missingMove
  deriving DecidableEq

def ReadError.message : ReadError → String
  | wrongNumber => "Unable to parse a number"
  | unexpectedEnd => "Unexpected EOF"
  | unknownCommand letter => "Unknown command, \"" ++ String.singleton letter ++ "\""
  | missingMove => "Uninitialized path (missing moveto command)"

/-- The blanks of path text. -/
def isPathBlank (c : Char) : Bool :=
  c == ' ' || c == '\t' || c == '\n' || c == '\x0c' || c == '\r'

def skipPathBlanks (cs : List Char) : List Char := cs.dropWhile isPathBlank

/-- The text without blanks and one comma at its front. -/
def skipComma (cs : List Char) : List Char :=
  match skipPathBlanks cs with
  | ',' :: rest => rest
  | rest => rest

variable {α : Type} [Scalar α]

/-- The number at the front of a text, and the rest. -/
def scanNumber (cs : List Char) : Except ReadError (α × List Char) :=
  match skipPathBlanks cs with
  | [] => .error .unexpectedEnd
  | cs =>
    match Decimal.scan cs with
    | some (literal, rest) => .ok (Scalar.ofFloat literal.toFloat, rest)
    | none => .error .wrongNumber

/-- A number and an optional comma. -/
def scanCoordinate (cs : List Char) : Except ReadError (α × List Char) := do
  let (x, rest) ← scanNumber cs
  .ok (x, skipComma rest)

/-- Two numbers, each with an optional comma. -/
def scanPair (cs : List Char) : Except ReadError (Point α × List Char) := do
  let (x, rest) ← scanCoordinate cs
  let (y, rest) ← scanCoordinate rest
  .ok (⟨x, y⟩, rest)

/-- A point, taken relative to a given one when asked to. -/
def scanPoint (relative : Bool) (current : Point α) (cs : List Char) :
    Except ReadError (Point α × List Char) := do
  let (p, rest) ← scanPair cs
  .ok (if relative then current.translate p.toVec else p, rest)

def scanFlag (cs : List Char) : Except ReadError (Bool × List Char) :=
  match skipPathBlanks cs with
  | [] => .error .unexpectedEnd
  | '0' :: rest => .ok (false, rest)
  | '1' :: rest => .ok (true, rest)
  | _ => .error .wrongNumber

/-- What the next command depends on. -/
structure Pen (α : Type) where
  /-- Where the last command ended. -/
  current : Point α
  /-- Where the last move went. -/
  start : Point α
  /-- The control point that a smooth curve continues from. -/
  control : Point α
  /-- The command that a number alone repeats. -/
  last : Option Char
  /-- Whether the outline was closed by the last command. -/
  closed : Bool

def Pen.initial : Pen α := ⟨Point.zero, Point.zero, Point.zero, none, false⟩

/-- The pen after a command that ended at a point. -/
def Pen.drawn (command : Char) (control finish : Point α) (pen : Pen α) : Pen α :=
  { pen with current := finish, control := control, last := some command, closed := false }

/-- The last control point seen from the other side of the current point. -/
def Pen.reflected (pen : Pen α) : Point α :=
  ⟨2.0 * pen.current.x - pen.control.x, 2.0 * pen.current.y - pen.control.y⟩

/-- What a command leaves: its elements, the pen and the rest of the text. -/
abbrev Step (α : Type) := Outline α × Pen α × List Char

/-- Moves to a point; numbers that follow draw lines. -/
def moveStep (relative : Bool) (pen : Pen α) (cs : List Char) : Except ReadError (Step α) := do
  let (p, rest) ← scanPoint relative pen.current cs
  let pen := pen.drawn (if relative then 'l' else 'L') p p
  .ok ([.moveTo p], { pen with start := p }, rest)

def lineStep (command : Char) (relative : Bool) (pen : Pen α) (cs : List Char) :
    Except ReadError (Step α) := do
  let (p, rest) ← scanPoint relative pen.current cs
  .ok ([.lineTo p], pen.drawn command p p, rest)

def horizontalStep (command : Char) (relative : Bool) (pen : Pen α) (cs : List Char) :
    Except ReadError (Step α) := do
  let (x, rest) ← scanCoordinate cs
  let p : Point α := ⟨if relative then x + pen.current.x else x, pen.current.y⟩
  .ok ([.lineTo p], pen.drawn command p p, rest)

def verticalStep (command : Char) (relative : Bool) (pen : Pen α) (cs : List Char) :
    Except ReadError (Step α) := do
  let (y, rest) ← scanCoordinate cs
  let p : Point α := ⟨pen.current.x, if relative then y + pen.current.y else y⟩
  .ok ([.lineTo p], pen.drawn command p p, rest)

def quadStep (command : Char) (relative : Bool) (pen : Pen α) (cs : List Char) :
    Except ReadError (Step α) := do
  let (p, rest) ← scanPoint relative pen.current cs
  let (q, rest) ← scanPoint relative pen.current rest
  .ok ([.quadTo p q], pen.drawn command p q, rest)

/-- A quadratic curve that continues the last one. -/
def smoothQuadStep (command : Char) (relative : Bool) (pen : Pen α) (cs : List Char) :
    Except ReadError (Step α) := do
  let (q, rest) ← scanPoint relative pen.current cs
  .ok ([.quadTo pen.reflected q], pen.drawn command pen.reflected q, rest)

def curveStep (command : Char) (relative : Bool) (pen : Pen α) (cs : List Char) :
    Except ReadError (Step α) := do
  let (p, rest) ← scanPoint relative pen.current cs
  let (q, rest) ← scanPoint relative pen.current rest
  let (r, rest) ← scanPoint relative pen.current rest
  .ok ([.curveTo p q r], pen.drawn command q r, rest)

/-- A cubic curve that continues the last one. -/
def smoothCurveStep (command : Char) (relative : Bool) (pen : Pen α) (cs : List Char) :
    Except ReadError (Step α) := do
  let (q, rest) ← scanPoint relative pen.current cs
  let (r, rest) ← scanPoint relative pen.current rest
  .ok ([.curveTo pen.reflected q r], pen.drawn command q r, rest)

def arcStep [Analytic α] (command : Char) (relative : Bool) (pen : Pen α) (cs : List Char) :
    Except ReadError (Step α) := do
  let (radii, rest) ← scanPair cs
  let (degrees, rest) ← scanCoordinate rest
  let (large, rest) ← scanFlag rest
  let (sweep, rest) ← scanFlag (skipComma rest)
  let (p, rest) ← scanPoint relative pen.current (skipComma rest)
  let arc : EndpointArc α := ⟨pen.current, p, radii.toVec, Scalar.radians degrees, large, sweep⟩
  .ok (arc.outline, pen.drawn command p p, rest)

/-- One command with the numbers that it takes. -/
def step [Analytic α] (command : Char) (pen : Pen α) (cs : List Char) :
    Except ReadError (Step α) :=
  let relative := 'a' ≤ command
  match command.toUpper with
  | 'M' => moveStep relative pen cs
  | 'L' => lineStep command relative pen cs
  | 'H' => horizontalStep command relative pen cs
  | 'V' => verticalStep command relative pen cs
  | 'Q' => quadStep command relative pen cs
  | 'T' => smoothQuadStep command relative pen cs
  | 'C' => curveStep command relative pen cs
  | 'S' => smoothCurveStep command relative pen cs
  | 'A' => arcStep command relative pen cs
  | 'Z' => .ok ([.close], { pen with current := pen.start, closed := true }, cs)
  | _ => .error (.unknownCommand command)

/-- The command that comes next, and the text after its letter; none at the end of the path. -/
def nextCommand (last : Option Char) (cs : List Char) : Option (Char × List Char) :=
  match skipPathBlanks cs with
  | c :: rest =>
    if Text.isLetter c then some (c, rest)
    else if c == '-' || c == '.' || c.isDigit then last.map (·, c :: rest)
    else none
  | [] => none

/-- What a command needs in front of it: after a closed outline, a move back to its start. -/
def opening (command : Char) (pen : Pen α) : Outline α :=
  if command.toUpper != 'M' && pen.closed then [.moveTo pen.start] else []

/-- Reads commands until the path ends; `fuel` bounds their number. -/
def readFrom [Analytic α] : Nat → Outline α → Pen α → List Char →
    Except ReadError (Outline α)
  | 0, sofar, _, _ => .ok sofar
  | fuel + 1, sofar, pen, cs =>
    match nextCommand pen.last cs with
    | none => .ok sofar
    | some (command, rest) =>
      if command.toUpper != 'M' && sofar.isEmpty then .error .missingMove
      else
        match step command pen rest with
        | .error e => .error e
        | .ok (drawn, next, rest) =>
          readFrom fuel (sofar ++ opening command pen ++ drawn) next rest

/-- The outline that a path text draws. Each command takes at least one character. -/
def read [Analytic α] (text : List Char) : Except ReadError (Outline α) :=
  readFrom (text.length + 1) [] Pen.initial text

end LayerTree.Outline
