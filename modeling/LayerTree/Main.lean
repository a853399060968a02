import LayerTree.CommandLine.Run

/-!
The program: it reads the files that a run looks at, and prints how the run ends.
-/

set_option autoImplicit false
set_option relaxedAutoImplicit false

namespace LayerTree.CommandLine

open Media (Found)

/-- What an open file holds; what can be opened and not read is a directory. -/
def readOpened (handle : IO.FS.Handle) : IO Found := do
  try
    let content ← handle.readBinToEnd
    pure (.file content.toList)
  catch _ => pure .directory

/-- What a path leads to on this machine. -/
def readFile (path : String) : IO Found := do
  try readOpened (← IO.FS.Handle.mk path .read)
  catch _ => pure .nothing

/-- Runs a command line again and again with the files it has looked at so far, until it looks at
no other one. -/
partial def settle (words : List String) (known : List (String × Found)) : IO Outcome := do
  let find (path : String) : Option Found :=
    (known.find? fun entry => entry.1 == path).map (·.2)
  let (outcome, visits) := run (fun path => (find path).getD .nothing) words
  match visits.filter fun path => (find path).isNone with
  | [] => pure outcome
  | path :: _ => settle words ((path, ← readFile path) :: known)

end LayerTree.CommandLine

open LayerTree in
def main (words : List String) : IO UInt32 := do
  let outcome ← CommandLine.settle words []
  (← IO.getStdout).putStr outcome.output
  (← IO.getStderr).putStr outcome.complaint
  -- what a shell reports of a program that was aborted
  pure (UInt32.ofNat (outcome.exitCode.getD 134))
