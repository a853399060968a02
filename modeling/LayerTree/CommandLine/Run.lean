import LayerTree.CommandLine.Help
import LayerTree.Delegate.Table
import LayerTree.Element.Build
import LayerTree.Media.Files
import LayerTree.Playback.Control
import LayerTree.Resources
import LayerTree.Snapshot

/-!
What the program does with its files: it lists the media of a descriptor, or shows the element tree
that a descriptor describes.
-/

set_option autoImplicit false
set_option relaxedAutoImplicit false

namespace LayerTree.CommandLine

open Json (Value)
open Media (Files Found Visits)

inductive Outcome where
  | listed (table : ResourceTable)
  | shown (snapshot : Value)
  /-- A text about the program itself. -/
  | told (text : String)
  | failed (reason : String)
  | misused
  /-- The prototypes of the descriptor are nested too deep for the stack. -/
  | exhausted
  deriving Inhabited

namespace Outcome

/-- The code that the program exits with; one that is aborted on a full stack has none. -/
def exitCode : Outcome → Option Nat
  | listed _ => some 0
  | shown _ => some 0
  | told _ => some 0
  | failed _ => some 1
  | misused => some 2
  | exhausted => none

/-- The line of an address and the extension that its copy should have. -/
def line (entry : ResourceUrl × ResourceTag) : String :=
  entry.1.text ++ "\t" ++ entry.2.extensionHint ++ "\n"

def output : Outcome → String
  | listed table => String.join (table.map line)
  | shown snapshot => snapshot.pretty "" ++ "\n"
  | told text => text
  | _ => ""

def complaint : Outcome → String
  | failed reason => "Error: " ++ reason ++ "\n"
  | misused => usageText none
  | _ => ""

end Outcome

/-- A run: it keeps account of the paths that it looks at, and may end early. -/
abbrev Run := ExceptT Outcome (StateM Visits)

/-- Ends a run with what could not be done to a file. -/
def fail {β : Type} (deed path : String) : Run β :=
  throw (.failed (deed ++ " \x27" ++ path ++ "\x27"))

def look (files : Files) (path : String) : Run Found := do
  modify (path :: ·)
  pure (files path)

/-- The text that bytes encode, if they encode one. -/
def textOf? (bytes : List UInt8) : Option String := String.fromUTF8? ⟨bytes.toArray⟩

def readDescriptor (files : Files) (path : String) : Run Record := do
  match ← look files path with
  | .file content =>
    match textOf? content with
    | none => fail "open descriptor" path
    | some text =>
      match Record.read text with
      | .ok desc => pure desc
      | .error _ => fail "parse descriptor" path
  | _ => fail "open descriptor" path

/-- The delegate table in a file; without a file it is empty. -/
def readDelegate (files : Files) : Option String → Run DelegateTable
  | none => pure DelegateTable.empty
  | some path => do
    match ← look files path with
    | .nothing => fail "open delegate" path
    | .directory => fail "parse delegate" path
    | .file content =>
      match DelegateTable.readDocument (Json.documentOfBytes content) with
      | .ok table => pure table
      | .error _ => fail "parse delegate" path

/-- Makes sure that a font can be read; texts are estimated with any font. -/
def checkFont (files : Files) : Option String → Run Unit
  | none => pure ()
  | some path => do
    match ← look files path with
    | .file _ => pure ()
    | _ => fail "read font" path

/-- Ends a run unless a scale can be used. -/
def checkScale (scale : Float) : Run Unit :=
  if Scalar.isFinite scale && decide (0 < scale) then pure ()
  else throw (.failed "scale must be finite and > 0")

def listResources (files : Files) (given : Given) : Run Outcome := do
  let desc ← readDescriptor files ((given.get? "in").getD "")
  let table ← readDelegate files (given.get? "delegate")
  let base := ((given.get? "base").map ResourceUrl.mk).or table.baseUrl
  match Resources.collect { table.lookups with baseUrl := base } desc with
  | some found => pure (.listed found)
  | none => throw .exhausted

/-- Builds the tree of a descriptor, moves it to an offset and shows it. -/
def showTree (files : Files) (given : Given) : Run Outcome := do
  let path := (given.get? "in").getD ""
  let desc ← readDescriptor files path
  let table ← readDelegate files (given.get? "delegate")
  checkFont files (given.get? "font")
  let scale := (given.number? "scale").getD 1
  checkScale scale
  let root := String.ofList (Media.Path.parent path.toList)
  let size : Size Float :=
    ⟨(given.number? "width").getD 320, (given.number? "height").getD 480⟩
  let host : Host Visits Float := ⟨table.toDelegate, Media.backend files root⟩
  match ← Element.load host desc size (ScaleFactor.uniform scale) with
  | none => throw .exhausted
  | some tree =>
    match given.number? "offset" with
    | none => pure (.shown (Snapshot.element tree))
    | some t =>
      pure (.shown (Snapshot.element (tree.setTimeOffset (fun _ => true) t false).2))

def perform (files : Files) (words : List String) : Run Outcome :=
  match Request.read words with
  | .error .misuse => pure .misused
  | .error .version => pure (.told versionText)
  | .error (.help topic) => pure (.told (helpText topic))
  | .ok request =>
    match request.topic with
    | .resources => listResources files request.given
    | .inspect => showTree files request.given

/-- How a command line ends, and the paths that were looked at. -/
def run (files : Files) (words : List String) : Outcome × Visits :=
  match (perform files words).run.run [] with
  | (.ok outcome, visits) => (outcome, visits)
  | (.error outcome, visits) => (outcome, visits)

end LayerTree.CommandLine
