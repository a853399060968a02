import LayerTree.Media.Image
import LayerTree.Text
import LayerTree.Text.Height

/-!
Media in files: where a local address leads, and what is found there.
-/

set_option autoImplicit false
set_option relaxedAutoImplicit false

namespace LayerTree.Media

inductive Found where
  | nothing
  | directory
  | file (content : List UInt8)
  deriving DecidableEq, Inhabited

abbrev Files := String → Found

namespace Path

/-- Whether a path starts at the root of the file system. -/
def isAbsolute (path : List Char) : Bool := path.head? == some '/'

/-- A path seen from a directory; the empty path is the directory that is worked in. -/
def join (directory path : List Char) : List Char :=
  if directory.isEmpty || isAbsolute path then path
  else if directory.getLast? == some '/' then directory ++ path
  else directory ++ '/' :: path

/-- The directory that a file is in, as far as its path says. -/
def parent (path : List Char) : List Char :=
  match Text.splitLast? '/' path with
  | none => []
  | some (directory, _) =>
    let trimmed := Text.dropEndWhile (· == '/') directory
    if trimmed.isEmpty then ['/'] else trimmed

end Path

/-- The path of a local address, seen from the directory of the media. -/
def locate (root : String) (url : ResourceUrl) : Except Failure String :=
  match url.filePath with
  | some path => .ok (String.ofList (Path.join root.toList path.toList))
  | none => .error (.missingResource ("not a local file: " ++ url.text))

def inspect (files : Files) (path : String) : Except Failure ImageInfo :=
  match files path with
  | .nothing => .error (.unreadable ("open image " ++ path))
  | .directory => .error (.unreadable ("guess image format " ++ path))
  | .file content =>
    match imageInfo? content with
    | some info => .ok info
    | none => .error (.unreadable ("read image header " ++ path))

def probe (files : Files) (root : String) (url : ResourceUrl) : Except Failure ImageInfo := do
  inspect files (← locate root url)

/-- Why a video at an address is not played: files are never decoded as video. -/
def videoFailure (url : ResourceUrl) : Failure :=
  .missingResource ("no video decoder available for " ++ url.text)

/-- The paths that have been looked at, the last one first. -/
abbrev Visits := List String

/-- The backend that reads images from files, estimates texts and opens no video. It keeps account
of the paths that it looks at. -/
def backend {α : Type} [Scalar α] (files : Files) (root : String) : MediaBackend Visits α where
  probeImage url := do
    match locate root url with
    | .error f => pure (.error f)
    | .ok path =>
      modify (path :: ·)
      pure (inspect files path)
  openVideo url _ := pure (.error (videoFailure url))
  measureText text fontSize maxWidth := pure (Text.estimatedHeight text fontSize maxWidth)

end LayerTree.Media
