import LayerTree.Text

/-!
Addresses of media resources and their resolution against a base.

An address with a scheme stands on its own; anything else is a path. A path is resolved by joining
it to the directory of the base and walking the segments of the result, so that the origin of the
base is kept.
-/

set_option autoImplicit false
set_option relaxedAutoImplicit false

namespace LayerTree

/-- The address of a resource: with a scheme, or a bare path. -/
structure ResourceUrl where
  text : String
  deriving DecidableEq, Inhabited

namespace ResourceUrl

/-- The characters of a scheme after its first. -/
def isSchemeChar (c : Char) : Bool :=
  Text.isLetter c || c.isDigit || c == '+' || c == '-' || c == '.'

/-- Whether a text is the name of a scheme; a single letter names a drive instead. -/
def isSchemeName : List Char → Bool
  | first :: second :: rest =>
    Text.isLetter first && (second :: rest).all isSchemeChar
  | _ => false

/-- The length of the scheme at the front of a text, its colon included. -/
def schemeLength (cs : List Char) : Option Nat :=
  (Text.splitFirst? ':' cs).bind fun (name, _) =>
    if isSchemeName name then some (name.length + 1) else none

/-- The scheme and authority of an address, and the path after them. -/
def splitOrigin (cs : List Char) : List Char × List Char :=
  match schemeLength cs with
  | none => ([], cs)
  | some length =>
    match Text.stripStart ['/', '/'] (cs.drop length) with
    | none => (cs.take length, cs.drop length)
    | some rest =>
      (cs.take (length + 2) ++ rest.takeWhile (· != '/'), rest.dropWhile (· != '/'))

/-- One step of a walk along segments, the segments kept so far in reverse: an empty segment and
`.` stay in place, `..` goes back by one and stays at the root. -/
def walk (kept : List (List Char)) (segment : List Char) : List (List Char) :=
  if segment == [] || segment == ['.'] then kept
  else if segment == ['.', '.'] then kept.tail
  else segment :: kept

/-- The path without empty and dot segments, a slash at either end kept. -/
def normalize (path : List Char) : List Char :=
  let kept := ((Text.splitAll '/' path).foldl walk []).reverse
  let joined := Text.joinWith '/' kept
  let closed :=
    if path.getLast? == some '/' && !joined.isEmpty then joined ++ ['/'] else joined
  if path.head? == some '/' then '/' :: closed else closed

/-- The path of a source seen from a base path: the source joined to the base's directory, unless
it starts at the root. -/
def joinPath (basePath source : List Char) : List Char :=
  if source.head? == some '/' then source
  else
    match Text.splitLast? '/' basePath with
    | some (directory, _) => directory ++ '/' :: source
    | none => source

/-- Resolves a source, already trimmed and not empty, against a base address. -/
def resolveAgainst (base source : List Char) : List Char :=
  let (origin, basePath) := splitOrigin base
  origin ++ normalize (joinPath basePath source)

/-- Resolves a source against a base, if there is one; a blank source has no address. -/
def resolve (source : String) (base : Option ResourceUrl) : Option ResourceUrl :=
  let cs := Text.trim source.toList
  if cs.isEmpty then none
  else if (schemeLength cs).isSome then some ⟨String.ofList cs⟩
  else
    match base with
    | none => some ⟨String.ofList cs⟩
    | some base => some ⟨String.ofList (resolveAgainst base.text.toList cs)⟩

def isAbsolute (url : ResourceUrl) : Bool := (schemeLength url.text.toList).isSome

/-- The path in the file system, of a `file:` address and of a bare path. -/
def filePath (url : ResourceUrl) : Option String :=
  match Text.stripStart "file://".toList url.text.toList with
  | some rest => some (String.ofList ((Text.stripStart "localhost".toList rest).getD rest))
  | none => if url.isAbsolute then none else some url.text

/-- The extension of the last path segment in lower case, if it has one. -/
def fileExtension (url : ResourceUrl) : Option String :=
  let path := url.text.toList.takeWhile fun c => c != '?' && c != '#'
  let name := match Text.splitLast? '/' path with
    | some (_, name) => name
    | none => path
  match Text.splitLast? '.' name with
  | some (stem, ext) =>
    if stem.isEmpty || ext.isEmpty then none else some (String.ofList (ext.map Char.toLower))
  | none => none

end ResourceUrl

end LayerTree
