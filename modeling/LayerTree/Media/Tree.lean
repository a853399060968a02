import LayerTree.Media.Files

/-!
A directory of files as a table of names, in which paths are followed step by step.
-/

set_option autoImplicit false
set_option relaxedAutoImplicit false

namespace LayerTree.Media

/-- The files below a directory: their names, cut at the slashes, and what is in them. -/
structure Tree where
  entries : List (List (List Char) × List UInt8)

namespace Tree

def ofFiles (files : List (String × List UInt8)) : Tree :=
  ⟨files.map fun (name, content) =>
    ((Text.splitAll '/' name.toList).filter (· != []), content)⟩

def at? (t : Tree) (place : List (List Char)) : Found :=
  match t.entries.find? fun entry => entry.1 == place with
  | some (_, content) => .file content
  | none =>
    if place.isEmpty || t.entries.any fun entry => place.isPrefixOf entry.1 then .directory
    else .nothing

/-- Whether a segment names no entry of its own. -/
def isDots (segment : List Char) : Bool :=
  segment == [] || segment == ['.'] || segment == ['.', '.']

/-- What is known of a path that leaves the tree: it may end at a directory above it. -/
def outside (segments : List (List Char)) : Found :=
  if segments.all isDots then .directory else .nothing

/-- Goes on from a directory by the segments of a path. Empty segments and `.` stay in place and
`..` goes back; each of them needs a directory to stand on. -/
def follow (t : Tree) (place : List (List Char)) : List (List Char) → Found
  | [] => t.at? place
  | segment :: rest =>
    match t.at? place with
    | .directory =>
      if segment == [] || segment == ['.'] then follow t place rest
      else if segment == ['.', '.'] then
        if place.isEmpty then outside rest else follow t place.dropLast rest
      else follow t (place ++ [segment]) rest
    | _ => .nothing

/-- What a path from the directory of the tree leads to. -/
def find (t : Tree) (path : String) : Found :=
  let cs := path.toList
  let segments := Text.splitAll '/' cs
  if cs.isEmpty then .nothing
  else if Path.isAbsolute cs then outside segments
  else t.follow [] segments

end Tree

end LayerTree.Media
