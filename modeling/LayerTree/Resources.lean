import LayerTree.Expansion

/-!
The media that a descriptor needs, found without building anything.
-/

set_option autoImplicit false
set_option relaxedAutoImplicit false

namespace LayerTree

/-- What a collected address is used for. -/
inductive ResourceTag where
  /-- An image, a mask, a sprite sheet or a frame of an image sequence. -/
  | plain
  /-- A video, to be stored before it is played. -/
  | movie
  deriving DecidableEq

/-- The file extension that a stored copy should have. -/
def ResourceTag.extensionHint : ResourceTag → String
  | plain => ""
  | movie => ".mov"

/-- Addresses with their tags, in the order of the addresses and without repetition. -/
abbrev ResourceTable := List (ResourceUrl × ResourceTag)

namespace ResourceTable

/-- Sets the tag of an address at its place in the order. -/
def insert (url : ResourceUrl) (tag : ResourceTag) : ResourceTable → ResourceTable
  | [] => [(url, tag)]
  | (key, value) :: rest =>
    if key == url then (url, tag) :: rest
    else if url.text < key.text then (url, tag) :: (key, value) :: rest
    else (key, value) :: insert url tag rest

def get? (url : ResourceUrl) (table : ResourceTable) : Option ResourceTag :=
  (table.find? fun entry => entry.1 == url).map (·.2)

/-- Sets the tag of an address that has none yet. -/
def insertNew (url : ResourceUrl) (tag : ResourceTag) (table : ResourceTable) : ResourceTable :=
  if (get? url table).isSome then table else insert url tag table

end ResourceTable

namespace Resources

/-- The fields that name a source, and what the source is used for. -/
def sourceFields : List (String × ResourceTag) :=
  [("img", .plain), ("mask", .plain), ("sprite", .plain), ("video", .movie)]

/-- Adds what a field of a descriptor names; the tag of the last such field stands. -/
def addField (base : Option ResourceUrl) (info : Record) (table : ResourceTable)
    (field : String × ResourceTag) : ResourceTable :=
  match (info.text? field.1).bind fun source => ResourceUrl.resolve source base with
  | some url => ResourceTable.insert url field.2 table
  | none => table

/-- Adds a frame of an image sequence, unless its address has a tag already. -/
def addFrame (base : Option ResourceUrl) (table : ResourceTable) (source : String) :
    ResourceTable :=
  match ResourceUrl.resolve source base with
  | some url => ResourceTable.insertNew url .plain table
  | none => table

/-- The frames that the record `to` names: a text or a list of texts. -/
def frameSources (info : Record) : List String :=
  ((info.record? "to").bind fun wanted => wanted.texts? "img").getD []

/-- Adds the sources of one merged descriptor; those of a streamed one are not stored. -/
def addOwn (base : Option ResourceUrl) (info : Record) (table : ResourceTable) : ResourceTable :=
  if info.flag "stream" then table
  else (frameSources info).foldl (addFrame base) (sourceFields.foldl (addField base info) table)

mutual

/-- Adds the sources of an expansion, those of the root first. -/
def addTree (base : Option ResourceUrl) : Expansion → ResourceTable → ResourceTable
  | .node info children, table => addTrees base children (addOwn base info table)

def addTrees (base : Option ResourceUrl) : List Expansion → ResourceTable → ResourceTable
  | [], table => table
  | e :: es, table => addTrees base es (addTree base e table)

end

/-- Every address that a descriptor and what is below it need. There is no answer only when
prototypes are nested deeper than a stack can be. -/
def collect (known : Lookups) (desc : Record) : Option ResourceTable :=
  (Expansion.ofDescriptor? known.prototype desc).map fun expansion =>
    addTree known.baseUrl expansion []

/-- The same, unless prototypes are nested more than `depth` levels deep. -/
def collectWithin (depth : Nat) (known : Lookups) (desc : Record) : Option ResourceTable :=
  (Expansion.within known.prototype depth desc).map fun expansion =>
    addTree known.baseUrl expansion []

end Resources

end LayerTree
