import LayerTree.Host
import LayerTree.Json.Fields

/-!
Delegates that are written down as data: tables of prototypes and paths, a base address, and two
switches.
-/

set_option autoImplicit false
set_option relaxedAutoImplicit false

namespace LayerTree

open Json (Value)

/-- What a delegate knows and does, as data. -/
structure DelegateTable where
  prototypes : List (String × Record)
  paths : List (String × Value)
  baseUrl : Option ResourceUrl
  /-- Whether a video that came to its end plays again. -/
  repeatVideo : Bool
  /-- Whether markdown is rendered as one plain run of text for each line. -/
  plainMarkdown : Bool
  deriving Inhabited

namespace DelegateTable

/-- Knows nothing and renders nothing. -/
def empty : DelegateTable := ⟨[], [], none, false, false⟩

def prototypes? : Value → Option (List (String × Record))
  | .record fields => fields.mapM fun (name, value) => (Record.ofValue? value).map (name, ·)
  | _ => none

def paths? : Value → Option (List (String × Value))
  | .record fields => some fields
  | _ => none

def baseUrl? : Value → Option (Option ResourceUrl)
  | .null => some none
  | .text s => some (some ⟨s⟩)
  | _ => none

/-- Reads a part of the table, or keeps its default when the part is missing. -/
def part {β : Type} (read : Value → Option β) (default : β) : Option Value → Option β
  | none => some default
  | some value => read value

/-- The table whose parts are given, those that are missing being empty. -/
def ofParts (prototypes paths baseUrl repeatVideo plainMarkdown : Option Value) :
    Option DelegateTable := do
  some
    { prototypes := ← part prototypes? [] prototypes
      paths := ← part paths? [] paths
      baseUrl := ← part baseUrl? none baseUrl
      repeatVideo := ← part Value.bool? false repeatVideo
      plainMarkdown := ← part Value.bool? false plainMarkdown }

/-- The table of a record, or of a list of at most five parts. -/
def ofValue? : Value → Option DelegateTable
  | .record fields =>
    let r : Record := ⟨fields⟩
    ofParts (r.get? "prototypes") (r.get? "paths") (r.get? "baseUrl") (r.get? "repeatVideo")
      (r.get? "plainMarkdown")
  | .list items =>
    if items.length ≤ 5 then ofParts items[0]? items[1]? items[2]? items[3]? items[4]? else none
  | _ => none

def partNames : List String :=
  ["prototypes", "paths", "baseUrl", "repeatVideo", "plainMarkdown"]

def partsDistinct (fields : List (String × Value)) : Bool :=
  partNames.all fun name => (fields.filter fun field => field.1 == name).length ≤ 1

/-- Reads a table from a document: a record of parts, none of them given twice, or a list. Fields
that are no parts are passed over. -/
def readDocument (document : List Char) : Except Failure DelegateTable :=
  let value := match Json.readFields? partNames document with
    | some fields => if partsDistinct fields then some (Value.record fields) else none
    | none => Json.readDocument? document
  match value.bind ofValue? with
  | some table => .ok table
  | none => .error (.notData "the text is not a delegate table")

def read (text : String) : Except Failure DelegateTable := readDocument (Json.documentOf text)

def lookup {β : Type} (name : String) (table : List (String × β)) : Option β :=
  (table.find? fun entry => entry.1 == name).map (·.2)

def lookups (t : DelegateTable) : Lookups where
  prototype name := lookup name t.prototypes
  namedPath name := lookup name t.paths
  baseUrl := t.baseUrl

/-- The plain rendering of markdown: one run for each line, its line break included. -/
def renderLines {α : Type} (lines : List String) : RichText α :=
  ⟨lines.map fun line => ⟨line ++ "\n", none, none, false⟩⟩

def render {α : Type} (t : DelegateTable) (lines : List String) : Option (RichText α) :=
  if t.plainMarkdown then some (renderLines lines) else none

/-- The delegate of the table; every resource is its own local copy. -/
def toDelegate {σ α : Type} (t : DelegateTable) : Delegate σ α where
  toLookups := t.lookups
  mapToLocal url := pure (some url)
  renderMarkdown _ lines := pure (t.render lines)

end DelegateTable

end LayerTree
