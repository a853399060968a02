import LayerTree.Failure
import LayerTree.Json.Reader

/-!
Records of named fields, and what is read from them.

Reading never fails loudly: a missing field and a field of another type both read as nothing.
-/

set_option autoImplicit false
set_option relaxedAutoImplicit false

namespace LayerTree

open Json (Value)

/-- Named fields with distinct names; a descriptor is such a record. -/
structure Record where
  fields : List (String × Value)
  deriving DecidableEq, Inhabited

namespace Record

def empty : Record := ⟨[]⟩

/-- The value of the first field with the given name. -/
def lookup (name : String) : List (String × Value) → Option Value
  | [] => none
  | (key, value) :: rest => if key == name then some value else lookup name rest

def get? (r : Record) (name : String) : Option Value := lookup name r.fields

/-- Whether a field is there, whatever its value. -/
def contains (r : Record) (name : String) : Bool := (r.get? name).isSome

/-- Sets a field; also the value that it replaces. -/
def insert (r : Record) (name : String) (value : Value) : Option Value × Record :=
  (r.get? name, ⟨Json.setField r.fields name value⟩)

/-- The record that a value is. -/
def ofValue? : Value → Option Record
  | .record fields => some ⟨fields⟩
  | _ => none

/-- The value that a record is. -/
def toValue (r : Record) : Value := .record r.fields

def number? {α : Type} [Scalar α] (r : Record) (name : String) : Option α :=
  (r.get? name).bind Value.number?

def numberD {α : Type} [Scalar α] (r : Record) (name : String) (default : α) : α :=
  (r.number? name).getD default

def text? (r : Record) (name : String) : Option String := (r.get? name).bind Value.text?

def bool? (r : Record) (name : String) : Option Bool := (r.get? name).bind Value.bool?

/-- Whether a field is literally true. -/
def flag (r : Record) (name : String) : Bool := (r.bool? name).getD false

def list? (r : Record) (name : String) : Option (List Value) := (r.get? name).bind Value.list?

/-- A field that is a record itself. -/
def record? (r : Record) (name : String) : Option Record := (r.get? name).bind ofValue?

def numbers? {α : Type} [Scalar α] (r : Record) (name : String) : Option (List α) :=
  (r.list? name).bind fun items => items.mapM Value.number?

/-- A text as a list of one, or the texts of a list. -/
def texts? (r : Record) (name : String) : Option (List String) :=
  match r.get? name with
  | some (.text s) => some [s]
  | some (.list items) => some (items.filterMap Value.text?)
  | _ => none

/-- The records among the items of `elements`, in order. -/
def children (r : Record) : List Record :=
  ((r.list? "elements").getD []).filterMap ofValue?

def read (text : String) : Except Failure Record :=
  match Json.read? text with
  | none => .error (.notData "the text is not well formed")
  | some value =>
    match ofValue? value with
    | none => .error (.invalid "element descriptor must be a JSON object")
    | some r => .ok r

end Record

end LayerTree
