import LayerTree.Record

/-!
Merging a record over the prototype that it names.

A field of the record wins over the same field of the prototype, except where both hold lists of
records: those merge item by item. The prototype's items keep their places; an item of the record
is merged over the first item so far that carries the same `id`, and is appended when there is
none.
-/

set_option autoImplicit false
set_option relaxedAutoImplicit false

namespace LayerTree

open Json (Value)

namespace Record

/-- The `id` among the fields of an item, when it is a text. -/
def idOf? (fields : List (String × Value)) : Option String :=
  (lookup "id" fields).bind Value.text?

/-- The fields of an item; none for what is not a record. -/
def itemFields : Value → List (String × Value)
  | .record fields => fields
  | _ => []

/-- The place of the first item that carries the given `id`. -/
def placeOf? (items : List Value) (id : String) : Option Nat :=
  items.findIdx? fun item => idOf? (itemFields item) == some id

/-- The fields of the prototype that the record does not have. -/
def missingFrom (fields base : List (String × Value)) : List (String × Value) :=
  base.filter fun field => (lookup field.1 fields).isNone

/-- The items of a list, when all of them are records. -/
def records? : Value → Option (List Value)
  | .list items => if items.all Value.isRecord then some items else none
  | _ => none

mutual

/-- The value of a field over what the prototype has there: only lists of records merge. -/
def mergeValue : Value → Option Value → Value
  | .list items, base =>
    match records? (.list items), base.bind records? with
    | some _, some baseItems => .list (mergeItems items baseItems)
    | _, _ => .list items
  | .record fields, _ => .record fields
  | .null, _ => .null
  | .bool b, _ => .bool b
  | .number n, _ => .number n
  | .text s, _ => .text s

/-- Merges items, in order, into a growing list that starts as the prototype's. -/
def mergeItems : List Value → List Value → List Value
  | [], merged => merged
  | .record fields :: rest, merged =>
    match (idOf? fields).bind (placeOf? merged) with
    | some place =>
      let base := itemFields (merged.getD place .null)
      mergeItems rest
        (merged.set place (.record (mergeOwn fields base ++ missingFrom fields base)))
    | none => mergeItems rest (merged ++ [.record fields])
  | _ :: rest, merged => mergeItems rest merged

/-- The fields of a record, each over the prototype's field of the same name. -/
def mergeOwn : List (String × Value) → List (String × Value) → List (String × Value)
  | [], _ => []
  | (name, value) :: rest, base =>
    (name, mergeValue value (lookup name base)) :: mergeOwn rest base

end

/-- The fields of a record over those of its prototype. -/
def mergeFields (fields base : List (String × Value)) : List (String × Value) :=
  mergeOwn fields base ++ missingFrom fields base

/-- The record merged over its prototype, if it has one. -/
def inherit (r : Record) : Option Record → Record
  | some base => ⟨mergeFields r.fields base.fields⟩
  | none => r

end Record

end LayerTree
