import LayerTree.Json.Reader

/-!
Reading only some fields of a record.

The values of all other fields are passed over: they have to be well formed, and that is all.
Their numbers may be of any size, their bytes and escapes need not make up characters, and their
nesting is not limited.
-/

set_option autoImplicit false
set_option relaxedAutoImplicit false

namespace LayerTree.Json

/-- Passes over the rest of a text whose opening quote has been read; `fuel` bounds its
characters. -/
def skipText : Nat → List Char → Option (List Char)
  | 0, _ => none
  | fuel + 1, cs =>
    match cs with
    | '"' :: rest => some rest
    | '\\' :: 'u' :: rest => (scanUnit rest).bind fun (_, rest) => skipText fuel rest
    | '\\' :: rest => (scanEscape rest).bind fun (_, rest) => skipText fuel rest
    | c :: rest => if c.toNat < 0x20 then none else skipText fuel rest
    | [] => none

mutual

/-- Passes over the datum at the front of a text; `fuel` bounds the work. -/
def skipValue : Nat → List Char → Option (List Char)
  | 0, _ => none
  | fuel + 1, cs =>
    match skipBlanks cs with
    | 'n' :: rest => Text.stripStart "ull".toList rest
    | 't' :: rest => Text.stripStart "rue".toList rest
    | 'f' :: rest => Text.stripStart "alse".toList rest
    | '"' :: rest => skipText fuel rest
    | '[' :: rest =>
      match skipBlanks rest with
      | ']' :: rest => some rest
      | _ => skipItems fuel rest
    | '\x7b' :: rest =>
      match skipBlanks rest with
      | '\x7d' :: rest => some rest
      | _ => skipFields fuel rest
    | cs => (scanNumeral cs).map (·.2)

/-- Passes over the items of a list and its closing bracket. -/
def skipItems : Nat → List Char → Option (List Char)
  | 0, _ => none
  | fuel + 1, cs =>
    (skipValue fuel cs).bind fun rest =>
      match skipBlanks rest with
      | ',' :: rest => skipItems fuel rest
      | ']' :: rest => some rest
      | _ => none

/-- Passes over the fields of a record and its closing brace. -/
def skipFields : Nat → List Char → Option (List Char)
  | 0, _ => none
  | fuel + 1, cs =>
    match skipBlanks cs with
    | '"' :: rest =>
      (skipText fuel rest).bind fun rest =>
        match skipBlanks rest with
        | ':' :: rest =>
          (skipValue fuel rest).bind fun rest =>
            match skipBlanks rest with
            | ',' :: rest => skipFields fuel rest
            | '\x7d' :: rest => some rest
            | _ => none
        | _ => none
    | _ => none

end

/-- The value of a field whose name is among the given ones, or nothing for another field. -/
def scanIfNamed (names : List String) (fuel : Nat) (name : String) (cs : List Char) :
    Option (Option Value × List Char) :=
  if names.contains name then
    (scanValue fuel (nestingLimit - 1) cs).map fun (value, rest) => (some value, rest)
  else (skipValue fuel cs).map fun rest => (none, rest)

/-- The fields of a record with the given names up to its closing brace, repeated ones included,
those read so far in reverse. -/
def scanNamed (names : List String) : Nat → List (String × Value) → List Char →
    Option (List (String × Value) × List Char)
  | 0, _, _ => none
  | fuel + 1, sofar, cs =>
    match skipBlanks cs with
    | '"' :: rest =>
      (scanText fuel [] rest).bind fun (name, rest) =>
        match skipBlanks rest with
        | ':' :: rest =>
          (scanIfNamed names fuel name rest).bind fun (value, rest) =>
            let sofar := (value.map fun v => (name, v)).toList ++ sofar
            match skipBlanks rest with
            | ',' :: rest => scanNamed names fuel sofar rest
            | '\x7d' :: rest => some (sofar.reverse, rest)
            | _ => none
        | _ => none
    | _ => none

/-- The fields with the given names of the record that a whole document writes, repeated ones
included. -/
def readFields? (names : List String) (document : List Char) : Option (List (String × Value)) :=
  match skipBlanks document with
  | '\x7b' :: rest =>
    match skipBlanks rest with
    | '\x7d' :: rest => if (skipBlanks rest).isEmpty then some [] else none
    | _ =>
      match scanNamed names (document.length + 1) [] rest with
      | some (fields, rest) => if (skipBlanks rest).isEmpty then some fields else none
      | none => none
  | _ => none

end LayerTree.Json
