import LayerTree.Decimal.Text
import LayerTree.Json

/-!
Writing data as text, on one line or indented by two blanks a level.
-/

set_option autoImplicit false
set_option relaxedAutoImplicit false

namespace LayerTree.Json

/-- The text of a number. A float that is infinite or not a number is written as null. -/
def Number.render : Number → String
  | .integer n => toString n
  | .double x => if FloatParts.isSpecial x then "null" else Decimal.data x

def hexDigit (n : Nat) : Char := Nat.digitChar n

/-- A character inside quotes: quotes, backslashes and control characters are escaped. -/
def escape (c : Char) : List Char :=
  if c == '"' then ['\\', '"']
  else if c == '\\' then ['\\', '\\']
  else if c == '\n' then ['\\', 'n']
  else if c == '\r' then ['\\', 'r']
  else if c == '\t' then ['\\', 't']
  else if c == '\x08' then ['\\', 'b']
  else if c == '\x0c' then ['\\', 'f']
  else if c.toNat < 0x20 then
    ['\\', 'u', '0', '0', hexDigit (c.toNat / 16), hexDigit (c.toNat % 16)]
  else [c]

/-- A text in quotes. -/
def quote (s : String) : String :=
  "\"" ++ String.ofList (s.toList.flatMap escape) ++ "\""

mutual

/-- The datum on one line, without blanks. -/
def Value.render : Value → String
  | .null => "null"
  | .bool b => if b then "true" else "false"
  | .number n => n.render
  | .text s => quote s
  | .list items => "[" ++ ",".intercalate (renderItems items) ++ "]"
  | .record fields => "\x7b" ++ ",".intercalate (renderFields fields) ++ "\x7d"

def renderItems : List Value → List String
  | [] => []
  | item :: rest => item.render :: renderItems rest

def renderFields : List (String × Value) → List String
  | [] => []
  | (name, value) :: rest => (quote name ++ ":" ++ value.render) :: renderFields rest

end

/-- Parts on lines of their own between brackets; nothing between the brackets of no parts. -/
def block (opening closing indent : String) (parts : List String) : String :=
  if parts.isEmpty then opening ++ closing
  else
    opening ++ "\n" ++ ",\n".intercalate (parts.map (indent ++ "  " ++ ·)) ++ "\n" ++ indent ++
      closing

mutual

/-- The datum over several lines, each level of nesting indented by two blanks. -/
def Value.pretty (indent : String) : Value → String
  | .list items => block "[" "]" indent (prettyItems (indent ++ "  ") items)
  | .record fields => block "\x7b" "\x7d" indent (prettyFields (indent ++ "  ") fields)
  | .null => "null"
  | .bool b => if b then "true" else "false"
  | .number n => n.render
  | .text s => quote s

def prettyItems (indent : String) : List Value → List String
  | [] => []
  | item :: rest => item.pretty indent :: prettyItems indent rest

def prettyFields (indent : String) : List (String × Value) → List String
  | [] => []
  | (name, value) :: rest =>
    (quote name ++ ": " ++ value.pretty indent) :: prettyFields indent rest

end

end LayerTree.Json
