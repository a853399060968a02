import LayerTree.Decimal.Reader
import LayerTree.Text

/-!
What the words of a command line ask for.

Words are read from left to right, and the first one that asks for help, asks for the version or
makes no sense ends the reading.
-/

set_option autoImplicit false
set_option relaxedAutoImplicit false

namespace LayerTree.CommandLine

inductive ValueKind where
  | text
  /-- A path, which is not empty. -/
  | path
  | number
  deriving DecidableEq

/-- Whether a text is a value of a kind. -/
def ValueKind.admits : ValueKind → String → Bool
  | text, _ => true
  | path, s => !s.isEmpty
  | number, s => (Decimal.read? s.toList).isSome

structure OptionSpec where
  name : String
  kind : ValueKind
  /-- The name of the value in the help. -/
  place : String
  help : String
  required : Bool

inductive Topic where
  | resources
  | inspect
  deriving DecidableEq

namespace Topic

def name : Topic → String
  | resources => "resources"
  | inspect => "inspect"

def ofName? : String → Option Topic
  | "resources" => some resources
  | "inspect" => some inspect
  | _ => none

def input : OptionSpec :=
  ⟨"in", .path, "IN_PATH", "Input element descriptor JSON", true⟩

def delegate : OptionSpec :=
  ⟨"delegate", .path, "DELEGATE", "Delegate table JSON (prototypes, paths, base URL)", false⟩

def options : Topic → List OptionSpec
  | resources =>
    [input,
      ⟨"base", .text, "BASE",
        "Base URL relative sources resolve against (overrides the delegate's)", false⟩,
      delegate]
  | inspect =>
    [input,
      ⟨"width", .number, "WIDTH", "Container width in local units [default: 320]", false⟩,
      ⟨"height", .number, "HEIGHT", "Container height in local units [default: 480]", false⟩,
      ⟨"scale", .number, "SCALE", "Uniform device scale [default: 1]", false⟩,
      ⟨"offset", .number, "OFFSET", "Timeline offset in [0, 1] applied after load", false⟩,
      delegate,
      ⟨"font", .path, "FONT", "Font file used to measure text", false⟩]

end Topic

/-- Why reading ends before the last word. -/
inductive Stop where
  | help (topic : Option Topic)
  | version
  | misuse
  deriving DecidableEq

/-- The options given so far, with their values. -/
abbrev Given := List (String × String)

def Given.get? (given : Given) (name : String) : Option String :=
  (given.find? fun entry => entry.1 == name).map (·.2)

def Given.number? (given : Given) (name : String) : Option Float :=
  (given.get? name).bind fun s => Decimal.read? s.toList

/-- Whether a word is a switch or an option and not a value; a lone dash is a value. -/
def isSwitch (word : List Char) : Bool := word.head? == some '-' && word.length != 1

/-- Takes the value of an option: it must be of the option's kind and the first one. -/
def give (spec : OptionSpec) (value : String) (given : Given) : Except Stop Given :=
  if spec.kind.admits value && (given.get? spec.name).isNone then
    .ok (given ++ [(spec.name, value)])
  else .error .misuse

/-- The letters of one-letter switches, joined behind one dash. -/
def readLetters (topic : Option Topic) : List Char → Except Stop Unit
  | [] => .ok ()
  | 'v' :: rest => readLetters topic rest
  | 'h' :: _ => .error (.help topic)
  | 'V' :: _ => .error (if topic.isNone then .version else .misuse)
  | _ :: _ => .error .misuse

/-- A long switch, without its dashes, that takes no value. -/
def readLong (topic : Option Topic) (name : String) : Except Stop Unit :=
  if name == "verbose" then .ok ()
  else if name == "help" then .error (.help topic)
  else if name == "version" && topic.isNone then .error .version
  else .error .misuse

def Topic.option? (topic : Topic) (name : String) : Option OptionSpec :=
  topic.options.find? fun spec => spec.name == name

/-- Reads the words after a subcommand. The value of an option is behind an equals sign or is the
next word; two dashes end the options, and nothing may follow them. -/
def readOptions (topic : Topic) (given : Given) : List String → Except Stop Given
  | [] => .ok given
  | word :: rest =>
    match word.toList with
    | ['-', '-'] => if rest.isEmpty then .ok given else .error .misuse
    | '-' :: '-' :: body =>
      match Text.splitFirst? '=' body with
      | some (name, value) =>
        match topic.option? (String.ofList name) with
        | some spec => do
          let given ← give spec (String.ofList value) given
          readOptions topic given rest
        | none => .error .misuse
      | none =>
        match topic.option? (String.ofList body) with
        | none => do
          readLong (some topic) (String.ofList body)
          readOptions topic given rest
        | some spec =>
          match rest with
          | [] => .error .misuse
          | value :: rest =>
            if isSwitch value.toList then .error .misuse
            else do
              let given ← give spec value given
              readOptions topic given rest
    | '-' :: letter :: letters => do
      readLetters (some topic) (letter :: letters)
      readOptions topic given rest
    | _ => .error .misuse

/-- What stops the reading of the words after `help`: they must name one subcommand at most. -/
def helpOn : List String → Stop
  | [] => .help none
  | ["help"] => .help none
  | [name] =>
    match Topic.ofName? name with
    | some topic => .help (some topic)
    | none => .misuse
  | _ => .misuse

structure Request where
  topic : Topic
  given : Given

/-- The options of a subcommand, none of those that are required missing. -/
def complete (topic : Topic) (given : Given) : Except Stop Request :=
  if topic.options.all fun spec => !spec.required || (given.get? spec.name).isSome then
    .ok ⟨topic, given⟩
  else .error .misuse

/-- Reads the words of a command line: switches, a subcommand, and its options. -/
def Request.read : List String → Except Stop Request
  | [] => .error .misuse
  | word :: rest =>
    match word.toList with
    | ['-', '-'] => .error .misuse
    | '-' :: '-' :: body => do
      readLong none (String.ofList body)
      Request.read rest
    | '-' :: letter :: letters => do
      readLetters none (letter :: letters)
      Request.read rest
    | _ =>
      if word == "help" then .error (helpOn rest)
      else
        match Topic.ofName? word with
        | some topic => do
          let given ← readOptions topic [] rest
          complete topic given
        | none => .error .misuse

end LayerTree.CommandLine
