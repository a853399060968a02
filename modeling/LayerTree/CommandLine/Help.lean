import LayerTree.CommandLine.Arguments

/-!
The texts about the program itself.
-/

set_option autoImplicit false
set_option relaxedAutoImplicit false

namespace LayerTree.CommandLine

def versionText : String := "swipe-scene 0.1.0\n"

/-- A text with blanks up to a width. -/
def padTo (width : Nat) (s : String) : String :=
  s ++ String.ofList (List.replicate (width - s.length) ' ')

/-- Entries with their explanations, in two columns. -/
def columns (entries : List (String × String)) : String :=
  let width := entries.foldl (fun width entry => Nat.max width entry.1.length) 0
  String.join (entries.map fun entry => "  " ++ padTo width entry.1 ++ "  " ++ entry.2 ++ "\n")

def switchEntries : List (String × String) :=
  [("-v, --verbose...", "Log build decisions to stderr (`-v` debug, `-vv` trace)"),
    ("-h, --help", "Print help")]

def Topic.summary : Topic → String
  | resources => "List the media URLs a descriptor references, one `url<TAB>hint` per line"
  | inspect => "Build the element tree and print a JSON snapshot of it"

def OptionSpec.entry (spec : OptionSpec) : String × String :=
  ("    --" ++ spec.name ++ " <" ++ spec.place ++ ">", spec.help)

def usageText : Option Topic → String
  | none => "Usage: swipe-scene [OPTIONS] <COMMAND>\n"
  | some topic => "Usage: swipe-scene " ++ topic.name ++ " [OPTIONS] --in <IN_PATH>\n"

def helpText : Option Topic → String
  | none =>
    usageText none ++ "\nCommands:\n" ++
      columns
        ([Topic.resources, Topic.inspect].map (fun topic => (topic.name, topic.summary)) ++
          [("help", "Print this message or the help of the given subcommand(s)")]) ++
      "\nOptions:\n" ++ columns (switchEntries ++ [("-V, --version", "Print version")])
  | some topic =>
    topic.summary ++ "\n\n" ++ usageText (some topic) ++ "\nOptions:\n" ++
      columns (topic.options.map OptionSpec.entry ++ switchEntries)

end LayerTree.CommandLine
