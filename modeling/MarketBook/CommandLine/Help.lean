/-
Module: MarketBook.CommandLine.Help
Purpose: The texts that tell how the operator's tool is used.
Main exports:
  Command.Topic.text
-/
import MarketBook.CommandLine.Arguments

namespace MarketBook.Command

/-!
A help text says what its topic is for, if that needs to be said, then shows a line of usage, and
then lists what may stand behind: names or options, with a remark on each.  Its parts are a blank
line apart.
-/

/-- The name under which the tool is called. -/
def toolName : String := "market-core"

/-- What a command is for; nothing where its name says it. -/
def Verb.purpose : Verb → String
  | .state => "Market state at an instant (defaults to now)"
  | .explain => "Closed-reason codes at an instant (defaults to now)"
  | .checkPolicy => "Validate the holiday policy of every profile in the overrides file"
  | .summary | .tail | .count => ""

/-- What help is for. -/
def helpPurpose : String := "Print this message or the help of the given subcommand(s)"

/-- What a topic is for. -/
def Topic.purpose : Topic → String
  | .tool => "Market core operator CLI"
  | .group _ => ""
  | .verb v => v.purpose
  | .help _ => helpPurpose

/-- What stands for the value of an option. -/
def Flag.valueName : Flag → String
  | .time => "<EPOCH_MS>"
  | .symbol => "<SYMBOL>"
  | .timeframe => "<TF>"
  | .limit => "<LIMIT>"

/-- An option as it is written. -/
def Flag.form (f : Flag) : String :=
  f.name ++ " " ++ f.valueName

/-- The remark on an option: the value that it has if none is given. -/
def Flag.remark : Flag → String
  | .limit => "[default: " ++ toString standardLimit ++ "]"
  | .time | .symbol | .timeframe => ""

/-- What stands for names behind the word for help. -/
def namesForm : String := "[COMMAND]..."

/-- The words by which a topic is called. -/
def Topic.call : Topic → List String
  | .tool => [toolName]
  | .group g => [toolName, g.name]
  | .verb v => [toolName, v.group.name, v.name]
  | .help g => toolName :: (g.map Group.name).toList ++ [helpWord]

/-- What stands behind the words of a topic. -/
def Topic.tail : Topic → List String
  | .tool | .group _ => ["<COMMAND>"]
  | .verb v =>
    let (needed, free) := v.flags.partition (·.isRequired)
    (if free.isEmpty then [] else ["[OPTIONS]"]) ++ needed.map (·.form)
  | .help _ => [namesForm]

/-- The line of usage. -/
def Topic.usage (t : Topic) : String :=
  "Usage: " ++ String.intercalate " " (t.call ++ t.tail)

/-- A list under a heading.  The remarks stand in one column, two blanks behind the longest name. -/
def listing (heading : String) (entries : List (String × String)) : String :=
  let width := (entries.map (·.1.length)).foldl max 0 + 2
  let lines := entries.map fun (name, remark) =>
    "  " ++ name.pushn ' ' (width - name.length) ++ remark
  String.intercalate "\n" ((heading ++ ":") :: lines)

/-- The entry of the word for help among names. -/
def helpEntry : String × String := (helpWord, helpPurpose)

/-- The entry of the switch for help among options. -/
def helpSwitch : String × String := ("-h, --help", "Print help")

/-- The entry of the switch for the number of the release. -/
def versionSwitch : String × String := ("-V, --version", "Print version")

/-- The entry of an option, with room for the letter that it does not have. -/
def Flag.entry (f : Flag) : String × String :=
  ("    " ++ f.form, f.remark)

/-- The list of names. -/
def commandListing (entries : List (String × String)) : String :=
  listing "Commands" (entries ++ [helpEntry])

/-- The lists of a topic. -/
def Topic.listings : Topic → List String
  | .tool =>
    [commandListing (Group.all.map fun g => (g.name, "")),
      listing "Options" [helpSwitch, versionSwitch]]
  | .group g =>
    [commandListing (g.verbs.map fun v => (v.name, v.purpose)), listing "Options" [helpSwitch]]
  | .verb v => [listing "Options" (v.flags.map Flag.entry ++ [helpSwitch])]
  | .help _ => [listing "Arguments" [(namesForm, "Print help for the subcommand(s)")]]

/-- The help on a topic. -/
def Topic.text (t : Topic) : String :=
  let purpose := if t.purpose = "" then [] else [t.purpose]
  String.intercalate "\n\n" (purpose ++ t.usage :: t.listings)

end MarketBook.Command
