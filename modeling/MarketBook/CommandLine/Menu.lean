/-
Module: MarketBook.CommandLine.Menu
Purpose: What the operator's tool offers: groups of commands, the commands and their options.
Main exports:
  Command.Group, Command.Verb, Command.Flag, Verb.flags
-/
import MarketBook.Text.Numeral
import MarketBook.Timeframe.Reader

namespace MarketBook.Command

open Text

/-!
A command is written as the name of its group and its own name, and then come its options.  What is
listed here is all that the tool knows: arguments are read against these lists, and the help is
written from them.
-/

/-- What commands look at. -/
inductive Group where
  | calendar
  | cache
  | archive
deriving DecidableEq

/-- A command without its options. -/
inductive Verb where
  | state
  | explain
  | checkPolicy
  | summary
  | tail
  | count
deriving DecidableEq

/-- An option, which has a value. -/
inductive Flag where
  | time
  | symbol
  | timeframe
  | limit
deriving DecidableEq

/-- The groups, in the order of the help. -/
def Group.all : List Group := [.calendar, .cache, .archive]

/-- The name of a group. -/
def Group.name : Group → String
  | .calendar => "calendar"
  | .cache => "cache"
  | .archive => "archive"

/-- The name of a command in its group. -/
def Verb.name : Verb → String
  | .state => "state"
  | .explain => "explain"
  | .checkPolicy => "check-policy"
  | .summary => "summary"
  | .tail => "tail"
  | .count => "count"

/-- The group of a command. -/
def Verb.group : Verb → Group
  | .state | .explain | .checkPolicy => .calendar
  | .summary | .tail => .cache
  | .count => .archive

/-- The commands, in the order of the help. -/
def Verb.all : List Verb := [.state, .explain, .checkPolicy, .summary, .tail, .count]

/-- The commands of a group, in the order of the help. -/
def Group.verbs (g : Group) : List Verb :=
  Verb.all.filter (·.group == g)

/-- The options of a command, in the order of the help. -/
def Verb.flags : Verb → List Flag
  | .state | .explain => [.time]
  | .checkPolicy => []
  | .summary | .count => [.symbol, .timeframe]
  | .tail => [.symbol, .timeframe, .limit]

/-- The name of an option. -/
def Flag.name : Flag → String
  | .time => "--ts"
  | .symbol => "--symbol"
  | .timeframe => "--tf"
  | .limit => "--limit"

/-- A command with the option cannot do without it. -/
def Flag.isRequired : Flag → Bool
  | .symbol | .timeframe => true
  | .time | .limit => false

/-- The group of a name. -/
def Group.ofName? (name : String) : Option Group :=
  Group.all.find? (·.name == name)

/-- The command of a name in a group. -/
def Group.verb? (g : Group) (name : String) : Option Verb :=
  g.verbs.find? (·.name == name)

/-- The option of a name that a command has. -/
def Verb.flag? (v : Verb) (name : String) : Option Flag :=
  v.flags.find? (·.name == name)

/-- A time stamp. -/
def time? (raw : String) : Option Int :=
  signed? 10 raw.toList

/-- A number of rows. -/
def limit? (raw : String) : Option Nat :=
  unsigned? 10 limit64 raw.toList

/-- A timeframe. -/
def timeframe? (raw : String) : Option Timeframe :=
  (Timeframe.read raw).toOption

/-- A text is a value of the option.  Any text is a symbol. -/
def Flag.accepts (raw : String) : Flag → Bool
  | .time => (time? raw).isSome
  | .symbol => true
  | .timeframe => (timeframe? raw).isSome
  | .limit => (limit? raw).isSome

/-- The number of rows where none is given. -/
def standardLimit : Nat := 10

end MarketBook.Command
