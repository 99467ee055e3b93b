/-
Module: MarketBook.CommandLine.Arguments
Purpose: What arguments ask the operator's tool for.
Main exports:
  Command, Command.Topic, Command.Request, Command.ofArguments
-/
import MarketBook.CommandLine.Menu

namespace MarketBook

/-!
An option is written with its value behind an equals sign or as the next argument; such an argument
does not start with a dash.  Options may come in any order, each once.  Arguments are read from left
to right, up to the first one that asks for help or cannot be there; so a call for help counts if
what stands before it is sound, whatever comes behind it.  Arguments that ask for nothing are
refused before anything is done.
-/

/-- A command with the values of its options. -/
inductive Command where
  | calendarState (ts : Option Int)
  | calendarExplain (ts : Option Int)
  | checkPolicy
  | cacheSummary (symbol : String) (tf : Timeframe)
  | cacheTail (symbol : String) (tf : Timeframe) (limit : Nat)
  | archiveCount (symbol : String) (tf : Timeframe)
deriving DecidableEq

namespace Command

/-- What help is about. -/
inductive Topic where
  /-- The whole tool. -/
  | tool
  | group (g : Group)
  | verb (v : Verb)
  /-- Help itself, of the whole tool or of a group. -/
  | help (g : Option Group)
deriving DecidableEq

/-- What arguments ask for. -/
inductive Request where
  | run (c : Command)
  | showHelp (t : Topic)
  | showVersion
  | misuse
deriving DecidableEq

/-- Options with their values, each of which the option accepts. -/
abbrev Options := List (Flag × String)

/-- An argument of the form of an option or a switch. -/
def isDashed (arg : String) : Bool :=
  arg.startsWith "-" && arg != "-"

/-- An argument that asks for help.  Of several letters behind a dash the first one counts. -/
def asksHelp (arg : String) : Bool :=
  arg == "--help" || arg.startsWith "-h"

/-- An argument that asks for the number of the release. -/
def asksVersion (arg : String) : Bool :=
  arg == "--version" || arg.startsWith "-V"

/-- The word that asks for help in the place of a name. -/
def helpWord : String := "help"

/-- The argument behind which there are no more options. -/
def endMark : String := "--"

/-- An option and its value out of one argument with an equals sign. -/
def splitEquals (arg : String) : Option (String × String) :=
  let cs := arg.toList
  let behind := cs.dropWhile (· ≠ '=')
  if behind.isEmpty then none
  else some (String.ofList (cs.takeWhile (· ≠ '=')), String.ofList (behind.drop 1))

/-- Options with one more, which the command has to know, which must not be among them and which
accepts the value. -/
def withOption? (v : Verb) (os : Options) (name value : String) : Option Options := do
  let flag ← v.flag? name
  if os.any (·.1 == flag) || !flag.accepts value then none
  return (flag, value) :: os

/-- The value of an option. -/
def value? (flag : Flag) (os : Options) : Option String :=
  (os.find? (·.1 == flag)).map (·.2)

/-- The command of its name and its options; none if one is missing that it needs. -/
def ofOptions? (v : Verb) (os : Options) : Option Command :=
  let ts := (value? .time os).bind time?
  let tf := (value? .timeframe os).bind timeframe?
  let limit := ((value? .limit os).bind limit?).getD standardLimit
  match v with
  | .state => some (.calendarState ts)
  | .explain => some (.calendarExplain ts)
  | .checkPolicy => some .checkPolicy
  | .summary => return .cacheSummary (← value? .symbol os) (← tf)
  | .tail => return .cacheTail (← value? .symbol os) (← tf) limit
  | .count => return .archiveCount (← value? .symbol os) (← tf)

/-- The request that runs a command, if there is one. -/
def Request.ofCommand? : Option Command → Request
  | some c => .run c
  | none => .misuse

/-- The request that shows help on a topic, if there is one. -/
def Request.ofTopic? : Option Topic → Request
  | some t => .showHelp t
  | none => .misuse

/-- The request of a command's arguments, of which those before have been read as options. -/
def ofVerb (v : Verb) (os : Options) : List String → Request
  | [] => .ofCommand? (ofOptions? v os)
  | arg :: rest =>
    if arg == endMark then
      if rest.isEmpty then .ofCommand? (ofOptions? v os) else .misuse
    else if asksHelp arg then .showHelp (.verb v)
    else match splitEquals arg with
      | some (name, value) =>
        match withOption? v os name value with
        | some os => ofVerb v os rest
        | none => .misuse
      | none =>
        match rest with
        | value :: rest =>
          match if isDashed value then none else withOption? v os arg value with
          | some os => ofVerb v os rest
          | none => .misuse
        | [] => .misuse

/-- The topic of names in a group. -/
def Topic.inGroup? (g : Group) : List String → Option Topic
  | [] => some (.group g)
  | [name] => if name = helpWord then some (.help (some g)) else (g.verb? name).map .verb
  | _ => none

/-- The topic of names. -/
def Topic.ofNames? : List String → Option Topic
  | [] => some .tool
  | name :: names =>
    if name = helpWord then if names.isEmpty then some (.help none) else none
    else (Group.ofName? name).bind fun g => Topic.inGroup? g names

/-- The request of the arguments behind the name of a group. -/
def ofGroup (g : Group) : List String → Request
  | [] => .misuse
  | arg :: rest =>
    if asksHelp arg then .showHelp (.group g)
    else if arg = helpWord then .ofTopic? (Topic.inGroup? g rest)
    else match g.verb? arg with
      | some v => ofVerb v [] rest
      | none => .misuse

/-- The request of the arguments. -/
def ofArguments : List String → Request
  | [] => .misuse
  | arg :: rest =>
    if asksHelp arg then .showHelp .tool
    else if asksVersion arg then .showVersion
    else if arg = helpWord then .ofTopic? (Topic.ofNames? rest)
    else match Group.ofName? arg with
      | some g => ofGroup g rest
      | none => .misuse

end Command

end MarketBook
