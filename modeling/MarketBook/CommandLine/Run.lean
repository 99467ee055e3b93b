/-
Module: MarketBook.CommandLine.Run
Purpose: What each command prints and with which code it ends.
Main exports:
  Command.Result, Command.run, Command.answer
-/
import MarketBook.Cache.Store
import MarketBook.Calendar.State
import MarketBook.CommandLine.Help
import MarketBook.Json.Printer
import MarketBook.Settings.Wiring

namespace MarketBook.Command

open Device

/-- The output of a command, what it has to complain about, and the code with which it ends. -/
structure Result where
  output : String
  complaint : String
  code : Nat
deriving DecidableEq

/-- The code of a command that did what it was asked for. -/
def done : Nat := 0

/-- The code of a command that failed. -/
def failed : Nat := 1

/-- The code of arguments that stand for no command. -/
def misused : Nat := 2

/-- The code of a command that stopped where a time left its range. -/
def aborted : Nat := 101

/-- A line of output. -/
def line (s : String) : String := s ++ "\n"

/-- The result of a command that printed a text and has nothing to complain about. -/
def printed (text : String) : Result :=
  ⟨line text, "", done⟩

/-- The line that a profile gets, and whether it failed. -/
def policyLine (now : Int) (p : Profile) : String × Bool :=
  match p.requirePolicy now with
  | .ok () => (line ("OK " ++ p.tag), false)
  | .error cause => (line ("FAIL " ++ p.tag ++ ": " ++ cause.message), true)

/-- The result of a check of every profile: it fails if one of them does. -/
def policyResult (now : Int) (profiles : List Profile) : Result :=
  let lines := profiles.map (policyLine now)
  let bad := lines.countP (·.2)
  let output := String.join (lines.map (·.1))
  if bad = 0 then ⟨output, "", done⟩
  else ⟨output, line s!"{bad} calendar profile(s) failed the holiday policy", failed⟩

/-- A cache of the settings with its files loaded. -/
def loaded (s : Settings) (workingDir : Disk.Path) (symbol : String) (tf : Timeframe) :
    Act BarCache := do
  let cache ← ofOutcome (s.cache workingDir symbol tf)
  let device ← get
  let (r, after) := BarCache.load.run ⟨cache, device⟩
  set after.device
  match r with
  | .ok () => pure after.cache
  | .error e => throw e

/-- What a command prints with given settings. -/
def perform (s : Settings) (workingDir : Disk.Path) (now : Int) : Command → Act (Checked Result)
  | .calendarState ts => do
    let c ← s.calendar workingDir
    return (c.stateAt (ts.getD now)).map fun state => printed state.toJson.pretty
  | .calendarExplain ts => do
    let c ← s.calendar workingDir
    return (c.explain (ts.getD now)).map fun reasons =>
      printed (Json.arr (reasons.map fun r => Json.str r.code)).compact
  | .checkPolicy => do
    return .ok (policyResult now (← s.profiles workingDir))
  | .cacheSummary symbol tf => do
    let c ← loaded s workingDir symbol tf
    return .ok (printed c.summary.toJson.pretty)
  | .cacheTail symbol tf limit => do
    let c ← loaded s workingDir symbol tf
    return .ok (printed (Json.arr ((c.newest limit none none).map Bar.toJson)).pretty)
  | .archiveCount symbol tf => do
    let a ← s.archive workingDir
    return .ok (printed (toString (← a.count symbol tf.label)))

/-- What a command prints with the settings of the environment. -/
def run (c : Command) (workingDir : Disk.Path) (env : Settings.Environment) (now : Int) :
    Act (Checked Result) := do
  let s ← Settings.ofEnvironment workingDir env
  c.perform s workingDir now

/-- The result of a command.  One that ends with a fault prints nothing but a complaint, and one that
stops halfway prints nothing. -/
def resultOf : Except Halt (Checked Result) → Result
  | .ok (.ok r) => r
  | .ok (.error _) => ⟨"", "", aborted⟩
  | .error (.fault cause) => ⟨"", line ("error: " ++ cause.message), failed⟩
  | .error .stopped => ⟨"", "", failed⟩

/-- The name and the number of this release. -/
def versionText : String := "market_core 0.1.0"

/-- The whole tool: its arguments and variables, the present instant and the device, to its result
and the device afterwards. -/
def answer (args : List String) (workingDir : Disk.Path) (env : Settings.Environment) (now : Int)
    (device : Device) : Result × Device :=
  match ofArguments args with
  | .misuse => (⟨"", line Topic.tool.text, misused⟩, device)
  | .showHelp t => (printed t.text, device)
  | .showVersion => (printed versionText, device)
  | .run c =>
    let (r, after) := (c.run workingDir env now).run device
    (resultOf r, after)

end MarketBook.Command
