/-
Module: MarketBook.Main
Purpose: The operator's tool: it brings the files that a command looks at into a disk, runs the
  command there, and takes back to the machine whatever has changed.
Main exports:
  main
-/
import MarketBook.Archive.Ledger
import MarketBook.CommandLine.Files
import MarketBook.CommandLine.Run
import Std.Time.DateTime.Timestamp

namespace MarketBook.Machine

/-- The name by which the machine knows a path. -/
def nameOf (p : Disk.Path) : String :=
  "/" ++ String.intercalate "/" p

/-- The content of a file as it stands on a disk: a ledger by its table, any other by its octets. -/
def nodeOf (content : Text.Octets) : Disk.Node :=
  match (Text.decode? content).bind Ledger.read? with
  | some table => .ledger table
  | none => .file content

/-- What stands at a path of the machine.  Whatever is there and cannot be read counts as a
directory. -/
def node? (p : Disk.Path) : IO (Option Disk.Node) := do
  try
    let content ← IO.FS.readBinFile (nameOf p)
    return some (nodeOf content.toList)
  catch
    | .noFileOrDirectory .. => return none
    | _ => return some .directory

/-- The disk with what stands along steps on the machine; below what is no directory stands
nothing. -/
def bringFrom (d : Disk) (here : Disk.Path) : List String → IO Disk
  | [] => return d
  | step :: rest => do
    if step == Place.up then bringFrom d here.dropLast rest
    else
      let next := here ++ [step]
      if d.node? here != some .directory then bringFrom d next rest
      else match ← node? next with
        | some node => bringFrom (d.set next node) next rest
        | none => bringFrom d next rest

/-- The disk with what stands along several ways on the machine. -/
def bringAll (d : Disk) (places : List Place) : IO Disk :=
  places.foldlM (fun d p => bringFrom d [] p.steps) d

/-- Puts what stands at a path of a disk there on the machine. -/
def take (p : Disk.Path) : Disk.Node → IO Unit
  | .directory => IO.FS.createDirAll (nameOf p)
  | .file content => IO.FS.writeBinFile (nameOf p) content.toByteArray
  | .ledger table => IO.FS.writeFile (nameOf p) (Ledger.write table)

/-- Takes to the machine what an operation has changed on a disk, directories before what they
hold. -/
def takeChanges (before after : Disk) : IO Unit := do
  let changed := after.nodes.filter fun e =>
    before.node? e.1 != some e.2 && e.1 != Archive.privatePath
  for e in changed.mergeSort (fun a b => a.1.length ≤ b.1.length) do
    take e.1 e.2

/-- The variables that settings look at. -/
def environment : IO Settings.Environment := do
  let pairs ← Settings.variableNames.mapM fun name => do return (name, ← IO.getEnv name)
  return fun name => (pairs.find? (·.1 == name)).bind (·.2)

/-- The directory in which the tool was started. -/
def workingDir : IO Disk.Path := do
  return (Place.ofText [] (toString (← IO.currentDir))).steps

/-- The present instant. -/
def now : IO Int := do
  return (← Std.Time.Timestamp.now).toMillisecondsSinceUnixEpoch.val

/-- The disk with everything that a command looks at.  The settings file tells which files those
are. -/
def diskFor (c : Command) (here : Disk.Path) (env : Settings.Environment) : IO Disk := do
  let d ← bringAll .empty (Place.ofText here "." :: (Settings.filePlace? here env).toList)
  match ((Settings.ofEnvironment here env).run (Device.sound d 0)).1 with
  | .ok s => bringAll d (c.files s here)
  | .error _ => return d

/-- The disk for a request; only a command needs one. -/
def diskForRequest (r : Command.Request) (here : Disk.Path) (env : Settings.Environment) :
    IO Disk :=
  match r with
  | .run c => diskFor c here env
  | _ => return .empty

/-- Runs the command of the arguments and gives the code with which it ends.  No command replaces a
file by way of a staging file, so the number of the process does not matter. -/
def run (args : List String) : IO UInt32 := do
  let here ← workingDir
  let env ← environment
  let before ← diskForRequest (Command.ofArguments args) here env
  let (r, after) := Command.answer args here env (← now) (Device.sound before 0)
  takeChanges before after.disk
  IO.print r.output
  IO.eprint r.complaint
  return r.code.toUInt32

end MarketBook.Machine

/-- The tool of the operator. -/
def main (args : List String) : IO UInt32 :=
  MarketBook.Machine.run args
