/-
Module: MarketBook.Archive.File
Purpose: The files that archives are kept in: where they are and what may stand there and beside
  them.
Main exports:
  Address.locate, Address.stateToOpen
-/
import MarketBook.Archive.Address
import MarketBook.Archive.Import
import MarketBook.Disk.Lookup

namespace MarketBook

/-!
An archive in use has companions beside its file: a journal, a log of recent writes, and the memory
that its users share.  Their names are that of the file with something added, so the file needs a
shorter name than others, and what stands at those names must not be a directory.
-/

namespace Address

/-- The longest path of an archive with its longest companion, in octets. -/
def maxPath : Nat := 512

/-- What the name of the journal adds to that of the file. -/
def journalMark : String := "-journal"

/-- What the name of the log adds. -/
def logMark : String := "-wal"

/-- What the name of the shared memory adds. -/
def memoryMark : String := "-shm"

/-- What the name of a lock adds. -/
def lockMark : String := ".lock"

/-- What the names of all companions add. -/
def companionMarks : List String := [journalMark, logMark, memoryMark, lockMark]

/-- The octets of a path as a text. -/
def octetCount (p : Disk.Path) : Nat :=
  p.foldl (fun n name => n + name.utf8ByteSize + 1) 0

/-- Something stands in the way to a path. -/
def isBarred (d : Disk) (p : Disk.Path) : Bool :=
  match d.follow [] p with
  | .error .refused => true
  | _ => false

/-- The path at the end of steps.  Two dots take back the step before them, but each step has to
lead somewhere first: to something that is there or could be made. -/
def resolve? (d : Disk) : Disk.Path → List String → Option Disk.Path
  | here, [] => some here
  | here, step :: rest =>
    if step = Place.up then resolve? d here.dropLast rest
    else
      let next := here ++ [step]
      if maxPath ≤ octetCount next || isBarred d next then none
      else resolve? d next rest

/-- The path of the file, whose directory has to be there. -/
def locate (a : Address) (d : Disk) (workingDir : Disk.Path) : Outcome Disk.Path :=
  match resolve? d [] (Place.ofText workingDir a.file).steps with
  | none => .error .database
  | some path =>
    if maxPath < octetCount path + journalMark.utf8ByteSize then .error .database
    else match d.follow [] path with
      | .ok _ => .ok path
      | .error _ => .error .database

/-- The path of a companion. -/
def companion (path : Disk.Path) (mark : String) : Disk.Path :=
  path.dropLast ++ [path.getLast?.getD "" ++ mark]

/-- Nothing that stands at the name of a companion is in the way. -/
def hasRoom (d : Disk) (path : Disk.Path) (mark : String) : Bool :=
  !isBarred d (companion path mark) && d.node? (companion path mark) != some .directory

/-- The users of the file keep a log of recent writes, from which readers see a consistent state
while somebody writes. -/
def keepsLog (a : Address) : Bool :=
  a.locking == .shared || a.locking == .exclusive

/-- The companions of the file can be made where they are needed. -/
def hasRoomForAll (a : Address) (d : Disk) (path : Disk.Path) : Bool :=
  hasRoom d path journalMark && hasRoom d path logMark
    && (a.locking != .shared || hasRoom d path memoryMark)
    && (a.locking != .lockFile || (d.node? (companion path lockMark)).isNone)

/-- The file that gives its permissions is there, if there has to be one. -/
def hasModel (a : Address) (d : Disk) (workingDir : Disk.Path) : Bool :=
  a.model.all fun text =>
    match d.locate (Place.ofText workingDir text) with
    | .ok path => (d.node? path).isSome
    | .error _ => false

/-- What an archive starts with when it is opened. -/
inductive State where
  /-- With the table that is in the file. -/
  | held
  /-- Without rows, in a file that is missing or empty. -/
  | fresh

/-- The log that the users of a file keep fits the address: a file that was used with one needs it
again, unless it is frozen, and one that was used without gets one where the address asks for it,
which is a write. -/
def suitsLog (a : Address) (keptLog : Bool) : Bool :=
  a.isFrozen || (if keptLog then a.keepsLog else !a.keepsLog || !a.isReadOnly)

/-- An archive can be opened with what was found in a file: nothing has to be written to a file that
is only read. -/
def suits (a : Address) (found : Archive.Import) : Bool :=
  a.suitsLog found.keepsLog && (found.isSetUp || !a.isReadOnly)

/-- What the archive at a path starts with.  A file of one octet counts as empty. -/
def stateAt (a : Address) (d : Disk) (path : Disk.Path) : Outcome State :=
  match d.node? path with
  | some (.ledger _) => if a.suitsLog true then .ok .held else .error .database
  | some (.file content) =>
    if content.length ≤ 1 then if a.isReadOnly then .error .database else .ok .fresh
    else if (Archive.import? content).any a.suits then .ok .held
    else .error .database
  | some .directory => .error .database
  | none => if a.access == .creating && !a.isFrozen then .ok .fresh else .error .database

/-- What the archive at a path starts with, if nothing is in the way of opening it. -/
def stateToOpen (a : Address) (d : Disk) (workingDir path : Disk.Path) : Outcome State :=
  if a.hasModel d workingDir && (a.isFrozen || a.hasRoomForAll d path) then a.stateAt d path
  else .error .database

end Address

end MarketBook
