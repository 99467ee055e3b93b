/-
Module: MarketBook.Archive.Store
Purpose: Archives that are open, in files of their own or private.
Main exports:
  Archive, Archive.openAt, Archive.insert, Archive.count, Archive.get?, Archive.latest?
-/
import MarketBook.Archive.File
import MarketBook.Archive.Submission
import MarketBook.Disk.Device

namespace MarketBook

open Device

/-!
The archive is evidence of every bar that was seen.  A failing insertion is a result and not a
fault, so that somebody who hands one bar to several takers never stops because of the archive.
-/

/-- An archive that is open. -/
structure Archive where
  /-- Where the table is held. -/
  path : Disk.Path
  isReadOnly : Bool
deriving DecidableEq

namespace Archive

/-- The table at a path, in a file of the archive's own or in a database that was found there. -/
def tableAt (d : Disk) (p : Disk.Path) : Outcome Table :=
  match d.node? p with
  | some (.ledger t) => .ok t
  | some (.file content) =>
    match import? content with
    | some found => .ok found.table
    | none => .error .database
  | _ => .error .database

/-- The table, which has to have a column for each of some fields. -/
def tableWith (a : Archive) (fields : List ArchiveEntry.Field) : Act Table := do
  let t ← ofOutcome (tableAt (← get).disk a.path)
  if t.has fields then return t else fail .database

/-- Puts a table in place of the one that is held; a reader cannot do that. -/
def putTable (a : Archive) (t : Table) : Act Unit :=
  if a.isReadOnly then fail .database
  else modify fun v => { v with disk := v.disk.set a.path (.ledger t) }

/-- Where a private archive holds its table.  No text names this path, because the names that texts
hold are not empty. -/
def privatePath : Disk.Path := [""]

/-- Opens a private archive, which starts without rows. -/
def openPrivate (a : Address) : Act Archive := do
  let archive : Archive := ⟨privatePath, a.isReadOnly⟩
  archive.putTable .fresh
  return archive

/-- Opens the archive of a file. -/
def openFile (workingDir : Disk.Path) (a : Address) : Act Archive := do
  let d := (← get).disk
  let path ← ofOutcome (a.locate d workingDir)
  let archive : Archive := ⟨path, a.isReadOnly⟩
  match ← ofOutcome (a.stateToOpen d workingDir path) with
  | .held => pure ()
  | .fresh => archive.putTable .fresh
  return archive

/-- Opens the archive of an address; missing directories are made, and a missing file if the address
allows it. -/
def openAt (workingDir : Disk.Path) (text : String) : Act Archive := do
  makeDirs (Place.ofText workingDir text).parent
  let a ← ofOutcome (Address.read text)
  if a.isPrivate then openPrivate a else openFile workingDir a

/-- An insertion that ends with a fault has failed. -/
def orFailed (act : Act InsertResult) : Act InsertResult :=
  tryCatch act fun
    | .stopped => throw .stopped
    | .fault cause => return .failed cause

/-- Stores a bar unless its key is there.  What a reader hands in is refused even then. -/
def insert (a : Archive) (s : Submission) : Act InsertResult :=
  orFailed do
    let e ← ofOutcome s.entry
    let t ← a.tableWith ArchiveEntry.Field.all
    a.putTable ((t.insert? e).getD t)
    return if (t.insert? e).isSome then .inserted else .duplicate

/-- The number of bars of a symbol and a timeframe. -/
def count (a : Archive) (symbol tf : String) : Act Nat := do
  return (← a.tableWith [.symbol, .tf]).count symbol tf

/-- The bar at a key. -/
def get? (a : Archive) (symbol tf : String) (opened : Int) : Act (Option ArchiveEntry) := do
  return (← a.tableWith ArchiveEntry.Field.all).find? symbol tf opened

/-- The greatest open time of a symbol and a timeframe. -/
def latest? (a : Archive) (symbol tf : String) : Act (Option Int) := do
  return (← a.tableWith [.symbol, .tf, .openTime]).latest? symbol tf

end Archive

end MarketBook
