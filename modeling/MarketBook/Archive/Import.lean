/-
Module: MarketBook.Archive.Import
Purpose: The table of the archive in a database file.
Main exports:
  Archive.Import, Archive.import?
-/
import MarketBook.Archive.Table
import MarketBook.Database.Catalog

namespace MarketBook.Archive

open ArchiveEntry Database

/-!
A database that others have made may hold the table already, or it gets one when it is opened for
the first time.  Which it is, the database remembers in a list of the steps of setting up that have
been taken.  A table that is there when that step is taken stays as it is, whatever its columns.
-/

/-- The name of the table of the archive. -/
def tableName : String := "live_archive_bars"

/-- The name of the list of steps that have been taken. -/
def stepsName : String := "__diesel_schema_migrations"

/-- The column of that list with the names of the steps. -/
def stepColumn : String := "version"

/-- The name of the step that makes the table. -/
def tableStep : String := "20250901000000"

/-- What the archive finds in a database. -/
structure Import where
  /-- The users of the file keep a log of recent writes. -/
  keepsLog : Bool
  /-- The database has been set up, so that nothing has to be written in order to open it. -/
  isSetUp : Bool
  table : Table

/-- The text that a row has in a field; empty where there is no column for it. -/
def textIn? (d : Definition) (row : Row) (f : Field) : Option String :=
  match d.valueAt? row f.column with
  | none => some ""
  | some (.text s) => some s
  | some _ => none

/-- The number that a row has in a field; zero where there is no column for it. -/
def intIn? (d : Definition) (row : Row) (f : Field) : Option Int :=
  match d.valueAt? row f.column with
  | none => some 0
  | some (.int n) => some n
  | some _ => none

/-- The entry of a stored row. -/
def entryOfRow? (d : Definition) (row : Row) : Option ArchiveEntry := do
  return {
    symbol := ← textIn? d row .symbol
    tf := ← textIn? d row .tf
    openTime := ← intIn? d row .openTime
    closeTime := ← intIn? d row .closeTime
    payload := ← textIn? d row .payload
    ingestTime := ← intIn? d row .ingestTime }

/-- The row can be found: its symbol and its timeframe are texts, and nothing else is ever looked
for. -/
def isReachable (d : Definition) (row : Row) : Bool :=
  (textIn? d row .symbol).isSome && (textIn? d row .tf).isSome

/-- The shape of a table.  A key in which a column takes part that is no field never stands in the
way, because every new row is without a value there. -/
def shapeOf (d : Definition) : Shape where
  fields := Field.all.filter fun f => d.columns.contains f.column
  keys := d.keys.filterMap fun key => key.mapM Field.ofColumn?
  needsMore := d.required.any fun column => (Field.ofColumn? column).isNone

/-- The table of an item; nothing can be read of an item that is no table or holds other values. -/
def tableOf (img : Image) (c : Catalog) (e : Item) : Table :=
  let rows? := do
    let d ← c.table? e
    let rows := (← img.rows? e.root).filter (isReachable d)
    return Table.mk (shapeOf d) (← rows.mapM (entryOfRow? d))
  rows?.getD .unreadable

/-- The steps that have been taken; none is listed where there is no list. -/
def stepsTaken? (img : Image) (c : Catalog) : Option (List Value) :=
  match c.find? stepsName with
  | none => some []
  | some e => do
    let d ← c.table? e
    (← img.rows? e.root).mapM fun row => d.valueAt? row stepColumn

/-- The database can be set up: if a table has to be made, there is room for it and its name is
free. -/
def canBeSetUp (img : Image) (c : Catalog) : Bool :=
  [stepsName, tableName].all fun name =>
    match c.find? name with
    | some e => e.kind != "index"
    | none => img.canGrow

/-- The table that an archive works with, once the database has been set up. -/
def tableIn (img : Image) (c : Catalog) (isSetUp : Bool) : Table :=
  match c.find? tableName with
  | some e => tableOf img c e
  | none => if isSetUp then .unreadable else .fresh

/-- What the archive finds in the octets of a file, if it can work with them. -/
def import? (octets : Text.Octets) : Option Import := do
  let img ← Image.ofOctets? octets
  let c ← img.catalog?
  let isSetUp := (← stepsTaken? img c).contains (.text tableStep)
  if !isSetUp && !canBeSetUp img c then none
  return ⟨img.keepsLog, isSetUp, tableIn img c isSetUp⟩

end MarketBook.Archive
