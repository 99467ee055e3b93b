/-
Module: MarketBook.Archive.Table
Purpose: The table of the archive: rows that are added and never replaced.
Main exports:
  Archive.Shape, Archive.Table, Archive.Table.insert?, Archive.Table.count, Archive.Table.find?,
  Archive.Table.latest?
-/
import MarketBook.Archive.Entry

namespace MarketBook.Archive

open ArchiveEntry

/-!
The archive makes its table with one row for each symbol, timeframe and open time.  It also works
with a table that it finds, which may lack fields or have other keys; where a field is missing,
whatever needs it fails.
-/

/-- What a table can hold. -/
structure Shape where
  /-- The fields that have a column. -/
  fields : List Field
  /-- The keys: fields in which no two rows agree all together. -/
  keys : List (List Field)
  /-- Rows need a value in a column that is no field, so that the archive can add none. -/
  needsMore : Bool
deriving DecidableEq

/-- The shape of the tables that the archive makes. -/
def Shape.standard : Shape := ⟨Field.all, [[.symbol, .tf, .openTime]], false⟩

/-- A table of bars. -/
structure Table where
  shape : Shape
  entries : List ArchiveEntry
deriving DecidableEq

namespace Table

/-- A new table. -/
def fresh : Table := ⟨.standard, []⟩

/-- A table of which nothing can be read. -/
def unreadable : Table := ⟨⟨[], [], false⟩, []⟩

/-- The table has a column for each of some fields. -/
def has (t : Table) (fields : List Field) : Bool :=
  fields.all t.shape.fields.contains

/-- The row at a key. -/
def find? (t : Table) (symbol tf : String) (opened : Int) : Option ArchiveEntry :=
  t.entries.find? (·.hasKey symbol tf opened)

/-- Some row has a key of the entry already. -/
def holdsKeyOf (t : Table) (e : ArchiveEntry) : Bool :=
  t.shape.keys.any fun key => t.entries.any (agree key · e)

/-- The table with a row more; none if a key of the row is there already or the table takes no such
rows. -/
def insert? (t : Table) (e : ArchiveEntry) : Option Table :=
  if t.shape.needsMore || t.holdsKeyOf e then none else some { t with entries := t.entries ++ [e] }

/-- The rows of a symbol and a timeframe. -/
def belonging (t : Table) (symbol tf : String) : List ArchiveEntry :=
  t.entries.filter (·.belongsTo symbol tf)

/-- The number of rows of a symbol and a timeframe. -/
def count (t : Table) (symbol tf : String) : Nat :=
  (t.belonging symbol tf).length

/-- The greater of two open times, where one may be missing. -/
def later (latest : Option Int) (e : ArchiveEntry) : Option Int :=
  some (match latest with
    | some ts => max ts e.openTime
    | none => e.openTime)

/-- The greatest open time of a symbol and a timeframe. -/
def latest? (t : Table) (symbol tf : String) : Option Int :=
  (t.belonging symbol tf).foldl later none

/-- In a table of the standard shape, a key is there exactly if a row stands at it. -/
theorem holdsKeyOf_standard (entries : List ArchiveEntry) (e : ArchiveEntry) :
    holdsKeyOf ⟨.standard, entries⟩ e
      = (find? ⟨.standard, entries⟩ e.symbol e.tf e.openTime).isSome := by
  rw [Bool.eq_iff_iff, find?, List.find?_isSome]
  simp [holdsKeyOf, Shape.standard, agree, agreeAt, hasKey, belongsTo, and_assoc]

end Table

end MarketBook.Archive
