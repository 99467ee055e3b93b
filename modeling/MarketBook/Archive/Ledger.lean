/-
Module: MarketBook.Archive.Ledger
Purpose: The table of an archive as the text of its file.
Main exports:
  Ledger.write, Ledger.read?
-/
import MarketBook.Archive.Table
import MarketBook.Json.Printer
import MarketBook.Json.Reader

namespace MarketBook.Ledger

open Archive ArchiveEntry

/-!
The file holds one JSON object: the names of the columns, the keys, whether rows need more than
that, and the rows.  A file in which anything else stands is no ledger.
-/

/-- The names of the parts. -/
def columnsName : String := "columns"

/-- The name of the list of keys. -/
def keysName : String := "keys"

/-- The name of the mark of tables whose rows need more than the columns. -/
def needsMoreName : String := "needs_more"

/-- The name of the list of rows. -/
def rowsName : String := "rows"

/-- Fields by the names of their columns. -/
def namesOf (fields : List Field) : Json :=
  .arr (fields.map fun f => .str f.column)

/-- A table as the text of a file. -/
def write (t : Table) : String :=
  (Json.obj [
    (columnsName, namesOf t.shape.fields),
    (keysName, .arr (t.shape.keys.map namesOf)),
    (needsMoreName, .bool t.shape.needsMore),
    (rowsName, .arr (t.entries.map ArchiveEntry.toJson))]).compact ++ "\n"

/-- The text of a field of a row. -/
def text? (f : Field) (j : Json) : Option String :=
  (j.get? f.column).bind Json.asText?

/-- The time stamp of a field of a row. -/
def time? (f : Field) (j : Json) : Option Int :=
  (j.get? f.column).bind Json.asInt64?

/-- A row from JSON. -/
def entryOfJson? (j : Json) : Option ArchiveEntry := do
  return {
    symbol := ← text? .symbol j
    tf := ← text? .tf j
    openTime := ← time? .openTime j
    closeTime := ← time? .closeTime j
    payload := ← text? .payload j
    ingestTime := ← time? .ingestTime j }

/-- Fields from JSON. -/
def fieldsOfJson? (j : Json) : Option (List Field) := do
  (← j.asItems?).mapM fun item => item.asText?.bind Field.ofColumn?

/-- The items of the list at a key. -/
def itemsAt? (key : String) (j : Json) : Option (List Json) :=
  (j.get? key).bind Json.asItems?

/-- The table that the text of a file holds. -/
def read? (text : String) : Option Table := do
  let j ← Json.read? text
  let fields ← (j.get? columnsName).bind fieldsOfJson?
  let keys ← (← itemsAt? keysName j).mapM fieldsOfJson?
  let needsMore ← (j.get? needsMoreName).bind Json.asBool?
  let rows ← (← itemsAt? rowsName j).mapM entryOfJson?
  return ⟨⟨fields, keys, needsMore⟩, rows⟩

end MarketBook.Ledger
