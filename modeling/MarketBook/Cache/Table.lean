/-
Module: MarketBook.Cache.Table
Purpose: Rows as a file of comma-separated values, and the checks that a file has to pass.
Main exports:
  Table.columns, Table.write, Table.read
-/
import MarketBook.Bar.Rows
import MarketBook.Bucket
import MarketBook.Cache.Binding
import MarketBook.Csv.Reader
import MarketBook.Csv.Writer
import MarketBook.Decimal.Reader
import MarketBook.Time.Rails
import MarketBook.Timeframe.Reader

namespace MarketBook.Table

open Decimal Text Time

/-!
The first line names the columns.  Every further line is one bar of the binding.  A file is read
only as a whole: each row must have the right number of fields of the right kinds, belong to the
binding, open and close where a bucket of the timeframe does, and hold finite numbers; the rows must
ascend.  The first row that fails decides the fault.
-/

/-- The names of the columns, in order. -/
def columns : List String :=
  ["symbol", "tf", "open_time_ms", "close_time_ms", "open", "high", "low", "close", "volume",
    "tick_count"]

/-- Numbers in a table: as in JSON, but without a plus sign in an exponent. -/
def numberLayout : Layout := ⟨.even, some (-5, 15), true, ""⟩

/-- The fields of a row. -/
def fieldsOf (b : Bar) : List String :=
  [b.symbol, b.tf.label, toString b.openTime, toString b.closeTime,
    numberLayout.render b.opening, numberLayout.render b.high, numberLayout.render b.low,
    numberLayout.render b.closing, numberLayout.render b.volume, toString b.ticks]

/-- The rows as the text of a file. -/
def writeText (rows : List Bar) : List Char :=
  Csv.writeRecord columns ++ rows.flatMap fun b => Csv.writeRecord (fieldsOf b)

/-- The rows as the content of a file. -/
def write (rows : List Bar) : Octets :=
  encode (String.ofList (writeText rows))

/-- An integer field: in decimal, or in hexadecimal behind `0x`. -/
def integer? (read? : Nat → List Char → Option α) (s : String) : Option α :=
  match s.toList with
  | '0' :: 'x' :: r => read? 16 r
  | cs => read? 10 cs

/-- The bar that the fields of a row hold. -/
def barOfFields? : List String → Option Bar
  | [symbol, tf, openTime, closeTime, opening, high, low, closing, volume, ticks] => do
    return {
      symbol := symbol
      tf := ← (Timeframe.read tf).toOption
      openTime := ← integer? signed? openTime
      closeTime := ← integer? signed? closeTime
      opening := ← read? opening
      high := ← read? high
      low := ← read? low
      closing := ← read? closing
      volume := ← read? volume
      ticks := ← integer? (fun base => unsigned? base limit64) ticks }
  | _ => none

/-- The bar of a row, if it passes every check of its own. -/
def readRow (binding : Binding) (path : String) (row : Nat) (record : List Csv.Field) :
    Outcome Bar :=
  match (Csv.texts? record).bind barOfFields? with
  | none => violated (.unreadableRow path row)
  | some b => do
    if b.symbol ≠ binding.symbol ∨ b.tf ≠ binding.tf then
      violated (.foreignRow path row b.symbol b.tf binding.symbol binding.tf)
    let _ ← requireRails "open_time_ms" b.openTime
    Bucket.requireGeometry binding.tf b.openTime b.closeTime
    match b.firstNotFinite? with
    | some field => violated (.rowNotFinite path row field)
    | none => return b

/-- The bars of the rows from a number on. -/
def readRows (binding : Binding) (path : String) : Nat → List (List Csv.Field) → Outcome (List Bar)
  | _, [] => .ok []
  | row, record :: rest => do
    return (← readRow binding path row record) :: (← readRows binding path (row + 1) rest)

/-- The first line names the columns; a line that is not text cannot be compared. -/
def requireHeader (path : String) (header : List Csv.Field) : Outcome Unit :=
  match Csv.texts? header with
  | none => .error .csv
  | some names => if names = columns then .ok () else violated (.headerMismatch path)

/-- The rows of the records of a file. -/
def readRecords (binding : Binding) (path : String) (records : List (List Csv.Field)) :
    Outcome (List Bar) := do
  requireHeader path (records.headD [])
  let rows ← readRows binding path 1 records.tail
  Rows.requireAscending rows
  return rows

/-- The rows of the content of a file; `path` is what faults call it. -/
def read (binding : Binding) (path : String) (content : Octets) : Outcome (List Bar) :=
  readRecords binding path (Csv.records content)

end MarketBook.Table
