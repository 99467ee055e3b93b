/-
Module: MarketBook.Archive.Entry
Purpose: One row of the archive and its fields.
Main exports:
  ArchiveEntry, ArchiveEntry.hasKey, ArchiveEntry.Field, ArchiveEntry.agree
-/
import MarketBook.Json.Basic

namespace MarketBook

/-- A bar as it was handed to the archive, complete or not: symbol as submitted, canonical label of
the timeframe, the two times, the bar as JSON text, and the time of its arrival. -/
structure ArchiveEntry where
  symbol : String
  tf : String
  openTime : Int
  closeTime : Int
  payload : String
  ingestTime : Int
deriving DecidableEq

namespace ArchiveEntry

/-- The entry belongs to a symbol and a timeframe, both compared as texts. -/
def belongsTo (e : ArchiveEntry) (symbol tf : String) : Bool :=
  e.symbol == symbol && e.tf == tf

/-- The entry stands at a key. -/
def hasKey (e : ArchiveEntry) (symbol tf : String) (opened : Int) : Bool :=
  e.belongsTo symbol tf && e.openTime == opened

/-- A field of an entry. -/
inductive Field where
  | symbol
  | tf
  | openTime
  | closeTime
  | payload
  | ingestTime
deriving DecidableEq

namespace Field

/-- The fields in the order in which they are written. -/
def all : List Field := [.symbol, .tf, .openTime, .closeTime, .payload, .ingestTime]

/-- The name of the column of a field. -/
def column : Field → String
  | .symbol => "symbol"
  | .tf => "tf"
  | .openTime => "open_time_ms"
  | .closeTime => "close_time_ms"
  | .payload => "payload_json"
  | .ingestTime => "ingest_ts_ms"

/-- The field of a column. -/
def ofColumn? (name : String) : Option Field :=
  all.find? (·.column == name)

end Field

/-- The value of a field as JSON. -/
def value (e : ArchiveEntry) : Field → Json
  | .symbol => .str e.symbol
  | .tf => .str e.tf
  | .openTime => .int e.openTime
  | .closeTime => .int e.closeTime
  | .payload => .str e.payload
  | .ingestTime => .int e.ingestTime

/-- The entry as a JSON object. -/
def toJson (e : ArchiveEntry) : Json :=
  .obj (Field.all.map fun f => (f.column, e.value f))

/-- Two entries have the same value in a field. -/
def agreeAt (a b : ArchiveEntry) : Field → Bool
  | .symbol => a.symbol == b.symbol
  | .tf => a.tf == b.tf
  | .openTime => a.openTime == b.openTime
  | .closeTime => a.closeTime == b.closeTime
  | .payload => a.payload == b.payload
  | .ingestTime => a.ingestTime == b.ingestTime

/-- Two entries have the same value in each of some fields. -/
def agree (fields : List Field) (a b : ArchiveEntry) : Bool :=
  fields.all (agreeAt a b)

end ArchiveEntry

end MarketBook
