/-
Module: MarketBook.Archive.Submission
Purpose: What is handed in for the archive, what becomes of it, and what comes back.
Main exports:
  Archive.Submission, Archive.Submission.entry, Archive.InsertResult, ArchiveEntry.decoded
-/
import MarketBook.Archive.Entry
import MarketBook.Archive.Key
import MarketBook.Json.Printer
import MarketBook.Json.Reader

namespace MarketBook

namespace Archive

/-- What became of an insertion. -/
inductive InsertResult where
  /-- A new row was stored. -/
  | inserted
  /-- The key was there already, and nothing changed. -/
  | duplicate
  /-- The row was refused. -/
  | failed (cause : Fault)
deriving DecidableEq

/-- A result as a JSON object. -/
def InsertResult.toJson : InsertResult → Json
  | .inserted => .obj [("status", .str "INSERTED")]
  | .duplicate => .obj [("status", .str "DUPLICATE")]
  | .failed cause => .obj [("status", .str "FAILED"), ("error", .str cause.message)]

/-- What is handed in for insertion. -/
structure Submission where
  symbol : String
  label : String
  openTime : Int
  closeTime : Int
  payload : Json
  ingestTime : Int

/-- The row of a submission, which has to have a sound key; it has the canonical timeframe. -/
def Submission.entry (s : Submission) : Outcome ArchiveEntry :=
  (requireKey s.symbol s.label s.openTime s.closeTime).map fun tf =>
    ⟨s.symbol, tf.label, s.openTime, s.closeTime, s.payload.compact, s.ingestTime⟩

end Archive

/-- The bar of an entry.  An archive that others have filled may hold a text that is no JSON. -/
def ArchiveEntry.decoded (e : ArchiveEntry) : Outcome Json :=
  match Json.read? e.payload with
  | some j => .ok j
  | none => .error .json

end MarketBook
