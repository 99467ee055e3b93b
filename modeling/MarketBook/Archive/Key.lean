/-
Module: MarketBook.Archive.Key
Purpose: The checks on the key of an archive row.
Main exports:
  Archive.requireKey
-/
import MarketBook.Bucket
import MarketBook.Text.Blank
import MarketBook.Time.Rails

namespace MarketBook.Archive

open Time

/-- The timeframe of a label, which has to be canonical. -/
def requireLabel (label : String) : Outcome Timeframe :=
  match Timeframe.ofLabel? label with
  | some tf => .ok tf
  | none => violated (.unknownLabel label)

/-- The timeframe of a key: the symbol is not blank, the label is canonical, the open time is
plausible, and the bar fills a bucket. -/
def requireKey (symbol label : String) (opened closed : Int) : Outcome Timeframe := do
  if Text.allBlank symbol then misused .emptyKeySymbol
  let tf ← requireLabel label
  let _ ← requireRails "open_time_ms" opened
  Bucket.requireGeometry tf opened closed
  return tf

end MarketBook.Archive
