/-
Module: MarketBook.Timeframe.Reader
Purpose: Timeframes read from text, the older labels included.
Main exports:
  Timeframe.read
-/
import MarketBook.Fault
import MarketBook.Text.Blank
import MarketBook.Text.Upper

namespace MarketBook.Timeframe

open Text

/-- The other labels that have been in use. -/
def aliases : List (String × Timeframe) :=
  [("m1", .m1), ("1min", .m1), ("h1", .h1), ("d1", .d1)]

/-- The timeframe of a label or alias in lower case. -/
def ofKey? (key : String) : Option Timeframe :=
  (ofLabel? key).or ((aliases.find? (·.1 == key)).map (·.2))

/-- A timeframe from its label or an alias, whatever the case of its letters and the white space
around it. -/
def read (raw : String) : Outcome Timeframe :=
  let key := lowerAscii (trim raw)
  if key == "" then misused .blankTimeframe
  else match ofKey? key with
    | some tf => .ok tf
    | none => misused (.unknownTimeframe raw)

theorem read_label (tf : Timeframe) : read tf.label = .ok tf := by
  cases tf <;> rfl

end MarketBook.Timeframe
