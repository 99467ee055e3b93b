/-
Module: MarketBook.Bar.Basic
Purpose: A bar: the prices of one bucket of one instrument.
Main exports:
  Bar, Bar.requirePriceRails, Bar.toJson
-/
import MarketBook.Fault
import MarketBook.Json.Basic

namespace MarketBook

open Decimal

/-- A bar of one instrument, with the first and the last instant of its bucket. -/
structure Bar where
  symbol : String
  tf : Timeframe
  openTime : Int
  closeTime : Int
  opening : Binary64
  high : Binary64
  low : Binary64
  closing : Binary64
  volume : Binary64
  ticks : Nat
deriving DecidableEq

namespace Bar

/-- The prices and the volume, each with its name. -/
def quantities (b : Bar) : List (String × Binary64) :=
  [("open", b.opening), ("high", b.high), ("low", b.low), ("close", b.closing),
    ("volume", b.volume)]

/-- The first quantity that is not a finite number. -/
def firstNotFinite? (b : Bar) : Option String :=
  (b.quantities.find? fun q => !q.2.isFinite).map (·.1)

/-- The high is the highest and the low the lowest of the four prices. -/
def requirePriceRails (b : Bar) : Outcome Unit :=
  if b.high.lt (b.opening.max b.closing) then violated (.highTooLow b.high b.openTime)
  else if (b.opening.min b.closing).lt b.low then violated (.lowTooHigh b.low b.openTime)
  else if b.high.lt b.low then violated (.highBelowLow b.openTime)
  else .ok ()

/-- The bar as a JSON object, its fields in the order of the columns. -/
def toJson (b : Bar) : Json :=
  .obj [
    ("symbol", .str b.symbol),
    ("tf", .str b.tf.label),
    ("open_time_ms", .int b.openTime),
    ("close_time_ms", .int b.closeTime),
    ("open", .float b.opening),
    ("high", .float b.high),
    ("low", .float b.low),
    ("close", .float b.closing),
    ("volume", .float b.volume),
    ("tick_count", .ofNat b.ticks)]

end Bar

end MarketBook
