/-
Module: MarketBook.Calendar.State
Purpose: The state of a market at an instant, as status displays show it.
Main exports:
  MarketState, Calendar.stateAt
-/
import MarketBook.Calendar.Query

namespace MarketBook

/-- A market at an instant. -/
structure MarketState where
  isOpen : Bool
  nextOpen : String
  nextPause : String
  tag : String
  source : Zone.Source
deriving DecidableEq

/-- The state as a JSON object. -/
def MarketState.toJson (s : MarketState) : Json :=
  .obj [
    ("is_open", .bool s.isOpen),
    ("next_open_utc", .str s.nextOpen),
    ("next_pause_utc", .str s.nextPause),
    ("calendar_tag", .str s.tag),
    ("tz_backend", .str s.source.label)]

/-- The state of the market at an instant, its bounds as date and time of UTC. -/
def Calendar.stateAt (c : Calendar) (ts : Int) : Checked MarketState := do
  return {
    isOpen := ← c.isOpen ts
    nextOpen := Time.isoText (← c.nextOpen ts)
    nextPause := Time.isoText (← c.nextPause ts)
    tag := c.tag
    source := c.source }

end MarketBook
