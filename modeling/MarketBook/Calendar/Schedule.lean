/-
Module: MarketBook.Calendar.Schedule
Purpose: The open parts of each local day, in wall time and as instants.
Main exports:
  Span, Calendar.openWalls, Calendar.openSpans, Calendar.isScheduled, Calendar.isOpen
-/
import MarketBook.Calendar.Basic
import MarketBook.Time.Instant
import MarketBook.Zone.Wall

namespace MarketBook

open Time

/-!
On Saturday the market is closed.  On Sunday it opens at the weekly open, and on Friday it closes at
the weekly close.  From Monday to Thursday it is open except for the daily break; a break that goes
on past midnight also closes the start of the next day.  All bounds are wall times, and each becomes
the first instant at which the clock shows it or, in a gap, a later time.

The range of the dates has its ends in the schedule as well.  The last date has no open part, because
it has no next midnight, and no break reaches the first date; a bound without an instant drops its
part.  A clock that shows a time outside the dates, or a break that ends outside them, stops the
program.
-/

/-- The instants, or the wall times, from a start up to a stop, the stop not included. -/
structure Span where
  start : Int
  stop : Int
deriving DecidableEq

/-- The span holds the instant. -/
def Span.holds (s : Span) (ts : Int) : Bool :=
  s.start ≤ ts && ts < s.stop

/-- The span holds anything at all. -/
def Span.isProper (s : Span) : Bool :=
  s.start < s.stop

namespace Calendar

/-- What the clock of the calendar shows at an instant that has a date. -/
def wallAt? (c : Calendar) (ts : Int) : Checked (Option Int) :=
  if hasDate ts then return some (← checkWall (c.zone.wallAt ts)) else return none

/-- The local day of an instant that has a date. -/
def dayOf? (c : Calendar) (ts : Int) : Checked (Option Int) := do
  return (← c.wallAt? ts).map fun wall => wall / dayMs

/-- The days with a break. -/
def hasBreak (day : Int) : Bool :=
  match weekdayOf day with
  | .monday | .tuesday | .wednesday | .thursday => true
  | _ => false

/-- The wall time of a clock time on a day. -/
def wallOf (day : Int) (t : ClockTime) : Int :=
  day * dayMs + t.ms

/-- The wall time at which the break of a day starts. -/
def breakFrom (c : Calendar) (day : Int) : Int :=
  wallOf day c.breakStart

/-- The wall time at which the break of a day ends. -/
def breakTo (c : Calendar) (day : Int) : Checked Int :=
  checkWall (c.breakFrom day + c.breakMinutes * minuteMs)

/-- The open parts of a day by its own rules alone. -/
def ownWalls (c : Calendar) (day nextDay : Int) : Checked (List Span) :=
  let midnight := day * dayMs
  let nextMidnight := nextDay * dayMs
  match weekdayOf day with
  | .saturday => return []
  | .sunday => return [⟨wallOf day c.weeklyOpen, nextMidnight⟩]
  | .friday => return [⟨midnight, wallOf day c.weeklyClose⟩]
  | _ => return [⟨midnight, c.breakFrom day⟩, ⟨← c.breakTo day, nextMidnight⟩]

/-- The end of the break of the day before, if there is such a day and it has a break. -/
def breakBefore? (c : Calendar) (day : Int) : Checked (Option Int) :=
  match (dayBefore? day).filter hasBreak with
  | some before => return some (← c.breakTo before)
  | none => return none

/-- The wall time before which the day is closed by the break of the day before. -/
def spill? (c : Calendar) (day : Int) : Checked (Option Int) := do
  return (← c.breakBefore? day).filter fun stop => day * dayMs < stop

/-- A span from a wall time on, if one is given. -/
def Span.after (from? : Option Int) (s : Span) : Span :=
  match from? with
  | some x => ⟨max s.start x, s.stop⟩
  | none => s

/-- The open parts of a day in wall time. -/
def openWalls (c : Calendar) (day : Int) : Checked (List Span) :=
  match dayAfter? day with
  | none => return []
  | some nextDay => do
    let own ← c.ownWalls day nextDay
    let spill ← c.spill? day
    return (own.map (Span.after spill)).filter Span.isProper

/-- The instants of a span of wall times, if both of its bounds have one. -/
def spanOfWalls? (c : Calendar) (s : Span) : Checked (Option Span) := do
  match ← c.zone.boundInstant? s.start with
  | none => return none
  | some start => return (← c.zone.boundInstant? s.stop).map fun stop => ⟨start, stop⟩

/-- The open parts of a day as instants. -/
def openSpans (c : Calendar) (day : Int) : Checked (List Span) := do
  let spans ← (← c.openWalls day).mapM c.spanOfWalls?
  return (spans.filterMap id).filter Span.isProper

/-- The schedule is open at the instant, closed windows left aside. -/
def isScheduled (c : Calendar) (ts : Int) : Checked Bool := do
  match ← c.dayOf? ts with
  | some day => return (← c.openSpans day).any (·.holds ts)
  | none => return false

/-- The closed window that holds the instant. -/
def closureAt? (c : Calendar) (ts : Int) : Option Closure :=
  Closure.containing? c.closures ts

/-- The market is open at the instant. -/
def isOpen (c : Calendar) (ts : Int) : Checked Bool :=
  if c.isBroken || (c.closureAt? ts).isSome then return false else c.isScheduled ts

end Calendar

end MarketBook
