/-
Module: MarketBook.Calendar.Query
Purpose: Questions about a calendar at an instant: the next open and the next pause, the reasons of
  a closed market, the last close, and the bounds of the trading day.
Main exports:
  Calendar.nextOpen, Calendar.nextPause, Calendar.explain, Calendar.lastTradingClose,
  Calendar.dayBoundary, Calendar.nextDayBoundary, Calendar.isRepairWindow
-/
import MarketBook.Calendar.Runs

namespace MarketBook.Calendar

open Time

/-!
No question ends with a fault.  A broken calendar answers with the instant it was asked about, is
never open, and gives its own state as the reason.
-/

/-- How far a search goes on when a window of runs does not serve. -/
def hopMs : Int := 7 * dayMs

/-- How many windows a search looks at. -/
def maxHops : Nat := 60

/-- The first start of a run at or after the anchor, in the windows from the anchor on. -/
def findRunStart (c : Calendar) : Nat → Int → Checked (Option Int)
  | 0, _ => return none
  | more + 1, anchor => do
    let runs ← c.runsAround anchor
    match runs.find? fun s => anchor ≤ s.start with
    | some s => return some s.start
    | none =>
      -- an anchor that has a date is far from the ends of 64 bits
      if runs.isEmpty && !hasDate anchor then return none
      else findRunStart c more (anchor + hopMs)

/-- The first instant from which an open may be searched: the end of the closed window that holds
the instant, or the instant itself. -/
def searchFrom (c : Calendar) (ts : Int) : Int :=
  match c.closureAt? ts with
  | some closure => closure.stop
  | none => ts

/-- The earliest start of a run at or after the instant.  From inside a run this is the start of the
next one. -/
def nextOpen (c : Calendar) (ts : Int) : Checked Int :=
  if c.isBroken then return ts
  else return (← c.findRunStart maxHops (c.searchFrom ts)).getD ts

/-- The end of the run that holds the instant or, while closed, of the run that starts at the next
open. -/
def nextPause (c : Calendar) (ts : Int) : Checked Int :=
  if c.isBroken then return ts
  else do
    if ← c.isOpen ts then
      return (((← c.runsAround ts).find? (·.holds ts)).map (·.stop)).getD ts
    else
      let opened ← c.nextOpen ts
      return (((← c.runsAround opened).find? fun s => s.start = opened).map (·.stop)).getD ts

/-- Why a market is closed. -/
inductive Reason where
  | closedInterval
  | weekendClosed
  | dailyBreak
  | calendarError
deriving DecidableEq

/-- The code of a reason. -/
def Reason.code : Reason → String
  | .closedInterval => "closed_interval"
  | .weekendClosed => "weekend_closed"
  | .dailyBreak => "daily_break"
  | .calendarError => "calendar_error"

/-- The wall time lies between the close of one week and the open of the next. -/
def isWeekend (c : Calendar) (wall : Int) : Bool :=
  match weekdayOf (wall / dayMs) with
  | .saturday => true
  | .sunday => wall % dayMs < c.weeklyOpen.ms
  | .friday => c.weeklyClose.ms ≤ wall % dayMs
  | _ => false

/-- Why the schedule is closed at an instant, closed windows left aside. -/
def scheduleReasons (c : Calendar) (ts : Int) : Checked (List Reason) := do
  if ← c.isScheduled ts then return []
  else
    match ← c.wallAt? ts with
    | none => return []
    | some wall => return [if c.isWeekend wall then .weekendClosed else .dailyBreak]

/-- Why the market is closed at an instant; nothing while it is open. -/
def explain (c : Calendar) (ts : Int) : Checked (List Reason) :=
  if c.isBroken then return [.calendarError]
  else
    return (if (c.closureAt? ts).isSome then [.closedInterval] else []) ++ (← c.scheduleReasons ts)

/-- The last instant of trading: of the run that is under way, or else of the latest run that ended
by the instant. -/
def lastTradingClose (c : Calendar) (ts : Int) : Checked Int :=
  if c.isBroken then return ts
  else do
    if ← c.isOpen ts then return (← c.nextPause ts) - 1
    else
      let runs ← c.runsAround (← checkWord (ts - hopMs))
      return ((runs.reverse.find? fun s => s.stop ≤ ts).map (·.stop - 1)).getD ts

/-- The instant at which the trading day of a local day starts: the start of its break. -/
def dayStart? (c : Calendar) (day : Int) : Checked (Option Int) :=
  c.zone.boundInstant? (c.breakFrom day)

/-- The same for a day that may be missing at an end of the dates. -/
def neighbourStart? (c : Calendar) : Option Int → Checked (Option Int)
  | some day => c.dayStart? day
  | none => return none

/-- The start of the trading day of the local day of an instant, with the day itself. -/
def ownStart? (c : Calendar) (ts : Int) : Checked (Option (Int × Int)) := do
  match ← c.dayOf? ts with
  | none => return none
  | some day => return (← c.dayStart? day).map fun start => (day, start)

/-- The start of the trading day that holds the instant. -/
def dayBoundary (c : Calendar) (ts : Int) : Checked Int :=
  if c.isBroken then return ts
  else do
    match ← c.ownStart? ts with
    | none => return ts
    | some (day, start) =>
      if start ≤ ts then return start else return (← c.neighbourStart? (dayBefore? day)).getD ts

/-- The first start of a trading day after the instant. -/
def nextDayBoundary (c : Calendar) (ts : Int) : Checked Int :=
  if c.isBroken then return ts
  else do
    match ← c.ownStart? ts with
    | none => return ts
    | some (day, start) =>
      if ts < start then return start else return (← c.neighbourStart? (dayAfter? day)).getD ts

/-- Maintenance may run: always, unless it has to wait for a closed market. -/
def isRepairWindow (c : Calendar) (ts : Int) (onlyWhenClosed : Bool) : Checked Bool :=
  if onlyWhenClosed then return !(← c.isOpen ts) else return true

end MarketBook.Calendar
