/-
Module: MarketBook.Calendar.Handle
Purpose: The calendar in use, which can be replaced while it is in use.
Main exports:
  Calendar.Handle, Calendar.Handle.swap, Calendar.Handle.reload
-/
import MarketBook.Calendar.ProfileFile

namespace MarketBook.Calendar

open Device

/-- A holder of the calendar in use. -/
structure Handle where
  current : Calendar
deriving DecidableEq

namespace Handle

/-- Another calendar in use, and the one before it. -/
def swap (_ : Handle) (next : Calendar) : Handle :=
  ⟨next⟩

/-- A calendar that may take the place of the one in use: it is not broken. -/
def requireHealthy (tag : String) (c : Calendar) : Outcome Calendar :=
  match c.healthError with
  | some reason => misused (.unhealthyCalendar tag reason)
  | none => .ok c

/-- The holder after a reload of a profile from a file; on a fault the calendar in use stays. -/
def reload (h : Handle) (p : Place) (tag : String) : Act Handle := do
  let next ← Calendar.ofFile p tag
  return h.swap (← ofOutcome (requireHealthy tag next))

end Handle

end MarketBook.Calendar
