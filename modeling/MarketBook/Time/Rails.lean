/-
Module: MarketBook.Time.Rails
Purpose: The range in which a time stamp is plausible as milliseconds since 1970.
Main exports:
  onRails, requireRails, requireRailsJson
-/
import MarketBook.Fault
import MarketBook.Json.Basic

namespace MarketBook.Time

/-!
Thirteen digits: a number of seconds is too small and a number of microseconds too large, so both
mistakes are caught by magnitude alone.
-/

/-- The least plausible time stamp, in the year 2001. -/
def firstOnRails : Int := 1000000000000

/-- The greatest plausible time stamp, in the year 2286. -/
def lastOnRails : Int := 9999999999999

/-- The time stamp is plausible. -/
def onRails (ts : Int) : Bool :=
  firstOnRails ≤ ts && ts ≤ lastOnRails

/-- The time stamp, if it is plausible. -/
def requireRails (field : String) (ts : Int) : Outcome Int :=
  if ts < firstOnRails then violated (.timeTooSmall field ts)
  else if lastOnRails < ts then violated (.timeTooLarge field ts)
  else .ok ts

/-- The time stamp that a JSON value holds: an integer, and no other kind of value. -/
def requireRailsJson (field : String) : Json → Outcome Int
  | .int n =>
    if Text.isSigned64 n then requireRails field n else violated (.timeBeyondRange field)
  | .float _ => violated (.timeIsFloat field)
  | .bool _ => violated (.timeIsBool field)
  | _ => violated (.timeIsNoNumber field)

theorem onRails_iff {ts : Int} : onRails ts = true ↔ firstOnRails ≤ ts ∧ ts ≤ lastOnRails := by
  simp [onRails]

theorem requireRails_eq_ok {field : String} {ts r : Int} :
    requireRails field ts = .ok r ↔ r = ts ∧ onRails ts = true := by
  unfold requireRails onRails violated
  simp only [Bool.and_eq_true, decide_eq_true_eq]
  split
  · simp only [reduceCtorEq, false_iff]; omega
  · split
    · simp only [reduceCtorEq, false_iff]; omega
    · simp only [Except.ok.injEq]; constructor
      · intro h; exact ⟨h.symm, by omega, by omega⟩
      · rintro ⟨rfl, -⟩; rfl

end MarketBook.Time
