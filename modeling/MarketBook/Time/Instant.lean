/-
Module: MarketBook.Time.Instant
Purpose: Instants in milliseconds of UTC: which of them have a date, and how that is written.
Main exports:
  hasDate, hasDate_between, isoText
-/
import MarketBook.Time.Civil

namespace MarketBook.Time

/-- The first instant that has a date. -/
def firstDated : Int := -8334601228800000

/-- The last instant that has a date. -/
def lastDated : Int := 8210266876799999

/-- The instant has a date. -/
def hasDate (ts : Int) : Bool :=
  firstDated ≤ ts && ts ≤ lastDated

theorem hasDate_iff {ts : Int} : hasDate ts = true ↔ firstDated ≤ ts ∧ ts ≤ lastDated := by
  simp [hasDate]

theorem hasDate_between {lower upper ts : Int} (lowerDated : hasDate lower = true)
    (upperDated : hasDate upper = true) (above : lower ≤ ts) (below : ts ≤ upper) :
    hasDate ts = true := by
  rw [hasDate_iff] at *
  omega

/-- Date and time of an instant in UTC to the second.  An instant without a date is written as the
first of 1970. -/
def isoText (ts : Int) : String :=
  let shown := if hasDate ts then ts else 0
  (CivilDate.ofDay (shown / dayMs)).text ++ "T" ++ clockText (shown % dayMs) ++ "Z"

end MarketBook.Time
