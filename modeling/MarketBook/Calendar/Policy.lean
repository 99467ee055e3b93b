/-
Module: MarketBook.Calendar.Policy
Purpose: How far ahead the closed windows of a calendar have to be kept.
Main exports:
  Policy, Policy.ofJson?, Policy.require
-/
import MarketBook.Calendar.Closure
import MarketBook.Json.Record
import MarketBook.Time.Civil

namespace MarketBook

open Time

/-- What a profile promises about its closed windows. -/
structure Policy where
  /-- The look-ahead is enforced. -/
  isRequired : Bool
  /-- The stop of the last window. -/
  coverageEnd : Int
  /-- The least number of windows. -/
  leastIntervals : Nat
  /-- The days of look-ahead. -/
  futureDays : Nat
deriving DecidableEq

namespace Policy

/-- The fields of a policy; it has no others. -/
def shape : Json.Shape :=
  ⟨[["required"], ["coverage_end_utc"], ["min_intervals"], ["min_future_days"]], true⟩

/-- A policy from JSON. -/
def ofJson? (j : Json) : Option Policy := do
  match ← shape.fields? j with
  | [isRequired, coverageEnd, leastIntervals, futureDays] =>
    return {
      isRequired := ← Json.required? Json.asBool? isRequired
      coverageEnd := ← Json.required? Json.asInt64? coverageEnd
      leastIntervals := ← Json.required? (Json.asNatBelow? Text.limit32) leastIntervals
      futureDays := ← Json.required? (Json.asNatBelow? Text.limit32) futureDays }
  | _ => none

/-- A policy as a JSON object. -/
def toJson (p : Policy) : Json :=
  .obj [
    ("required", .bool p.isRequired),
    ("coverage_end_utc", .int p.coverageEnd),
    ("min_intervals", .ofNat p.leastIntervals),
    ("min_future_days", .ofNat p.futureDays)]

/-- The stop of the window that stops last, zero if there is none. -/
def lastStop : List Closure → Int
  | [] => 0
  | c :: r => r.foldl (fun m d => max m d.stop) c.stop

/-- The closed windows of a profile keep the policy at an instant. -/
def require (p : Policy) (tag : String) (closures : List Closure) (now : Int) : Outcome Unit :=
  if p.leastIntervals = 0 then misused (.noLeastIntervals tag)
  else if closures.length < p.leastIntervals then
    misused (.tooFewIntervals tag closures.length p.leastIntervals)
  else if lastStop closures ≠ p.coverageEnd then
    misused (.coverageMismatch tag p.coverageEnd (lastStop closures))
  else if p.isRequired ∧ p.coverageEnd < now + Int.ofNat p.futureDays * dayMs then
    misused (.coverageTooShort tag p.futureDays)
  else .ok ()

end Policy

end MarketBook
