/-
Module: MarketBook.Zone.Resolve
Purpose: The zone that a name stands for, and how the name was found.
Main exports:
  Zone.Source, Zone.resolve
-/
import MarketBook.Text.Blank
import MarketBook.Text.Upper
import MarketBook.Zone.Data

namespace MarketBook.Zone

open Text

/-- How the name of a zone was found. -/
inductive Source where
  /-- The name of universal time itself. -/
  | utc
  /-- A name exactly as the zone data have it. -/
  | exact
  /-- A name of the zone data in other case. -/
  | anyCase
  /-- The name was not found. -/
  | unknown
deriving DecidableEq

/-- The label that operators see. -/
def Source.label : Source → String
  | .utc => "utc"
  | .exact => "zoneinfo"
  | .anyCase => "dateutil"
  | .unknown => "unknown"

/-- The zone of a name without white space around it. -/
def find? (name : String) : Option (Zone × Source) :=
  if lowerAscii name == "utc" || name == "Etc/UTC" then some (utc, .utc)
  else match known.find? (·.name == name) with
    | some z => some (z, .exact)
    | none =>
      (known.find? fun z => lowerAscii z.name == lowerAscii name).map fun z => (z, .anyCase)

/-- A name that stands for no zone. -/
structure UnknownZone where
  name : String
deriving DecidableEq

/-- The wording of an unknown zone. -/
def UnknownZone.message (u : UnknownZone) : String :=
  s!"tz does not resolve: {u.name}: failed to parse timezone"

/-- The zone of a name: universal time first, then the exact name, then the name in any case. -/
def resolve (raw : String) : Except UnknownZone (Zone × Source) :=
  match find? (trim raw) with
  | some found => .ok found
  | none => .error ⟨trim raw⟩

end MarketBook.Zone
