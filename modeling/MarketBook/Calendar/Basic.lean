/-
Module: MarketBook.Calendar.Basic
Purpose: The trading calendar of one market: its zone, its weekly schedule and its closed windows,
  together with whatever was wrong with its description.
Main exports:
  Calendar, Calendar.Settings, Calendar.build, Calendar.ofProfile, Calendar.healthError
-/
import MarketBook.Calendar.Profile
import MarketBook.Zone.Resolve

namespace MarketBook

/-!
Building a calendar never fails.  A description that cannot be used leaves its defects in the
calendar, and every later question to a defective calendar gets a harmless answer.
-/

/-- A part of a description that cannot be used. -/
inductive Defect where
  | zone (cause : Zone.UnknownZone)
  | clock (field : String) (cause : Fault)
  | breakMinutes (minutes : Int)
  | closures (cause : Fault)
deriving DecidableEq

/-- The wording of a defect. -/
def Defect.message : Defect → String
  | .zone cause => cause.message
  | .clock field cause => field ++ ": " ++ cause.message
  | .breakMinutes minutes => s!"daily_break_minutes must be > 0, got {minutes}"
  | .closures cause => "closed_intervals_utc: " ++ cause.message

/-- A trading calendar. -/
structure Calendar where
  tag : String
  zoneName : String
  zone : Zone
  source : Zone.Source
  weeklyOpen : ClockTime
  weeklyClose : ClockTime
  breakStart : ClockTime
  breakMinutes : Int
  closures : List Closure
  defects : List Defect
deriving DecidableEq

namespace Calendar

/-- The description of a schedule. -/
structure Settings where
  zoneName : String
  weeklyOpen : String
  weeklyClose : String
  breakStart : String
  breakMinutes : Int
deriving DecidableEq

/-- The schedule of the currency market: from Sunday to Friday at five in the afternoon in New York,
with a break of five minutes a day. -/
def Settings.standard : Settings :=
  ⟨"America/New_York", "17:00", "17:00", "17:00", 5⟩

/-- The schedule that a profile describes. -/
def Settings.ofProfile (p : Profile) : Settings :=
  ⟨p.zoneName, p.weeklyOpen, p.weeklyClose, p.breakStart, p.breakMinutes⟩

/-- A clock time and the defect that its text leaves, midnight standing in for a time that cannot be
read. -/
def clockOf (field raw : String) : ClockTime × List Defect :=
  match ClockTime.read raw with
  | .ok t => (t, [])
  | .error cause => (.midnight, [.clock field cause])

/-- A zone and the defect that its name leaves, universal time standing in for an unknown zone. -/
def zoneOf (raw : String) : (Zone × Zone.Source) × List Defect :=
  match Zone.resolve raw with
  | .ok found => (found, [])
  | .error cause => ((Zone.utc, .unknown), [.zone cause])

/-- The closed windows in order and the defect that they leave; a list that cannot be used closes
nothing. -/
def closuresOf (windows : List Closure) : List Closure × List Defect :=
  match Closure.normalize (Closure.distinct windows) with
  | .ok closures => (closures, [])
  | .error cause => ([], [.closures cause])

/-- The defect of a break without length. -/
def breakDefects (minutes : Int) : List Defect :=
  if minutes ≤ 0 then [.breakMinutes minutes] else []

/-- The calendar of a schedule and its closed windows, repeated windows counted once. -/
def build (tag : String) (s : Settings) (windows : List Closure) : Calendar :=
  let zone := zoneOf s.zoneName
  let weeklyOpen := clockOf "weekly_open" s.weeklyOpen
  let weeklyClose := clockOf "weekly_close" s.weeklyClose
  let breakStart := clockOf "daily_break_start" s.breakStart
  let closures := closuresOf windows
  { tag := tag
    zoneName := s.zoneName
    zone := zone.1.1
    source := zone.1.2
    weeklyOpen := weeklyOpen.1
    weeklyClose := weeklyClose.1
    breakStart := breakStart.1
    breakMinutes := max s.breakMinutes 0
    closures := closures.1
    defects := zone.2 ++ weeklyOpen.2 ++ weeklyClose.2 ++ breakStart.2 ++
      breakDefects s.breakMinutes ++ closures.2 }

/-- A calendar with windows of its own.  A profile takes the place of tag and schedule, and adds its
windows behind the others. -/
def create (windows : List Closure) (tag : String) (s : Settings) (profile : Option Profile) :
    Calendar :=
  match profile with
  | some p => build p.tag (.ofProfile p) (windows ++ p.closures)
  | none => build tag s windows

/-- The calendar that a profile describes. -/
def ofProfile (p : Profile) : Calendar :=
  create [] p.tag .standard (some p)

/-- The description could not be used. -/
def isBroken (c : Calendar) : Bool :=
  !c.defects.isEmpty

/-- What is wrong with the description, if anything is. -/
def healthError (c : Calendar) : Option String :=
  if c.isBroken then some (String.intercalate "; " (c.defects.map Defect.message)) else none

end Calendar

end MarketBook
