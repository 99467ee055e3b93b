/-
Module: MarketBook.Calendar.Profile
Purpose: Named descriptions of calendars: read from a JSON list in present or older form, and written
  in the present one.
Main exports:
  Profile, Profile.readAll, Profile.find, Profile.requirePolicy, Profile.writeAll
-/
import MarketBook.Calendar.ClockTime
import MarketBook.Calendar.Policy
import MarketBook.Json.Printer
import MarketBook.Json.Reader
import MarketBook.Text.Blank

namespace MarketBook

/-!
A profile says everything about one calendar: its zone, when the week opens and closes, the break of
every day from Monday to Thursday, and the closed windows.  Older files have other names for some
fields and give the break by its start and end.  One malformed profile fails the whole list, so a
calendar is never built from half a file.
-/

/-- One profile. -/
structure Profile where
  tag : String
  zoneName : String
  weeklyOpen : String
  weeklyClose : String
  breakStart : String
  breakMinutes : Int
  closures : List Closure
  policy : Option Policy
deriving DecidableEq

namespace Profile

/-- The break of a day by its start and end, as older files give it. -/
structure BreakSpan where
  start : String
  stop : String

/-- A profile as its fields have it, before they are checked. -/
structure Draft where
  tag : String
  zoneName : String
  weeklyOpen : String
  weeklyClose : String
  breakStart : Option String
  breakMinutes : Option Int
  breakSpan : Option BreakSpan
  closures : Option Json
  policy : Option Policy

/-- The fields of the break of older files. -/
def breakSpanShape : Json.Shape := ⟨[["start"], ["end"]], false⟩

/-- The break of older files from JSON. -/
def breakSpanOfJson? (j : Json) : Option BreakSpan := do
  match ← breakSpanShape.fields? j with
  | [start, stop] =>
    return ⟨← Json.required? Json.asText? start, ← Json.required? Json.asText? stop⟩
  | _ => none

/-- The fields of a profile; others are ignored. -/
def shape : Json.Shape :=
  ⟨[["calendar_tag"], ["tz_name", "recurrence_tz"], ["weekly_open", "weekly_open_local"],
    ["weekly_close", "weekly_close_local"], ["daily_break_start"], ["daily_break_minutes"],
    ["daily_break_local"], ["closed_intervals_utc"], ["holiday_policy"]], false⟩

/-- The fields of a profile from JSON. -/
def draftOfJson? (j : Json) : Option Draft := do
  match ← shape.fields? j with
  | [tag, zoneName, weeklyOpen, weeklyClose, breakStart, breakMinutes, breakSpan, closures,
      policy] =>
    return {
      tag := ← Json.required? Json.asText? tag
      zoneName := ← Json.required? Json.asText? zoneName
      weeklyOpen := ← Json.required? Json.asText? weeklyOpen
      weeklyClose := ← Json.required? Json.asText? weeklyClose
      breakStart := ← Json.optional? Json.asText? breakStart
      breakMinutes := ← Json.optional? Json.asInt64? breakMinutes
      breakSpan := ← Json.optional? breakSpanOfJson? breakSpan
      closures := ← Json.optional? some closures
      policy := ← Json.optional? Policy.ofJson? policy }
  | _ => none

/-- The start and the length in minutes of the break that a draft gives, in one form or the other.
A break that ends before it starts goes on to the next day. -/
def breakOf (tag : String) (d : Draft) : Outcome (String × Int) :=
  match d.breakStart, d.breakMinutes, d.breakSpan with
  | some start, some minutes, _ => .ok (start, minutes)
  | none, none, some span => do
    let start ← ClockTime.read span.start
    let stop ← ClockTime.read span.stop
    return (span.start, (stop.minutes - start.minutes) % (24 * 60))
  | _, _, _ => misused (.breakNotGiven tag)

/-- The closed windows that a draft gives, in order. -/
def closuresOf (d : Draft) : Outcome (List Closure) :=
  match d.closures with
  | none => Closure.normalize []
  | some j => do Closure.normalize (← Closure.listOfJson j)

/-- A policy that asks for no windows at all is refused. -/
def requirePolicyShape (tag : String) (policy : Option Policy) : Outcome Unit :=
  match policy with
  | some p => if p.leastIntervals = 0 then misused (.noLeastIntervals tag) else .ok ()
  | none => .ok ()

/-- The profile of a draft, if every field of it is sound. -/
def ofDraft (d : Draft) : Outcome Profile := do
  let tag := Text.trim d.tag
  if tag = "" then misused .blankTag
  if Text.trim d.zoneName = "" then misused (.blankZone tag)
  let _ ← ClockTime.read d.weeklyOpen
  let _ ← ClockTime.read d.weeklyClose
  let (breakStart, breakMinutes) ← breakOf tag d
  let _ ← ClockTime.read breakStart
  if breakMinutes ≤ 0 then misused (.breakNotPositive tag)
  let closures ← closuresOf d
  requirePolicyShape tag d.policy
  return {
    tag := tag
    zoneName := Text.trim d.zoneName
    weeklyOpen := d.weeklyOpen
    weeklyClose := d.weeklyClose
    breakStart := breakStart
    breakMinutes := breakMinutes
    closures := closures
    policy := d.policy }

/-- The profile of a JSON value that stands at a place of the list. -/
def ofJson (index : Nat) (j : Json) : Outcome Profile :=
  match draftOfJson? j with
  | some d => ofDraft d
  | none => misused (.profileShape index)

/-- The profiles of the items from an index on, after those read before them. -/
def ofItems : Nat → List Profile → List Json → Outcome (List Profile)
  | _, done, [] => .ok done
  | index, done, j :: r => do
    let p ← ofJson index j
    if done.any (·.tag == p.tag) then misused (.repeatedTag p.tag)
    ofItems (index + 1) (done ++ [p]) r

/-- Every profile of a text, in the order of the text; no two have one tag. -/
def readAll (text : String) : Outcome (List Profile) :=
  match Json.read? text with
  | none => misused .profilesNotJson
  | some j =>
    match j.asItems? with
    | none => misused .profilesNotList
    | some items => ofItems 0 [] items

/-- The profile of a tag. -/
def find (tag : String) (profiles : List Profile) : Outcome Profile :=
  match profiles.find? (·.tag == tag) with
  | some p => .ok p
  | none => misused (.unknownTag tag)

/-- The profile declares a policy and keeps it at an instant. -/
def requirePolicy (p : Profile) (now : Int) : Outcome Unit :=
  match p.policy with
  | some policy => policy.require p.tag p.closures now
  | none => misused (.policyMissing p.tag)

/-- A profile as a JSON object of the present form, without a policy if it has none. -/
def toJson (p : Profile) : Json :=
  .obj ([
    ("calendar_tag", .str p.tag),
    ("tz_name", .str p.zoneName),
    ("weekly_open", .str p.weeklyOpen),
    ("weekly_close", .str p.weeklyClose),
    ("daily_break_start", .str p.breakStart),
    ("daily_break_minutes", .int p.breakMinutes),
    ("closed_intervals_utc", .arr (p.closures.map Closure.toJson))] ++
    (p.policy.map fun policy => ("holiday_policy", policy.toJson)).toList)

/-- Profiles as the text of a file. -/
def writeAll (profiles : List Profile) : String :=
  (Json.arr (profiles.map toJson)).pretty ++ "\n"

end Profile

end MarketBook
