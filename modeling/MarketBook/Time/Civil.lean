/-
Module: MarketBook.Time.Civil
Purpose: Days counted from 1970-01-01, their place in the week, and the dates of the Gregorian
  calendar extended in both directions.
Main exports:
  Weekday, weekdayOf, CivilDate, CivilDate.ofDay, CivilDate.toDay, CivilDate.isValid
-/
import MarketBook.Text.Numeral

namespace MarketBook.Time

/-!
A day is a number: the days since 1970-01-01.  Schedules and zones need nothing else, because weeks
and days of the clock are plain arithmetic on it.  Years, months and days of the month appear only
where a date is read or written.  The conversion counts from the first of March of the year 0, so
that the day which leap years add stands last.
-/

/-- The milliseconds of a day. -/
def dayMs : Int := 86400000

/-- The milliseconds of a minute. -/
def minuteMs : Int := 60000

/-- A day of the week. -/
inductive Weekday where
  | monday
  | tuesday
  | wednesday
  | thursday
  | friday
  | saturday
  | sunday
deriving DecidableEq

/-- The place of a day in its week, counted from Monday. -/
def weekIndex (day : Int) : Int :=
  (day + 3) % 7

/-- The day of the week. -/
def weekdayOf (day : Int) : Weekday :=
  if weekIndex day = 0 then .monday
  else if weekIndex day = 1 then .tuesday
  else if weekIndex day = 2 then .wednesday
  else if weekIndex day = 3 then .thursday
  else if weekIndex day = 4 then .friday
  else if weekIndex day = 5 then .saturday
  else .sunday

/-- A date by its year, month and day of the month. -/
structure CivilDate where
  year : Int
  month : Int
  day : Int
deriving DecidableEq

namespace CivilDate

/-- Years divisible by four, except those divisible by a hundred and not by four hundred. -/
def isLeap (year : Int) : Bool :=
  year % 4 == 0 && (year % 100 != 0 || year % 400 == 0)

/-- The number of days of a month. -/
def daysInMonth (year month : Int) : Int :=
  if month == 2 then (if isLeap year then 29 else 28)
  else if month == 4 || month == 6 || month == 9 || month == 11 then 30
  else 31

/-- The date is in the calendar. -/
def isValid (d : CivilDate) : Bool :=
  1 ≤ d.month && d.month ≤ 12 && 1 ≤ d.day && d.day ≤ daysInMonth d.year d.month

/-- The day that a date names. -/
def toDay (d : CivilDate) : Int :=
  let year := if d.month ≤ 2 then d.year - 1 else d.year
  let era := year / 400
  let yearOfEra := year % 400
  let monthFromMarch := (d.month + 9) % 12
  let dayOfYear := (153 * monthFromMarch + 2) / 5 + d.day - 1
  let dayOfEra := yearOfEra * 365 + yearOfEra / 4 - yearOfEra / 100 + dayOfYear
  era * 146097 + dayOfEra - 719468

/-- The date of a day. -/
def ofDay (n : Int) : CivilDate :=
  let shifted := n + 719468
  let era := shifted / 146097
  let dayOfEra := shifted % 146097
  let yearOfEra :=
    (dayOfEra - dayOfEra / 1460 + dayOfEra / 36524 - dayOfEra / 146096) / 365
  let dayOfYear := dayOfEra - (365 * yearOfEra + yearOfEra / 4 - yearOfEra / 100)
  let monthFromMarch := (5 * dayOfYear + 2) / 153
  let day := dayOfYear - (153 * monthFromMarch + 2) / 5 + 1
  let month := if monthFromMarch < 10 then monthFromMarch + 3 else monthFromMarch - 9
  { year := yearOfEra + era * 400 + (if month ≤ 2 then 1 else 0)
    month := month
    day := day }

/-- A year of at least four digits, with its sign unless it lies from 0 to 9999. -/
def yearText (year : Int) : String :=
  let digits := Text.padded 4 year.natAbs
  if year < 0 then "-" ++ digits
  else if 9999 < year then "+" ++ digits
  else digits

/-- The date with dashes between its parts. -/
def text (d : CivilDate) : String :=
  yearText d.year ++ "-" ++ Text.padded 2 d.month.toNat ++ "-" ++ Text.padded 2 d.day.toNat

end CivilDate

/-- The time of the day as hours, minutes and seconds; smaller parts are dropped. -/
def clockText (msOfDay : Int) : String :=
  let s := (msOfDay / 1000).toNat
  Text.padded 2 (s / 3600) ++ ":" ++ Text.padded 2 (s / 60 % 60) ++ ":" ++ Text.padded 2 (s % 60)

end MarketBook.Time
