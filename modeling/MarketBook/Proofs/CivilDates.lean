/-
Module: MarketBook.Proofs.CivilDates
Purpose: Dates and days name each other: the count of days follows the calendar from one date to the
  next, and every day is the day of one date.
Main exports:
  CivilDate.isValid_iff, CivilDate.next, CivilDate.toDay_next, CivilDate.toDay_ofDay,
  CivilDate.ofDay_isValid, CivilDate.ofDay_toDay
-/
import Mathlib.Tactic.IntervalCases
import Mathlib.Tactic.SplitIfs
import MarketBook.Time.Civil

namespace MarketBook.Time.CivilDate

/-!
Years are counted from March here, so that the day which a leap year adds is the last of its year.
A day is then an era of four hundred years, a year of the era and a day of the year, and a date is
such a year with a month from March and a day of the month.  Both directions are taken to these
numbers, each level by itself: the year of an era first, then the month of a year.
-/

theorem isLeap_iff {year : Int} :
    isLeap year = true ↔ year % 4 = 0 ∧ (year % 100 ≠ 0 ∨ year % 400 = 0) := by
  simp [isLeap]

theorem isValid_iff {d : CivilDate} :
    d.isValid = true ↔
      1 ≤ d.month ∧ d.month ≤ 12 ∧ 1 ≤ d.day ∧ d.day ≤ daysInMonth d.year d.month := by
  simp [isValid, and_assoc]

/-- The date after a date. -/
def next (d : CivilDate) : CivilDate :=
  if d.day < daysInMonth d.year d.month then ⟨d.year, d.month, d.day + 1⟩
  else if d.month < 12 then ⟨d.year, d.month + 1, 1⟩
  else ⟨d.year + 1, 1, 1⟩

/-! ### The years of an era -/

/-- The days of an era before a day of a year. -/
def dayOfEra (year day : Int) : Int :=
  365 * year + year / 4 - year / 100 + day

/-- A year of an era and a day of that year; only a leap year has the last of the days. -/
structure InEra (year day : Int) : Prop where
  yearBounds : 0 ≤ year ∧ year ≤ 399
  dayBounds : 0 ≤ day ∧ day ≤ 365
  leap : day = 365 → isLeap (year + 1) = true

variable {year day month n : Int}

theorem dayOfEra_bounds (inEra : InEra year day) :
    0 ≤ dayOfEra year day ∧ dayOfEra year day ≤ 146096 := by
  obtain ⟨yearBounds, dayBounds, -⟩ := inEra
  unfold dayOfEra
  omega

/-- The days of an era tell its century: the last one is the only day too many. -/
theorem century_eq (inEra : InEra year day) :
    dayOfEra year day / 36524 - dayOfEra year day / 146096 = year / 100 := by
  obtain ⟨yearBounds, dayBounds, leap⟩ := inEra
  rw [isLeap_iff] at leap
  have parts : dayOfEra year day =
      36524 * (year / 100) + (365 * (year % 100) + year % 100 / 4 + day) := by
    unfold dayOfEra
    omega
  have rest : 365 * (year % 100) + year % 100 / 4 + day < 36524 ∨
      year = 399 ∧ 365 * (year % 100) + year % 100 / 4 + day = 36524 := by omega
  rw [parts]
  rcases rest with within | ⟨rfl, whole⟩
  · have positive : 0 ≤ 365 * (year % 100) + year % 100 / 4 + day := by omega
    omega
  · rw [whole]
    decide

/-- With the days of the leap years taken out, every year has 365 days. -/
theorem yearOfEra_eq (inEra : InEra year day) :
    (dayOfEra year day - dayOfEra year day / 1460 + dayOfEra year day / 36524 -
      dayOfEra year day / 146096) / 365 = year := by
  have century := century_eq inEra
  obtain ⟨yearBounds, dayBounds, leap⟩ := inEra
  rw [isLeap_iff] at leap
  -- What four years have beyond 1460 days adds up to less than one more span of 1460 days.
  obtain ⟨more, rest⟩ : ∃ more, more = year / 4 - year / 100 + 365 * (year % 4) + day := ⟨_, rfl⟩
  have parts : dayOfEra year day = 1460 * (year / 4) + more := by
    unfold dayOfEra
    omega
  have spans : dayOfEra year day / 1460 = year / 4 + more / 1460 := by omega
  have carry : more / 1460 = if more < 1460 then 0 else 1 := by
    split <;> omega
  rw [carry] at spans
  split at spans <;> omega

/-- Every day of an era is a day of one of its years. -/
theorem exists_inEra (h : 0 ≤ n ∧ n ≤ 146096) : ∃ year day, InEra year day ∧ n = dayOfEra year day := by
  -- The last day of an era, of a span of four years and of a leap year goes to the span before it.
  obtain ⟨century, inCentury, first, rest⟩ : ∃ century inCentury : Int,
      n = 36524 * century + inCentury ∧ 0 ≤ century ∧ century ≤ 3 ∧ 0 ≤ inCentury ∧
        inCentury ≤ 36524 ∧ (inCentury = 36524 → century = 3) :=
    ⟨min (n / 36524) 3, n - 36524 * min (n / 36524) 3, by omega, by omega⟩
  obtain ⟨span, inSpan, second, rest'⟩ : ∃ span inSpan : Int,
      inCentury = 1461 * span + inSpan ∧ 0 ≤ span ∧ span ≤ 24 ∧ 0 ≤ inSpan ∧ inSpan ≤ 1460 :=
    ⟨inCentury / 1461, inCentury % 1461, by omega, by omega⟩
  obtain ⟨one, day, third, rest''⟩ : ∃ one day : Int,
      inSpan = 365 * one + day ∧ 0 ≤ one ∧ one ≤ 3 ∧ 0 ≤ day ∧ day ≤ 365 ∧ (day = 365 → one = 3) :=
    ⟨min (inSpan / 365) 3, inSpan - 365 * min (inSpan / 365) 3, by omega, by omega⟩
  have spans : (100 * century + 4 * span + one) / 4 = 25 * century + span := by omega
  have centuries : (100 * century + 4 * span + one) / 100 = century := by omega
  refine ⟨100 * century + 4 * span + one, day, ⟨by omega, by omega, fun last => ?_⟩, ?_⟩
  · rw [isLeap_iff]
    omega
  · rw [dayOfEra, spans, centuries]
    omega

/-! ### The months of a year -/

/-- The date of a day of a month, the years and months counted from March. -/
def fromMarch (year month day : Int) : CivilDate :=
  if month < 10 then ⟨year, month + 3, day⟩ else ⟨year + 1, month - 9, day⟩

/-- The days of a year from March before a day of a month. -/
def dayOfYear (month day : Int) : Int :=
  (153 * month + 2) / 5 + day - 1

/-- The month of a day of a year. -/
def monthOfDay (day : Int) : Int :=
  (5 * day + 2) / 153

theorem exists_fromMarch {d : CivilDate} (valid : d.isValid = true) :
    ∃ year month, 0 ≤ month ∧ month ≤ 11 ∧ d = fromMarch year month d.day := by
  obtain ⟨year, month, day⟩ := d
  obtain ⟨early, late, -⟩ := isValid_iff.1 valid
  simp only at early late
  unfold fromMarch
  by_cases january : month ≤ 2
  · refine ⟨year - 1, month + 9, by omega, by omega, ?_⟩
    rw [if_neg (by omega)]
    simp
  · refine ⟨year, month - 3, by omega, by omega, ?_⟩
    rw [if_pos (by omega)]
    simp

/-- A date is in the calendar exactly if its day of the year belongs to its month, and to its
year. -/
theorem fromMarch_isValid (early : 0 ≤ month) (late : month ≤ 11) :
    (fromMarch year month day).isValid = true ↔
      monthOfDay (dayOfYear month day) = month ∧ dayOfYear month day ≤ 365 ∧
        (dayOfYear month day = 365 → isLeap (year + 1) = true) := by
  rw [isValid_iff]
  unfold monthOfDay dayOfYear fromMarch daysInMonth
  cases leap : isLeap (year + 1) <;> interval_cases month <;> simp [leap] <;> omega

/-- The count of days, level by level. -/
theorem toDay_fromMarch (early : 0 ≤ month) (late : month ≤ 11) :
    (fromMarch year month day).toDay =
      year / 400 * 146097 + dayOfEra (year % 400) (dayOfYear month day) - 719468 := by
  unfold fromMarch
  split
  case isTrue =>
    have march : ¬ month + 3 ≤ 2 := by omega
    have back : (month + 3 + 9) % 12 = month := by omega
    simp only [toDay, march, if_false, back, dayOfEra, dayOfYear]
    omega
  case isFalse =>
    have january : month - 9 ≤ 2 := by omega
    have back : (month - 9 + 9) % 12 = month := by omega
    simp only [toDay, january, if_true, back, dayOfEra, dayOfYear, Int.add_sub_cancel]
    omega

/-- The date of a day, level by level. -/
theorem ofDay_dayOfEra {era : Int} (inEra : InEra year day) :
    ofDay (era * 146097 + dayOfEra year day - 719468) =
      fromMarch (year + era * 400) (monthOfDay day)
        (day - (153 * monthOfDay day + 2) / 5 + 1) := by
  have bounds := dayOfEra_bounds inEra
  have yearOfEra := yearOfEra_eq inEra
  have eraBack : (era * 146097 + dayOfEra year day - 719468 + 719468) / 146097 = era := by omega
  have dayBack : (era * 146097 + dayOfEra year day - 719468 + 719468) % 146097 =
      dayOfEra year day := by omega
  have dayLeft : dayOfEra year day - (365 * year + year / 4 - year / 100) = day := by
    unfold dayOfEra
    omega
  simp only [ofDay, eraBack, dayBack, yearOfEra, dayLeft]
  rw [← monthOfDay]
  unfold fromMarch
  split
  case isTrue =>
    have march : ¬ monthOfDay day + 3 ≤ 2 := by
      unfold monthOfDay
      have := inEra.dayBounds
      omega
    simp [march]
  case isFalse =>
    have january : monthOfDay day - 9 ≤ 2 := by
      unfold monthOfDay
      have := inEra.dayBounds
      omega
    simp [january]

/-- The date after a date is the next day of its month, the first of the next month, or, behind the
last day of the year, the first of March. -/
theorem next_fromMarch (early : 0 ≤ month) (late : month ≤ 11)
    (valid : (fromMarch year month day).isValid = true) :
    (fromMarch year month day).next = fromMarch year month (day + 1) ∨
    ((fromMarch year month day).next = fromMarch year (month + 1) 1 ∧ month < 11 ∧
      dayOfYear (month + 1) 1 = dayOfYear month day + 1) ∨
    ((fromMarch year month day).next = fromMarch (year + 1) 0 1 ∧
      dayOfYear month day = if isLeap (year + 1) = true then 365 else 364) := by
  rw [isValid_iff] at valid
  unfold dayOfYear next
  unfold fromMarch daysInMonth at *
  -- The lengths of the twelve months, by the table.
  cases leap : isLeap (year + 1) <;> interval_cases month <;> simp [leap] at valid ⊢ <;> omega

/-! ### Dates and days -/

theorem inEra_of_isValid (early : 0 ≤ month) (late : month ≤ 11)
    (valid : (fromMarch year month day).isValid = true) :
    InEra (year % 400) (dayOfYear month day) := by
  obtain ⟨own, most, leap⟩ := (fromMarch_isValid early late).1 valid
  refine ⟨by omega, ⟨?_, most⟩, fun last => ?_⟩
  · unfold monthOfDay at own
    omega
  · have := leap last
    rw [isLeap_iff] at this ⊢
    omega

/-- A date is the date of its day. -/
theorem ofDay_toDay {d : CivilDate} (valid : d.isValid = true) : ofDay d.toDay = d := by
  obtain ⟨year, month, early, late, same⟩ := exists_fromMarch valid
  rw [same] at valid ⊢
  rw [toDay_fromMarch early late, ofDay_dayOfEra (inEra_of_isValid early late valid),
    ((fromMarch_isValid early late).1 valid).1]
  congr 1
  · omega
  · unfold dayOfYear
    omega

/-- Every day is given by an era, a year of it and a day of the year. -/
theorem exists_dayOfEra (n : Int) :
    ∃ era year day, InEra year day ∧ n = era * 146097 + dayOfEra year day - 719468 := by
  have bounds : 0 ≤ (n + 719468) % 146097 ∧ (n + 719468) % 146097 ≤ 146096 := by omega
  obtain ⟨year, day, inEra, same⟩ := exists_inEra bounds
  exact ⟨(n + 719468) / 146097, year, day, inEra, by omega⟩

/-- The month of a day of a year is one of twelve, and the day of the month leads back. -/
theorem monthOfDay_spec (bounds : 0 ≤ day ∧ day ≤ 365) :
    0 ≤ monthOfDay day ∧ monthOfDay day ≤ 11 ∧
      dayOfYear (monthOfDay day) (day - (153 * monthOfDay day + 2) / 5 + 1) = day := by
  unfold dayOfYear monthOfDay
  omega

/-- The date of a day is in the calendar. -/
theorem ofDay_isValid (n : Int) : (ofDay n).isValid = true := by
  obtain ⟨era, year, day, inEra, rfl⟩ := exists_dayOfEra n
  obtain ⟨early, late, back⟩ := monthOfDay_spec inEra.dayBounds
  rw [ofDay_dayOfEra inEra, fromMarch_isValid early late, back]
  refine ⟨rfl, inEra.dayBounds.2, fun last => ?_⟩
  have := inEra.leap last
  rw [isLeap_iff] at this ⊢
  omega

/-- A day is the day of its date. -/
theorem toDay_ofDay (n : Int) : (ofDay n).toDay = n := by
  obtain ⟨era, year, day, inEra, rfl⟩ := exists_dayOfEra n
  obtain ⟨early, late, back⟩ := monthOfDay_spec inEra.dayBounds
  have yearBounds := inEra.yearBounds
  have eraBack : (year + era * 400) / 400 = era := by omega
  have yearBack : (year + era * 400) % 400 = year := by omega
  rw [ofDay_dayOfEra inEra, toDay_fromMarch early late, back, eraBack, yearBack]

/-- The count of days goes up by one from a date to the next, over the ends of months and years as
well. -/
theorem toDay_next {d : CivilDate} (valid : d.isValid = true) : d.next.toDay = d.toDay + 1 := by
  obtain ⟨year, month, early, late, same⟩ := exists_fromMarch valid
  generalize d.day = day at same
  subst same
  rcases next_fromMarch early late valid with same | ⟨same, before, behind⟩ | ⟨same, last⟩
  · rw [same, toDay_fromMarch early late, toDay_fromMarch early late]
    unfold dayOfEra dayOfYear
    omega
  · rw [same, toDay_fromMarch (by omega) (by omega), toDay_fromMarch early late, behind]
    unfold dayOfEra
    omega
  · have march : dayOfYear 0 1 = 0 := rfl
    rw [same, toDay_fromMarch le_rfl (by decide), toDay_fromMarch early late, march, last]
    unfold dayOfEra
    split
    case isTrue long =>
      rw [isLeap_iff] at long
      omega
    case isFalse short =>
      rw [isLeap_iff] at short
      omega

/-- The count starts with 1970. -/
example : toDay ⟨1970, 1, 1⟩ = 0 := by decide

end MarketBook.Time.CivilDate
