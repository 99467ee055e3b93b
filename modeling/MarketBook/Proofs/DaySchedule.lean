/-
Module: MarketBook.Proofs.DaySchedule
Purpose: The open parts of a local day, as instants, are exactly what the weekly schedule says in
  words.
Main exports:
  Calendar.holds_tradingSpans_iff, Calendar.WeeklySchedule, Calendar.inTimetable_iff_schedule,
  Calendar.closed_on_last_date, Calendar.isOpen_iff_schedule
-/
import Mathlib.Tactic.Tauto
import MarketBook.Proofs.Timetable

namespace MarketBook

open Time Zone

/-!
The open parts of a day are built in wall time, cut by the break of the day before, converted, and
freed of empty parts.  None of the filters matters for the instants that a part holds: conversion
keeps the order, so an instant lies in a converted part only if the part was not empty before.  What
is left are comparisons with the first instants of a few wall times.
-/

namespace Calendar

variable {c : Calendar} {day ts : Int}

/-! ### Instants of a day -/

/-- An instant lies in an open part of the day exactly if it lies in one of the parts by the day's
own rules and the break of the day before is over. -/
theorem holds_tradingSpans_iff (gentle : c.zone.Gentle) :
    (∃ s ∈ c.tradingSpans day, s.holds ts = true) ↔
      (∃ w ∈ c.ruleWalls day, (c.instantsOf w).holds ts = true) ∧
        ∀ x, c.spillStop? day = some x → c.zone.firstAt x ≤ ts := by
  have cut : ∀ w : Span, (c.instantsOf (Span.after (c.spillStop? day) w)).holds ts = true ↔
      (c.instantsOf w).holds ts = true ∧ ∀ x, c.spillStop? day = some x → c.zone.firstAt x ≤ ts := by
    intro w
    cases c.spillStop? day with
    | none => simp [Span.after]
    | some x =>
        simp only [Span.after, Span.holds_iff, instantsOf, gentle.firstAt_max, Option.some.injEq,
          forall_eq', max_le_iff]
        tauto
  constructor
  · rintro ⟨s, hs, holds⟩
    obtain ⟨w, hw, rfl⟩ := List.mem_map.1 (List.mem_filter.1 hs).1
    obtain ⟨own, hown, rfl⟩ := List.mem_map.1 (List.mem_filter.1 hw).1
    exact ⟨⟨own, hown, ((cut own).1 holds).1⟩, ((cut own).1 holds).2⟩
  · rintro ⟨⟨own, hown, holds⟩, ended⟩
    have cutHolds := (cut own).2 ⟨holds, ended⟩
    have bounds := Span.holds_iff.1 cutHolds
    have proper : c.zone.firstAt (Span.after (c.spillStop? day) own).start <
        c.zone.firstAt (Span.after (c.spillStop? day) own).stop := lt_of_le_of_lt bounds.1 bounds.2
    refine ⟨_, ?_, cutHolds⟩
    refine List.mem_filter.2 ⟨List.mem_map_of_mem (List.mem_filter.2 ⟨List.mem_map_of_mem hown, ?_⟩),
      Span.isProper_iff.2 proper⟩
    exact Span.isProper_iff.2 (gentle.lt_of_firstAt_lt proper)

/-- On its own date an instant has passed every wall time up to midnight. -/
theorem firstAt_le_of_le_midnight (steady : c.zone.Steady) {wall : Int}
    (h : wall ≤ c.zone.dayAt ts * dayMs) : c.zone.firstAt wall ≤ ts :=
  (steady.firstAt_mono h).trans (steady.midnight_le_iff.2 le_rfl)

/-- On its own date an instant lies before every wall time from the next midnight on. -/
theorem lt_firstAt_of_midnight_le (steady : c.zone.Steady) {wall : Int}
    (h : (c.zone.dayAt ts + 1) * dayMs ≤ wall) : ts < c.zone.firstAt wall :=
  lt_of_lt_of_le (steady.lt_midnight_iff.2 (Int.lt_succ _)) (steady.firstAt_mono h)

/-! ### The days of the week -/

theorem weekIndex_bounds (day : Int) : 0 ≤ weekIndex day ∧ weekIndex day < 7 := by
  simp only [weekIndex]
  omega

theorem weekdayOf_eq_saturday : weekdayOf day = .saturday ↔ weekIndex day = 5 := by
  have := weekIndex_bounds day
  simp only [weekdayOf]
  split_ifs <;> simp <;> omega

theorem hasBreak_iff : hasBreak day = true ↔ weekIndex day ≤ 3 := by
  have := weekIndex_bounds day
  simp only [hasBreak, weekdayOf]
  split_ifs <;> simp <;> omega

/-- The open parts of a day by its own rules, as conditions on an instant of that day. -/
theorem ruleWalls_hold_iff (steady : c.zone.Steady) :
    (∃ w ∈ c.ruleWalls (c.zone.dayAt ts), (c.instantsOf w).holds ts = true) ↔
      weekdayOf (c.zone.dayAt ts) ≠ .saturday ∧
      (weekdayOf (c.zone.dayAt ts) = .sunday →
        c.zone.firstAt (wallOf (c.zone.dayAt ts) c.weeklyOpen) ≤ ts) ∧
      (weekdayOf (c.zone.dayAt ts) = .friday →
        ts < c.zone.firstAt (wallOf (c.zone.dayAt ts) c.weeklyClose)) ∧
      (hasBreak (c.zone.dayAt ts) = true →
        ¬ (c.zone.firstAt (c.breakFrom (c.zone.dayAt ts)) ≤ ts ∧
          ts < c.zone.firstAt (c.breakStop (c.zone.dayAt ts)))) := by
  have begun : c.zone.firstAt (c.zone.dayAt ts * dayMs) ≤ ts :=
    firstAt_le_of_le_midnight steady le_rfl
  have notOver : ts < c.zone.firstAt ((c.zone.dayAt ts + 1) * dayMs) :=
    lt_firstAt_of_midnight_le steady le_rfl
  cases weekday : weekdayOf (c.zone.dayAt ts) with
  | saturday => simp [ruleWalls, weekday]
  | sunday => simp [ruleWalls, weekday, hasBreak, Span.holds_iff, instantsOf, notOver]
  | friday => simp [ruleWalls, weekday, hasBreak, Span.holds_iff, instantsOf, begun]
  | monday | tuesday | wednesday | thursday =>
      simp [ruleWalls, weekday, hasBreak, Span.holds_iff, instantsOf, begun, notOver]
      omega

/-! ### The breaks that reach a day -/

/-- The weekly schedule in words: open from Sunday's open to Friday's close, except in the breaks
that start from Monday to Thursday. -/
structure WeeklySchedule (c : Calendar) (ts : Int) : Prop where
  notSaturday : weekdayOf (c.zone.dayAt ts) ≠ .saturday
  opened : weekdayOf (c.zone.dayAt ts) = .sunday →
    c.zone.firstAt (wallOf (c.zone.dayAt ts) c.weeklyOpen) ≤ ts
  notClosed : weekdayOf (c.zone.dayAt ts) = .friday →
    ts < c.zone.firstAt (wallOf (c.zone.dayAt ts) c.weeklyClose)
  noBreak : ∀ day, hasBreak day = true →
    ¬ (c.zone.firstAt (c.breakFrom day) ≤ ts ∧ ts < c.zone.firstAt (c.breakStop day))

/-- The break of the day before has begun long ago, and it is over exactly when what it leaves
closed of the day is. -/
theorem spill_over_iff (formed : c.WellFormed) (steady : c.zone.Steady) :
    (∀ x, c.spillStop? (c.zone.dayAt ts) = some x → c.zone.firstAt x ≤ ts) ↔
      (hasBreak (c.zone.dayAt ts - 1) = true →
        ¬ (c.zone.firstAt (c.breakFrom (c.zone.dayAt ts - 1)) ≤ ts ∧
          ts < c.zone.firstAt (c.breakStop (c.zone.dayAt ts - 1)))) := by
  have startMidnight := wallOf_lt_midnight formed.breakStart (c.zone.dayAt ts - 1)
  have begun : c.zone.firstAt (c.breakFrom (c.zone.dayAt ts - 1)) ≤ ts :=
    firstAt_le_of_le_midnight steady (by simp only [breakFrom]; linarith)
  simp only [begun, true_and, not_lt, spillStop?]
  by_cases spills : c.zone.dayAt ts * dayMs < c.breakStop (c.zone.dayAt ts - 1)
  · by_cases broken : hasBreak (c.zone.dayAt ts - 1) = true <;> simp [spills, broken]
  · have ended : c.zone.firstAt (c.breakStop (c.zone.dayAt ts - 1)) ≤ ts :=
      firstAt_le_of_le_midnight steady (not_lt.1 spills)
    simp [spills, ended]

/-- A break of two days at most that reaches a day from further back is covered by the break of the
day before, unless the day is a Saturday. -/
theorem noBreak_iff (formed : c.WellFormed) (steady : c.zone.Steady) (short : c.breakMinutes ≤ 2880)
    (notSaturday : weekdayOf (c.zone.dayAt ts) ≠ .saturday) :
    (∀ day, hasBreak day = true →
      ¬ (c.zone.firstAt (c.breakFrom day) ≤ ts ∧ ts < c.zone.firstAt (c.breakStop day))) ↔
      (hasBreak (c.zone.dayAt ts) = true →
        ¬ (c.zone.firstAt (c.breakFrom (c.zone.dayAt ts)) ≤ ts ∧
          ts < c.zone.firstAt (c.breakStop (c.zone.dayAt ts)))) ∧
      (hasBreak (c.zone.dayAt ts - 1) = true →
        ¬ (c.zone.firstAt (c.breakFrom (c.zone.dayAt ts - 1)) ≤ ts ∧
          ts < c.zone.firstAt (c.breakStop (c.zone.dayAt ts - 1)))) := by
  refine ⟨fun none => ⟨none _, none _⟩, fun ⟨own, before⟩ day broken inBreak => ?_⟩
  have length : c.breakStop day = c.breakFrom day + c.breakMinutes * minuteMs := rfl
  have startMs := formed.breakStart.ms_lt
  have fromMidnight : c.breakFrom day = day * dayMs + c.breakStart.ms := rfl
  obtain ⟨begun, notOver⟩ := inBreak
  have notLater : day ≤ c.zone.dayAt ts := by
    have started : day * dayMs ≤ c.breakFrom day := midnight_le_wallOf day c.breakStart
    exact steady.midnight_le_iff.1 ((steady.firstAt_mono started).trans begun)
  have notEarlier : c.zone.dayAt ts - 2 ≤ day := by
    by_contra early
    have : c.breakStop day ≤ c.zone.dayAt ts * dayMs := by
      simp only [dayMs, minuteMs] at *
      omega
    have := firstAt_le_of_le_midnight steady this
    omega
  have which : day = c.zone.dayAt ts ∨ day = c.zone.dayAt ts - 1 ∨ day = c.zone.dayAt ts - 2 := by
    omega
  rcases which with rfl | rfl | rfl
  · exact own broken ⟨begun, notOver⟩
  · exact before broken ⟨begun, notOver⟩
  · -- the break of the day before has begun as well, and it ends a day later
    have alsoBroken : hasBreak (c.zone.dayAt ts - 1) = true := by
      rw [Ne, weekdayOf_eq_saturday] at notSaturday
      rw [hasBreak_iff] at broken ⊢
      simp only [weekIndex] at *
      omega
    have nextBegun : c.zone.firstAt (c.breakFrom (c.zone.dayAt ts - 1)) ≤ ts := by
      have := wallOf_lt_midnight formed.breakStart (c.zone.dayAt ts - 1)
      exact firstAt_le_of_le_midnight steady (by simp only [breakFrom]; linarith)
    have longer : c.breakStop (c.zone.dayAt ts - 2) ≤ c.breakStop (c.zone.dayAt ts - 1) := by
      simp only [breakStop, breakFrom, wallOf, dayMs]
      omega
    exact before alsoBroken ⟨nextBegun, lt_of_lt_of_le notOver (steady.firstAt_mono longer)⟩

/-- The open parts of the days hold exactly the instants of the weekly schedule, where no break is
longer than two days. -/
theorem inTimetable_iff_schedule (formed : c.WellFormed) (steady : c.zone.Steady)
    (short : c.breakMinutes ≤ 2880) : c.inTimetable ts = true ↔ c.WeeklySchedule ts := by
  rw [inTimetable_iff, holds_tradingSpans_iff steady.toGentle, ruleWalls_hold_iff steady,
    spill_over_iff formed steady]
  constructor
  · rintro ⟨⟨notSaturday, opened, notClosed, own⟩, before⟩
    exact ⟨notSaturday, opened, notClosed,
      (noBreak_iff formed steady short notSaturday).2 ⟨own, before⟩⟩
  · rintro ⟨notSaturday, opened, notClosed, noBreak⟩
    obtain ⟨own, before⟩ := (noBreak_iff formed steady short notSaturday).1 noBreak
    exact ⟨⟨notSaturday, opened, notClosed, own⟩, before⟩

/-! ### The market -/

variable {windows : List Closure} {tag : String} {s : Settings} {profile : Option Profile} {z : Zone}

/-- Monday, the last date.  By the schedule the market is open all morning, but the last date has no
next midnight, and so no open part. -/
theorem closed_on_last_date :
    let c := create [] "utc" { Settings.standard with zoneName := "UTC" } none
    c.healthError = none ∧ c.zone.Steady ∧ c.breakMinutes ≤ 2880 ∧ hasDate 8210266833600000 = true ∧
      c.isOpen 8210266833600000 = .ok false ∧ c.WeeklySchedule 8210266833600000 := by
  intro c
  have steady : c.zone.Steady := by decide +kernel
  have short : c.breakMinutes ≤ 2880 := by decide +kernel
  have scheduled : c.inTimetable 8210266833600000 = true := by decide +kernel
  exact ⟨by decide +kernel, steady, short, by decide, by decide +kernel,
    (inTimetable_iff_schedule create_wellFormed steady short).1 scheduled⟩

/-- Where the dates leave room, the market is open exactly outside the given windows and inside the
weekly schedule, by the clock of any steady zone. -/
theorem isOpen_iff_schedule (healthy : (create windows tag s profile).healthError = none)
    (steady : z.Steady) (short : (create windows tag s profile).breakMinutes ≤ 2880)
    (room : ((create windows tag s profile).inZone z).Roomy ts) :
    let c := (create windows tag s profile).inZone z
    ∃ answer, c.isOpen ts = .ok answer ∧
      (answer = true ↔
        (∀ w ∈ givenWindows windows profile, ¬ (w.start ≤ ts ∧ ts < w.stop)) ∧
          c.WeeklySchedule ts) := by
  intro c
  have formed : c.WellFormed := create_wellFormed.inZone z
  refine ⟨_, (room.ownDayRoom formed).isOpen_eq formed (healthError_eq_none.1 healthy)
    steady.toGentle, ?_⟩
  rw [formed.trades_iff, inTimetable_iff_schedule formed steady short]
  have same : (∀ w ∈ c.closures, w.holds ts = false) ↔
      ∀ w ∈ givenWindows windows profile, ¬ (w.start ≤ ts ∧ ts < w.stop) := by
    simp only [c, inZone_closures, mem_closures_create healthy, ← Closure.holds_iff,
      Bool.not_eq_true]
  rw [same]

/-- In New York the market opens at five in the afternoon of the Sunday on which the clock has gone
forward. -/
theorem schedule_newYork_sunday :
    let c := (create [⟨1735084800000, 1735171200000⟩] "us" .standard none).inZone newYork
    c.isOpen 1710104399999 = .ok false ∧ c.WeeklySchedule 1710104400000 := by
  intro c
  have healthy : c.healthError = none := by decide +kernel
  have room : c.Roomy 1710104400000 := ⟨by decide, by decide +kernel⟩
  have opened : c.isOpen 1710104400000 = .ok true := by decide +kernel
  obtain ⟨answer, given, agrees⟩ :=
    isOpen_iff_schedule healthy newYork_steady (by decide +kernel) room
  cases given.symm.trans opened
  exact ⟨by decide +kernel, (agrees.1 rfl).2⟩

end Calendar

end MarketBook
