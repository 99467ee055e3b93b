/-
Module: MarketBook.Proofs.OpenRuns
Purpose: The runs around an instant, built from whole days, agree with the question whether the
  market is open at one instant.
Main exports:
  Calendar.windowStart, Calendar.windowStop, Calendar.tradingRuns, Calendar.Roomy.runsAround_eq,
  Calendar.holds_tradingRuns_iff, Calendar.Regular, Calendar.Regular.trades_iff_run,
  Calendar.runsAround_stops, Calendar.runs_exact
-/
import MarketBook.Proofs.DaySchedule

namespace MarketBook.Calendar

open Time Zone

/-!
The runs come from eleven days that are converted, joined over midnight and cut, while the market
asks the schedule of one day only.  The two agree because the open parts of a day never leave the
instants of that day, whatever the clock does at its midnights.
-/

variable {c : Calendar} {day later ts anchor : Int}

/-! ### The open parts of several days -/

/-- The open parts of a day lie between its first instant and that of the next day. -/
theorem tradingSpans_bounds (formed : c.WellFormed) (gentle : c.zone.Gentle) {s : Span}
    (hs : s ∈ c.tradingSpans day) :
    c.zone.firstAt (day * dayMs) ≤ s.start ∧ s.stop ≤ c.zone.firstAt ((day + 1) * dayMs) := by
  obtain ⟨w, hw, rfl⟩ := List.mem_map.1 (List.mem_filter.1 hs).1
  obtain ⟨started, stopped⟩ := (tradingWalls_bounds formed day).1 w hw
  exact ⟨gentle.firstAt_mono started, gentle.firstAt_mono stopped⟩

theorem tradingSpans_inOrder (formed : c.WellFormed) (gentle : c.zone.Gentle) (day : Int) :
    InOrder (c.tradingSpans day) := by
  refine ⟨?_, ?_⟩
  · intro s hs
    exact Span.isProper_iff.1 (List.mem_filter.1 hs).2
  · refine (List.pairwise_map.2 ((tradingWalls_bounds formed day).2.imp ?_)).filter _
    intro a b apart
    exact gentle.firstAt_mono apart

/-- The open parts of days in order are in order. -/
theorem flatMap_tradingSpans_inOrder (formed : c.WellFormed) (gentle : c.zone.Gentle)
    {days : List Int} (ascending : days.Pairwise (· < ·)) : InOrder (days.flatMap c.tradingSpans) := by
  refine ⟨?_, ?_⟩
  · intro s hs
    obtain ⟨day, -, hs⟩ := List.mem_flatMap.1 hs
    exact (tradingSpans_inOrder formed gentle day).proper s hs
  · refine List.pairwise_flatMap.2
      ⟨fun day _ => (tradingSpans_inOrder formed gentle day).ordered, ascending.imp ?_⟩
    intro day later before a ha b hb
    have aStops := (tradingSpans_bounds formed gentle ha).2
    have bStarts := (tradingSpans_bounds formed gentle hb).1
    have next : (day + 1) * dayMs ≤ later * dayMs := by
      simp only [dayMs]
      omega
    exact aStops.trans ((gentle.firstAt_mono next).trans bStarts)

/-- Only the open parts of its own day hold an instant. -/
theorem dayAt_of_holds (formed : c.WellFormed) (steady : c.zone.Steady) {s : Span}
    (hs : s ∈ c.tradingSpans day) (held : s.holds ts = true) : c.zone.dayAt ts = day := by
  obtain ⟨started, stopped⟩ := tradingSpans_bounds formed steady.toGentle hs
  obtain ⟨after, before⟩ := Span.holds_iff.1 held
  have begun : day ≤ c.zone.dayAt ts := steady.midnight_le_iff.1 (started.trans after)
  have notOver : c.zone.dayAt ts < day + 1 := steady.lt_midnight_iff.1 (lt_of_lt_of_le before stopped)
  omega

/-! ### The window -/

/-- The first instant of the window around an instant. -/
def windowStart (c : Calendar) (anchor : Int) : Int :=
  c.zone.firstAt ((c.zone.dayAt anchor - 1) * dayMs)

/-- The first instant after the window around an instant. -/
def windowStop (c : Calendar) (anchor : Int) : Int :=
  c.zone.firstAt ((c.zone.dayAt anchor + 10) * dayMs)

/-- The local days of the window around a day. -/
def windowOf (day : Int) : List Int :=
  (List.range windowDays).map fun n => day - daysBack + Int.ofNat n

/-- The runs of the timetable in the window around an instant. -/
def tradingRuns (c : Calendar) (anchor : Int) : List Span :=
  cutClosures c.closures
    (joinSpans ((windowOf (c.zone.dayAt anchor)).flatMap c.tradingSpans))

theorem mem_windowOf : later ∈ windowOf day ↔ day - 1 ≤ later ∧ later < day + 10 := by
  simp only [windowOf, List.mem_map, List.mem_range, windowDays, daysBack, Int.ofNat_eq_natCast]
  constructor
  · rintro ⟨n, hn, rfl⟩
    omega
  · rintro ⟨after, before⟩
    exact ⟨(later - day + 1).toNat, by omega, by omega⟩

theorem windowOf_ascending (day : Int) : (windowOf day).Pairwise (· < ·) := by
  refine List.pairwise_map.2 (List.pairwise_lt_range.imp ?_)
  intro a b before
  simp only [Int.ofNat_eq_natCast]
  omega

/-- An instant lies in the window exactly if its day does. -/
theorem mem_window_iff (steady : c.zone.Steady) :
    c.windowStart anchor ≤ ts ∧ ts < c.windowStop anchor ↔
      c.zone.dayAt ts ∈ windowOf (c.zone.dayAt anchor) := by
  rw [mem_windowOf, windowStart, windowStop, steady.midnight_le_iff, steady.lt_midnight_iff]

/-- Where there is room, the runs around an instant are those of the timetable. -/
theorem Roomy.runsAround_eq (formed : c.WellFormed) (gentle : c.zone.Gentle)
    (room : c.Roomy anchor) : c.runsAround anchor = .ok (c.tradingRuns anchor) := by
  have onDay : ∀ day ∈ windowOf (c.zone.dayAt anchor), c.DayRoom day := by
    intro day hday
    obtain ⟨late, early⟩ := mem_windowOf.1 hday
    exact room.dayRoom formed late (by omega)
  have inDates : ∀ day ∈ windowOf (c.zone.dayAt anchor), checkDay day = .ok day := fun day hday =>
    checkDay_eq ((onDay day hday).dated (by simp only [dayMs]; omega) (by
      have := formed.breakMinutes
      simp only [dayMs, maxShift, minuteMs]
      omega))
  have start : checkDay (c.zone.dayAt anchor - daysBack) = .ok (c.zone.dayAt anchor - daysBack) :=
    inDates _ (mem_windowOf.2 ⟨le_rfl, by simp only [daysBack]; omega⟩)
  have parts : (List.range windowDays).mapM (fun n => do
      c.openSpans (← checkDay (c.zone.dayAt anchor - daysBack + Int.ofNat n))) =
      .ok ((List.range windowDays).map fun n =>
        c.tradingSpans (c.zone.dayAt anchor - daysBack + Int.ofNat n)) := by
    refine Checked.mapM_eq_ok fun n hn => ?_
    have hday := List.mem_map_of_mem (f := fun n => c.zone.dayAt anchor - daysBack + Int.ofNat n) hn
    simp only [inDates _ hday, Checked.ok_bind, (onDay _ hday).openSpans_eq formed gentle]
  simp only [runsAround, (room.ownDayRoom formed).dayOf?_eq formed, Checked.ok_bind, spansAround,
    start, parts, Checked.pure_eq, tradingRuns, windowOf, List.flatMap_def, List.map_map,
    Function.comp_def]

theorem WellFormed.closure_proper (formed : c.WellFormed) : ∀ w ∈ c.closures, w.start < w.stop :=
  fun w hw => (formed.sound w hw).2.2

theorem tradingRuns_separated (formed : c.WellFormed) (gentle : c.zone.Gentle) (anchor : Int) :
    Separated (c.tradingRuns anchor) :=
  cutClosures_separated formed.closure_proper
    (joinSpans_separated (flatMap_tradingSpans_inOrder formed gentle (windowOf_ascending _)))

/-- A run holds an instant if the open parts of its day do, the day is in the window and no closed
window holds it. -/
theorem holds_tradingRuns_iff (formed : c.WellFormed) (steady : c.zone.Steady) :
    (∃ r ∈ c.tradingRuns anchor, r.holds ts = true) ↔
      c.zone.dayAt ts ∈ windowOf (c.zone.dayAt anchor) ∧
        (∃ s ∈ c.tradingSpans (c.zone.dayAt ts), s.holds ts = true) ∧
          ∀ w ∈ c.closures, w.holds ts = false := by
  have order := flatMap_tradingSpans_inOrder formed steady.toGentle
    (windowOf_ascending (c.zone.dayAt anchor))
  rw [tradingRuns, holds_cutClosures formed.closure_proper formed.apart, holds_joinSpans order,
    ← and_assoc]
  apply and_congr_left'
  constructor
  · rintro ⟨s, hs, held⟩
    obtain ⟨day, hday, hs⟩ := List.mem_flatMap.1 hs
    rw [dayAt_of_holds formed steady hs held]
    exact ⟨hday, s, hs, held⟩
  · rintro ⟨hday, s, hs, held⟩
    exact ⟨s, List.mem_flatMap.2 ⟨_, hday, hs⟩, held⟩

/-- The runs around an instant stay inside the window. -/
theorem tradingRuns_bounds (formed : c.WellFormed) (steady : c.zone.Steady) {r : Span}
    (hr : r ∈ c.tradingRuns anchor) :
    c.windowStart anchor ≤ r.start ∧ r.stop ≤ c.windowStop anchor := by
  have proper := (tradingRuns_separated formed steady.toGentle anchor).proper r hr
  have inWindow : ∀ t, r.holds t = true → c.windowStart anchor ≤ t ∧ t < c.windowStop anchor := by
    intro t held
    exact (mem_window_iff steady).2
      ((holds_tradingRuns_iff formed steady).1 ⟨r, hr, held⟩).1
  have first := inWindow r.start (Span.holds_iff.2 ⟨le_rfl, proper⟩)
  have last := inWindow (r.stop - 1) (Span.holds_iff.2 ⟨by omega, by omega⟩)
  exact ⟨first.1, by omega⟩

/-! ### The market -/

/-- A calendar that answers questions: nothing is wrong with it, and its clock is steady. -/
structure Regular (c : Calendar) : Prop where
  formed : c.WellFormed
  healthy : c.isBroken = false
  steady : c.zone.Steady

theorem create_regular {windows : List Closure} {tag : String} {s : Settings}
    {profile : Option Profile} {z : Zone}
    (healthy : (create windows tag s profile).healthError = none) (steady : z.Steady) :
    ((create windows tag s profile).inZone z).Regular :=
  ⟨create_wellFormed.inZone z, healthError_eq_none.1 healthy, steady⟩

section

variable (regular : c.Regular)

include regular

theorem Regular.isOpen_eq (room : c.Roomy ts) : c.isOpen ts = .ok (c.trades ts) :=
  (room.ownDayRoom regular.formed).isOpen_eq regular.formed regular.healthy regular.steady.toGentle

theorem Regular.runsAround_eq (room : c.Roomy anchor) :
    c.runsAround anchor = .ok (c.tradingRuns anchor) :=
  room.runsAround_eq regular.formed regular.steady.toGentle

/-- In the window around an instant, the timetable trades exactly during the runs. -/
theorem Regular.trades_iff_run (anchor : Int) (after : c.windowStart anchor ≤ ts)
    (before : ts < c.windowStop anchor) :
    c.trades ts = true ↔ ∃ r ∈ c.tradingRuns anchor, r.holds ts = true := by
  obtain ⟨formed, healthy, steady⟩ := regular
  rw [formed.trades_iff, inTimetable_iff, holds_tradingRuns_iff formed steady]
  have hday := (mem_window_iff steady).1 ⟨after, before⟩
  constructor
  · rintro ⟨free, held⟩
    exact ⟨hday, held, free⟩
  · rintro ⟨-, held, free⟩
    exact ⟨free, held⟩

/-- Every instant of a window with room has an answer. -/
theorem Regular.isOpen_eq_of_window (room : c.Roomy anchor) (after : c.windowStart anchor ≤ ts)
    (before : ts < c.windowStop anchor) : c.isOpen ts = .ok (c.trades ts) := by
  obtain ⟨late, early⟩ := mem_windowOf.1 ((mem_window_iff regular.steady).1 ⟨after, before⟩)
  exact (room.dayRoom regular.formed late (by omega)).isOpen_eq regular.formed regular.healthy
    regular.steady.toGentle

end

/-- Around an instant of the last date a window would reach behind the dates, and the program stops;
around most other instants it stops as well if the break of the calendar is long enough to end behind
the dates. -/
theorem runsAround_stops :
    let c := create [] "utc" { Settings.standard with zoneName := "UTC" } none
    let long := create [] "utc" ⟨"UTC", "17:00", "17:00", "17:00", 9223372036854775807⟩ none
    c.healthError = none ∧ c.zone.Steady ∧ hasDate 8210266833600000 = true ∧
      c.runsAround 8210266833600000 = .error .day ∧
      long.healthError = none ∧ long.zone.Steady ∧
      long.runsAround 1735084800000 = .error .wall := by
  decide +kernel

variable {windows : List Closure} {tag : String} {description : Settings}
  {profile : Option Profile} {z : Zone}

/-- Where the dates leave room, the runs around an instant cover the window from the first instant of
the day before the instant's day to the first instant of the tenth day after it: they are not empty,
stay inside the window, come in order with an instant between two of them, and hold exactly the
instants of the window at which the market is open. -/
theorem runs_exact (healthy : (create windows tag description profile).healthError = none)
    (steady : z.Steady)
    (room : ((create windows tag description profile).inZone z).Roomy anchor) :
    let c := (create windows tag description profile).inZone z
    (IsLeast {t | z.dayAt t = z.dayAt anchor - 1} (c.windowStart anchor) ∧
      IsLeast {t | z.dayAt t = z.dayAt anchor + 10} (c.windowStop anchor)) ∧
    ∃ runs, c.runsAround anchor = .ok runs ∧
      (∀ r ∈ runs,
        c.windowStart anchor ≤ r.start ∧ r.start < r.stop ∧ r.stop ≤ c.windowStop anchor) ∧
      (runs.Pairwise fun a b => a.stop < b.start) ∧
      ∀ ts, c.windowStart anchor ≤ ts → ts < c.windowStop anchor →
        ∃ answer, c.isOpen ts = .ok answer ∧
          (answer = true ↔ ∃ r ∈ runs, r.start ≤ ts ∧ ts < r.stop) := by
  intro c
  have regular : c.Regular := create_regular healthy steady
  have separated := tradingRuns_separated regular.formed regular.steady.toGentle anchor
  refine ⟨⟨steady.midnight_isLeast _, steady.midnight_isLeast _⟩,
    _, regular.runsAround_eq room, fun r hr => ?_, separated.gaps, fun ts after before => ?_⟩
  · obtain ⟨started, stopped⟩ := tradingRuns_bounds regular.formed regular.steady hr
    exact ⟨started, separated.proper r hr, stopped⟩
  · simp only [← Span.holds_iff]
    exact ⟨_, regular.isOpen_eq_of_window room after before,
      regular.trades_iff_run anchor after before⟩

/-- In New York around the Friday before the clock goes forward, where a closed window cuts the
Wednesday after it: the market is open in the first hour of the Sunday session. -/
theorem runs_newYork_spring :
    let c := (create [⟨1741752000000, 1741838400000⟩] "us" .standard none).inZone newYork
    ∃ runs, c.runsAround 1741348800000 = .ok runs ∧
      (runs.Pairwise fun a b => a.stop < b.start) ∧
      ∃ r ∈ runs, r.start ≤ 1741559000000 ∧ 1741559000000 < r.stop := by
  intro c
  have healthy : c.healthError = none := by decide +kernel
  have room : c.Roomy 1741348800000 := ⟨by decide, by decide +kernel⟩
  obtain ⟨-, runs, found, -, separated, agree⟩ := runs_exact healthy newYork_steady room
  have opened : c.isOpen 1741559000000 = .ok true := by decide +kernel
  obtain ⟨answer, given, inRun⟩ := agree 1741559000000 (by decide +kernel) (by decide +kernel)
  cases given.symm.trans opened
  exact ⟨runs, found, separated, inRun.1 rfl⟩

end MarketBook.Calendar
