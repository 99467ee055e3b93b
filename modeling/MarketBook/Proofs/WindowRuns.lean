/-
Module: MarketBook.Proofs.WindowRuns
Purpose: Where the runs of a window begin and stop, trading begins and ceases, unless a run is cut off
  by the start or the stop of the window.
Main exports:
  Calendar.Begins, Calendar.Ceases, Calendar.windowStart_bounds, Calendar.windowStop_bounds,
  Calendar.Regular.begins_of_run, Calendar.Regular.ceases_of_run, Calendar.Regular.stop_isLeast,
  Calendar.Regular.start_isLeast, Calendar.Regular.no_opening
-/
import MarketBook.Calendar.Query
import MarketBook.Proofs.OpenRuns

namespace MarketBook.Calendar

open Time Zone

/-!
An answer is read off the runs of a window of eleven days.  A run that was cut off by the end of the
window would give a wrong pause, and a run that was cut off by its start a wrong open.  Neither
happens: the window starts before the day of the anchor, and a Saturday, on which the market is
closed, lies in the week before the window ends.
-/

/-- The timetable begins to trade at the instant. -/
def Begins (c : Calendar) (ts : Int) : Prop :=
  c.trades ts = true ∧ c.trades (ts - 1) = false

/-- The timetable ceases to trade at the instant. -/
def Ceases (c : Calendar) (ts : Int) : Prop :=
  c.trades (ts - 1) = true ∧ c.trades ts = false

variable {c : Calendar} {ts s t anchor : Int}

/-- Between an instant without trading and one with it the timetable begins to trade. -/
theorem exists_begins (closed : c.trades s = false) (opened : c.trades t = true) (hst : s ≤ t) :
    ∃ o, s < o ∧ o ≤ t ∧ c.Begins o := by
  induction t, hst using Int.leInduction with
  | base =>
      rw [closed] at opened
      cases opened
  | succ t hst ih =>
      cases before : c.trades t with
      | false => exact ⟨t + 1, by omega, le_rfl, opened, by rwa [Int.add_sub_cancel]⟩
      | true =>
          obtain ⟨o, after, notAfter, begins⟩ := ih before
          exact ⟨o, after, by omega, begins⟩

/-! ### The reach of a window -/

/-- The window around an instant starts before it, but not a week before it. -/
theorem windowStart_bounds (steady : c.zone.Steady) (anchor : Int) :
    anchor - weekMs < c.windowStart anchor ∧ c.windowStart anchor < anchor := by
  refine ⟨?_, ?_⟩
  · have week := (steady.dayAt_add_days (anchor - weekMs) (n := 7) (by omega) le_rfl).1
    rw [show anchor - weekMs + 7 * dayMs = anchor from Int.sub_add_cancel anchor weekMs] at week
    exact steady.lt_midnight_iff.2 (by omega)
  · exact lt_of_lt_of_le (steady.midnight_lt (by omega)) (steady.midnight_le_iff.2 le_rfl)

/-- The window around an instant ends after a week and before two weeks have passed. -/
theorem windowStop_bounds (steady : c.zone.Steady) (anchor : Int) :
    anchor + weekMs < c.windowStop anchor ∧ c.windowStop anchor ≤ anchor + 2 * weekMs := by
  have first := steady.dayAt_add_days anchor (n := 7) (by omega) le_rfl
  have second := steady.dayAt_add_days (anchor + 7 * dayMs) (n := 7) (by omega) le_rfl
  refine ⟨steady.lt_midnight_iff.2 ?_, steady.midnight_le_iff.2 ?_⟩
  · simp only [weekMs]
    omega
  · rw [show anchor + 2 * weekMs = anchor + 7 * dayMs + 7 * dayMs by simp only [weekMs]; omega]
    omega

/-- The window around an instant ends behind it. -/
theorem lt_windowStop (steady : c.zone.Steady) (anchor : Int) : anchor < c.windowStop anchor := by
  have ahead := (windowStop_bounds steady anchor).1
  simp only [weekMs, dayMs] at ahead
  omega

theorem tradingSpans_saturday {day : Int} (saturday : weekdayOf day = .saturday) :
    c.tradingSpans day = [] := by
  simp [tradingSpans, tradingWalls, ruleWalls, saturday]

theorem not_trades_saturday (saturday : weekdayOf (c.zone.dayAt ts) = .saturday) :
    c.trades ts = false := by
  have closed : ¬ c.inTimetable ts = true := by
    rw [inTimetable_iff, tradingSpans_saturday saturday]
    simp
  simp [trades, closed]

theorem exists_saturday (day : Int) :
    ∃ later, day < later ∧ later ≤ day + 7 ∧ weekdayOf later = .saturday := by
  have bounds := weekIndex_bounds day
  by_cases early : weekIndex day < 5
  · refine ⟨day + (5 - weekIndex day), by omega, by omega, weekdayOf_eq_saturday.2 ?_⟩
    simp only [weekIndex] at *
    omega
  · refine ⟨day + (12 - weekIndex day), by omega, by omega, weekdayOf_eq_saturday.2 ?_⟩
    simp only [weekIndex] at *
    omega

/-! ### The ends of the runs -/

variable {r : Span}

theorem Regular.trades_of_run (regular : c.Regular)
    (hr : r ∈ c.tradingRuns anchor) (held : r.holds ts = true) : c.trades ts = true := by
  have bounds := tradingRuns_bounds regular.formed regular.steady hr
  obtain ⟨after, before⟩ := Span.holds_iff.1 held
  exact (regular.trades_iff_run anchor (by omega) (by omega)).2 ⟨r, hr, held⟩

/-- A run that is not cut off by the start of the window starts when trading begins. -/
theorem Regular.begins_of_run (regular : c.Regular)
    (hr : r ∈ c.tradingRuns anchor) (late : c.windowStart anchor < r.start) : c.Begins r.start := by
  have separated := tradingRuns_separated regular.formed regular.steady.toGentle anchor
  have proper := separated.proper r hr
  have bounds := tradingRuns_bounds regular.formed regular.steady hr
  refine ⟨regular.trades_of_run hr (Span.holds_iff.2 ⟨le_rfl, proper⟩), ?_⟩
  rw [← Bool.not_eq_true, regular.trades_iff_run anchor (by omega) (by omega)]
  exact separated.not_holds_before hr

/-- A run that is not cut off by the end of the window stops when trading ceases. -/
theorem Regular.ceases_of_run (regular : c.Regular)
    (hr : r ∈ c.tradingRuns anchor) (early : r.stop < c.windowStop anchor) : c.Ceases r.stop := by
  have separated := tradingRuns_separated regular.formed regular.steady.toGentle anchor
  have proper := separated.proper r hr
  have bounds := tradingRuns_bounds regular.formed regular.steady hr
  refine ⟨regular.trades_of_run hr (Span.holds_iff.2 ⟨by omega, by omega⟩), ?_⟩
  rw [← Bool.not_eq_true, regular.trades_iff_run anchor (by omega) early]
  exact separated.not_holds_stop hr

/-- Where trading begins inside the window, a run starts. -/
theorem Regular.run_of_begins (regular : c.Regular) (anchor : Int)
    (after : c.windowStart anchor < ts) (before : ts < c.windowStop anchor) (begins : c.Begins ts) :
    ∃ r ∈ c.tradingRuns anchor, r.start = ts := by
  obtain ⟨r, hr, held⟩ := (regular.trades_iff_run anchor after.le before).1 begins.1
  obtain ⟨started, notOver⟩ := Span.holds_iff.1 held
  refine ⟨r, hr, le_antisymm started ?_⟩
  by_contra later
  have wasOpen : c.trades (ts - 1) = true :=
    regular.trades_of_run hr (Span.holds_iff.2 ⟨by omega, by omega⟩)
  rw [begins.2] at wasOpen
  cases wasOpen

/-- A run that has started by the anchor stops before the window does, because a Saturday comes
first. -/
theorem Regular.stop_lt_windowStop (regular : c.Regular)
    (hr : r ∈ c.tradingRuns anchor) (started : r.start ≤ anchor) :
    r.stop < c.windowStop anchor := by
  obtain ⟨later, after, near, saturday⟩ := exists_saturday (c.zone.dayAt anchor)
  have ahead : anchor < c.zone.firstAt (later * dayMs) := regular.steady.lt_midnight_iff.2 after
  have inWindow : c.zone.firstAt (later * dayMs) < c.windowStop anchor :=
    regular.steady.midnight_lt (by omega)
  by_contra reaches
  have held : r.holds (c.zone.firstAt (later * dayMs)) = true :=
    Span.holds_iff.2 ⟨by omega, by omega⟩
  have opened := regular.trades_of_run hr held
  rw [not_trades_saturday (by rw [regular.steady.dayAt_midnight, saturday])] at opened
  cases opened

/-- Trading goes on until the stop of a run, and ceases there first. -/
theorem Regular.stop_isLeast (regular : c.Regular) (hr : r ∈ c.tradingRuns anchor)
    (started : r.start ≤ anchor) :
    IsLeast {p | r.start < p ∧ c.Ceases p} r.stop ∧
      ∀ t, r.start ≤ t → t < r.stop → c.trades t = true := by
  have stays : ∀ t, r.start ≤ t → t < r.stop → c.trades t = true := fun t after before =>
    regular.trades_of_run hr (Span.holds_iff.2 ⟨after, before⟩)
  have proper := (tradingRuns_separated regular.formed regular.steady.toGentle anchor).proper r hr
  have ceases := regular.ceases_of_run hr (regular.stop_lt_windowStop hr started)
  refine ⟨⟨⟨proper, ceases⟩, ?_⟩, stays⟩
  rintro p ⟨after, ceasesThere⟩
  by_contra before
  have trading := stays p after.le (not_le.1 before)
  rw [ceasesThere.2] at trading
  cases trading

theorem hopMs_eq_weekMs : hopMs = weekMs := rfl

/-- The run that a window answers with starts at the first opening from the anchor on. -/
theorem Regular.start_isLeast (regular : c.Regular)
    (found : (c.tradingRuns anchor).find? (fun s => anchor ≤ s.start) = some r) :
    IsLeast {o | anchor ≤ o ∧ c.Begins o} r.start := by
  have hr := List.mem_of_find?_eq_some found
  have late : anchor ≤ r.start := by simpa using List.find?_some found
  have start := (windowStart_bounds regular.steady anchor).2
  have separated := tradingRuns_separated regular.formed regular.steady.toGentle anchor
  refine ⟨⟨late, regular.begins_of_run hr (by omega)⟩, ?_⟩
  rintro o ⟨notBefore, begins⟩
  by_contra earlier
  have proper := separated.proper r hr
  have bounds := tradingRuns_bounds regular.formed regular.steady hr
  obtain ⟨other, hother, rfl⟩ := regular.run_of_begins anchor (by omega) (by omega) begins
  have := separated.find?_first found hother (decide_eq_true notBefore)
  omega

/-- A window without an answer has no opening from the anchor on, and the week after the anchor lies
in it. -/
theorem Regular.no_opening (regular : c.Regular)
    (none : (c.tradingRuns anchor).find? (fun s => anchor ≤ s.start) = none) {o : Int}
    (late : anchor ≤ o) (begins : c.Begins o) : anchor + hopMs ≤ o := by
  by_contra near
  have start := (windowStart_bounds regular.steady anchor).2
  have stop := (windowStop_bounds regular.steady anchor).1
  rw [hopMs_eq_weekMs] at near
  obtain ⟨r, hr, rfl⟩ := regular.run_of_begins anchor (by omega) (by omega) begins
  have := List.find?_eq_none.1 none r hr
  simp [late] at this

end MarketBook.Calendar
