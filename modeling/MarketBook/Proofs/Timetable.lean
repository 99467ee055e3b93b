/-
Module: MarketBook.Proofs.Timetable
Purpose: The open parts of every day on a line of time that has no ends, and where the date type has
  room for a calendar to give just these.
Main exports:
  Calendar.tradingWalls, Calendar.tradingSpans, Calendar.inTimetable, Calendar.trades,
  Calendar.DayRoom, Calendar.DayRoom.openSpans_eq, Calendar.DayRoom.isOpen_eq, Calendar.Roomy,
  Calendar.Roomy.dayRoom
-/
import Mathlib.Data.List.Basic
import MarketBook.Proofs.HealthyCalendar
import MarketBook.Proofs.SpanLists
import MarketBook.Proofs.WallInstants

namespace MarketBook.Calendar

open Time Zone

/-!
A calendar computes with dates, and these have a first and a last.  Everything that makes a schedule
interesting happens far from both: there each bound becomes the first instant of its wall time, no
day lacks a neighbour, and no sum leaves its range.  So the schedule is stated once for a line of time
without ends, the timetable, and a calendar is compared with it once, where there is room.  Room
means that the dates reach some days to both sides, and behind these the length of a break.
-/

/-! ### The timetable -/

/-- The wall time at which the break of a day ends. -/
def breakStop (c : Calendar) (day : Int) : Int :=
  c.breakFrom day + c.breakMinutes * minuteMs

/-- The open parts of a day by its own rules alone. -/
def ruleWalls (c : Calendar) (day : Int) : List Span :=
  match weekdayOf day with
  | .saturday => []
  | .sunday => [⟨wallOf day c.weeklyOpen, (day + 1) * dayMs⟩]
  | .friday => [⟨day * dayMs, wallOf day c.weeklyClose⟩]
  | _ => [⟨day * dayMs, c.breakFrom day⟩, ⟨c.breakStop day, (day + 1) * dayMs⟩]

/-- The wall time before which the day is closed by the break of the day before. -/
def spillStop? (c : Calendar) (day : Int) : Option Int :=
  if hasBreak (day - 1) ∧ day * dayMs < c.breakStop (day - 1) then some (c.breakStop (day - 1))
  else none

/-- The open parts of a day in wall time. -/
def tradingWalls (c : Calendar) (day : Int) : List Span :=
  ((c.ruleWalls day).map (Span.after (c.spillStop? day))).filter Span.isProper

/-- The span of instants that a span of wall times becomes. -/
def instantsOf (c : Calendar) (walls : Span) : Span :=
  ⟨c.zone.firstAt walls.start, c.zone.firstAt walls.stop⟩

/-- The open parts of a day as instants. -/
def tradingSpans (c : Calendar) (day : Int) : List Span :=
  ((c.tradingWalls day).map c.instantsOf).filter Span.isProper

/-- The instant lies in an open part of its day. -/
def inTimetable (c : Calendar) (ts : Int) : Bool :=
  (c.tradingSpans (c.zone.dayAt ts)).any (·.holds ts)

/-- The instant lies in an open part of its day and in no closed window. -/
def trades (c : Calendar) (ts : Int) : Bool :=
  (c.closureAt? ts).isNone && c.inTimetable ts

variable {c : Calendar} {day ts : Int}

theorem inTimetable_iff :
    c.inTimetable ts = true ↔ ∃ s ∈ c.tradingSpans (c.zone.dayAt ts), s.holds ts = true := by
  simp [inTimetable]

theorem WellFormed.trades_iff (formed : c.WellFormed) :
    c.trades ts = true ↔ (∀ w ∈ c.closures, w.holds ts = false) ∧ c.inTimetable ts = true := by
  simp [trades, formed.closureAt?_eq_none]

/-! ### Wall times of a day -/

theorem midnight_whole (day : Int) : (day * dayMs) % minuteMs = 0 := by
  simp only [dayMs, minuteMs]
  omega

theorem wallOf_whole (day : Int) (t : ClockTime) : wallOf day t % minuteMs = 0 := by
  have := t.ms_whole
  simp only [wallOf, dayMs, minuteMs] at *
  omega

theorem breakStop_whole (c : Calendar) (day : Int) : c.breakStop day % minuteMs = 0 := by
  have := wallOf_whole day c.breakStart
  simp only [breakStop, breakFrom, minuteMs] at *
  omega

theorem midnight_le_wallOf (day : Int) (t : ClockTime) : day * dayMs ≤ wallOf day t := by
  have := t.ms_nonneg
  simp only [wallOf]
  omega

theorem wallOf_lt_midnight {t : ClockTime} (valid : t.IsValid) (day : Int) :
    wallOf day t < (day + 1) * dayMs := by
  have := valid.ms_lt
  simp only [wallOf]
  linarith

/-- The bounds of the open parts of a day are whole minutes. -/
theorem tradingWalls_whole {w : Span} (hw : w ∈ c.tradingWalls day) :
    w.start % minuteMs = 0 ∧ w.stop % minuteMs = 0 := by
  obtain ⟨own, hown, rfl⟩ := List.mem_map.1 (List.mem_filter.1 hw).1
  have ownWhole : own.start % minuteMs = 0 ∧ own.stop % minuteMs = 0 := by
    simp only [ruleWalls] at hown
    split at hown <;> simp only [List.mem_cons, List.not_mem_nil, or_false] at hown
    · exact ⟨by rw [hown]; exact wallOf_whole _ _, by rw [hown]; exact midnight_whole _⟩
    · exact ⟨by rw [hown]; exact midnight_whole _, by rw [hown]; exact wallOf_whole _ _⟩
    · rcases hown with rfl | rfl
      · exact ⟨midnight_whole _, wallOf_whole _ _⟩
      · exact ⟨breakStop_whole _ _, midnight_whole _⟩
  cases spilled : c.spillStop? day with
  | none => exact ownWhole
  | some x =>
      have xWhole : x % minuteMs = 0 := by
        unfold spillStop? at spilled
        split at spilled
        · exact Option.some.inj spilled ▸ breakStop_whole c (day - 1)
        · cases spilled
      refine ⟨?_, ownWhole.2⟩
      simp only [Span.after]
      rcases max_choice own.start x with h | h <;> rw [h]
      · exact ownWhole.1
      · exact xWhole

/-- The open parts of a day by its own rules stay between its midnights, and two of them leave the
break between them. -/
theorem ruleWalls_bounds (formed : c.WellFormed) (day : Int) :
    (∀ w ∈ c.ruleWalls day, day * dayMs ≤ w.start ∧ w.stop ≤ (day + 1) * dayMs) ∧
      (c.ruleWalls day).Pairwise fun a b => a.stop ≤ b.start := by
  have length : c.breakStop day = c.breakFrom day + c.breakMinutes * minuteMs := rfl
  have positive := formed.breakMinutes
  have started : day * dayMs ≤ c.breakFrom day := midnight_le_wallOf day c.breakStart
  have early : c.breakFrom day < (day + 1) * dayMs := wallOf_lt_midnight formed.breakStart day
  have opened := midnight_le_wallOf day c.weeklyOpen
  have closed := wallOf_lt_midnight formed.weeklyClose day
  have after : c.breakFrom day ≤ c.breakStop day := by
    simp only [minuteMs] at length
    omega
  simp only [ruleWalls]
  split
  · simp
  · simp [opened]
  · simp [closed.le]
  · simp only [List.mem_cons, List.not_mem_nil, or_false, forall_eq_or_imp, forall_eq]
    refine ⟨⟨⟨le_rfl, early.le⟩, ⟨started.trans after, le_rfl⟩⟩, ?_⟩
    simp [after]

/-- The open parts of a day stay between its midnights and in order when the break of the day
before has been cut off. -/
theorem tradingWalls_bounds (formed : c.WellFormed) (day : Int) :
    (∀ w ∈ c.tradingWalls day, day * dayMs ≤ w.start ∧ w.stop ≤ (day + 1) * dayMs) ∧
      (c.tradingWalls day).Pairwise fun a b => a.stop ≤ b.start := by
  obtain ⟨inside, ordered⟩ := ruleWalls_bounds formed day
  have late : ∀ w : Span, w.start ≤ (Span.after (c.spillStop? day) w).start := by
    intro w
    cases c.spillStop? day with
    | none => exact le_rfl
    | some x => exact le_max_left _ _
  have same : ∀ w : Span, (Span.after (c.spillStop? day) w).stop = w.stop := by
    intro w
    cases c.spillStop? day with
    | none => rfl
    | some x => rfl
  refine ⟨?_, ?_⟩
  · intro w hw
    obtain ⟨own, hown, rfl⟩ := List.mem_map.1 (List.mem_filter.1 hw).1
    obtain ⟨started, stopped⟩ := inside own hown
    rw [same]
    exact ⟨started.trans (late own), stopped⟩
  · refine (List.pairwise_map.2 (ordered.imp ?_)).filter _
    intro a b apart
    rw [same]
    exact apart.trans (late b)

/-! ### Room around a day -/

/-- The dates reach from the day before a local day to the end of the day after it, of a gap behind
that, and of a break behind that. -/
structure DayRoom (c : Calendar) (day : Int) : Prop where
  behind : hasDate ((day - 1) * dayMs) = true
  ahead : hasDate ((day + 2) * dayMs + maxShift + c.breakMinutes * minuteMs) = true

theorem DayRoom.dated (room : c.DayRoom day) {wall : Int} (after : (day - 1) * dayMs ≤ wall)
    (before : wall ≤ (day + 2) * dayMs + maxShift + c.breakMinutes * minuteMs) :
    hasDate wall = true :=
  hasDate_between room.behind room.ahead after before

theorem DayRoom.dayBefore?_eq (room : c.DayRoom day) : dayBefore? day = some (day - 1) :=
  Time.dayBefore?_eq room.behind

section

variable (formed : c.WellFormed) (room : c.DayRoom day)

include formed room

/-- Every wall time of the day has room. -/
theorem DayRoom.wallRoom {wall : Int} (after : day * dayMs ≤ wall)
    (before : wall ≤ (day + 1) * dayMs) : WallRoom wall := by
  have positive := formed.breakMinutes
  refine ⟨room.dated ?_ ?_, room.dated ?_ ?_⟩ <;>
    simp only [dayMs, maxShift, minuteMs] at * <;> omega

theorem DayRoom.dayAfter?_eq : dayAfter? day = some (day + 1) := by
  have positive := formed.breakMinutes
  refine Time.dayAfter?_eq (room.dated ?_ ?_) <;>
    simp only [dayMs, maxShift, minuteMs] <;> omega

/-- The break of the day and that of the day before end inside the dates. -/
theorem DayRoom.breakTo_eq {other : Int} (late : day - 1 ≤ other) (early : other ≤ day) :
    c.breakTo other = .ok (c.breakStop other) := by
  have positive := formed.breakMinutes
  have started := midnight_le_wallOf other c.breakStart
  have inDay := wallOf_lt_midnight formed.breakStart other
  refine checkWall_eq (room.dated ?_ ?_) <;>
    simp only [breakFrom, dayMs, maxShift, minuteMs] at * <;> omega

theorem DayRoom.ownWalls_eq : c.ownWalls day (day + 1) = .ok (c.ruleWalls day) := by
  have breakEnds := room.breakTo_eq formed (show day - 1 ≤ day by omega) le_rfl
  unfold ownWalls ruleWalls
  cases weekdayOf day <;> simp [breakEnds]

theorem DayRoom.spill?_eq : c.spill? day = .ok (c.spillStop? day) := by
  have breakEnds := room.breakTo_eq formed le_rfl (show day - 1 ≤ day by omega)
  unfold spill? breakBefore? spillStop?
  rw [room.dayBefore?_eq]
  cases broken : hasBreak (day - 1) with
  | false => simp [Option.filter, broken]
  | true =>
      by_cases spills : day * dayMs < c.breakStop (day - 1) <;>
        simp [Option.filter, broken, breakEnds, spills]

theorem DayRoom.openWalls_eq : c.openWalls day = .ok (c.tradingWalls day) := by
  simp [openWalls, tradingWalls, room.dayAfter?_eq formed, room.ownWalls_eq formed,
    room.spill?_eq formed]

/-- Every bound of the day has an instant, so its open parts are converted one by one. -/
theorem DayRoom.openSpans_eq (gentle : c.zone.Gentle) :
    c.openSpans day = .ok (c.tradingSpans day) := by
  have converted : ∀ w ∈ c.tradingWalls day, c.spanOfWalls? w = .ok (some (c.instantsOf w)) := by
    intro w hw
    obtain ⟨startWhole, stopWhole⟩ := tradingWalls_whole hw
    obtain ⟨started, stopped⟩ := (tradingWalls_bounds formed day).1 w hw
    have proper := Span.isProper_iff.1 (List.mem_filter.1 hw).2
    have start := gentle.boundInstant?_eq_firstAt startWhole
      (room.wallRoom formed started (by omega))
    have stop := gentle.boundInstant?_eq_firstAt stopWhole (room.wallRoom formed (by omega) stopped)
    simp [spanOfWalls?, instantsOf, start, stop]
  simp only [openSpans, room.openWalls_eq formed, Checked.ok_bind, Checked.mapM_eq_ok converted,
    Checked.pure_eq, tradingSpans, List.filterMap_map]
  simp

/-- By any clock the open parts of the day are found, if perhaps not at the first instants. -/
theorem DayRoom.openSpans_answers : ∃ spans, c.openSpans day = .ok spans := by
  have converted : ∀ w ∈ c.tradingWalls day, ∃ span?, c.spanOfWalls? w = .ok span? := by
    intro w hw
    obtain ⟨started, stopped⟩ := (tradingWalls_bounds formed day).1 w hw
    have proper := Span.isProper_iff.1 (List.mem_filter.1 hw).2
    obtain ⟨start?, start⟩ := (room.wallRoom formed started (by omega)).boundInstant?_answers c.zone
    obtain ⟨stop?, stop⟩ := (room.wallRoom formed (by omega) stopped).boundInstant?_answers c.zone
    cases start? <;> simp [spanOfWalls?, start, stop]
  obtain ⟨spans, found⟩ := Checked.mapM_answers converted
  simp [openSpans, room.openWalls_eq formed, found]

end

section

variable (formed : c.WellFormed) (room : c.DayRoom (c.zone.dayAt ts))

include formed room

theorem DayRoom.wallAt?_eq : c.wallAt? ts = .ok (some (c.zone.wallAt ts)) := by
  have positive := formed.breakMinutes
  have bounds := c.zone.wallAt_bounds ts
  have dated : hasDate ts = true := by
    refine room.dated ?_ ?_ <;> simp only [dayAt, dayMs, maxShift, minuteMs] at * <;> omega
  have shown : hasDate (c.zone.wallAt ts) = true := by
    refine room.dated ?_ ?_ <;> simp only [dayAt, dayMs, maxShift, minuteMs] at * <;> omega
  simp [wallAt?, dated, checkWall_eq shown]

theorem DayRoom.dayOf?_eq : c.dayOf? ts = .ok (some (c.zone.dayAt ts)) := by
  simp [dayOf?, room.wallAt?_eq formed, dayAt]

theorem DayRoom.isScheduled_eq (gentle : c.zone.Gentle) :
    c.isScheduled ts = .ok (c.inTimetable ts) := by
  simp [isScheduled, inTimetable, room.dayOf?_eq formed, room.openSpans_eq formed gentle]

theorem DayRoom.isScheduled_answers : ∃ opened, c.isScheduled ts = .ok opened := by
  obtain ⟨spans, found⟩ := room.openSpans_answers formed
  simp [isScheduled, room.dayOf?_eq formed, found]

/-- Where there is room, a healthy calendar is open exactly when its timetable trades. -/
theorem DayRoom.isOpen_eq (healthy : c.isBroken = false) (gentle : c.zone.Gentle) :
    c.isOpen ts = .ok (c.trades ts) := by
  cases held : c.closureAt? ts with
  | some w => simp [isOpen, trades, held]
  | none => simp [isOpen, trades, healthy, held, room.isScheduled_eq formed gentle]

end

/-! ### Room around an instant -/

/-- The dates reach from a week before an instant to two weeks behind it, and to the end of a break
behind that. -/
structure Roomy (c : Calendar) (ts : Int) : Prop where
  behind : hasDate (ts - weekMs) = true
  ahead : hasDate (ts + 2 * weekMs + c.breakMinutes * minuteMs) = true

theorem Roomy.between {lower upper : Int} (lowerRoom : c.Roomy lower) (upperRoom : c.Roomy upper)
    (above : lower ≤ ts) (below : ts ≤ upper) : c.Roomy ts :=
  ⟨hasDate_between lowerRoom.behind upperRoom.behind (by omega) (by omega),
    hasDate_between lowerRoom.ahead upperRoom.ahead (by omega) (by omega)⟩

theorem Roomy.hasDate (formed : c.WellFormed) (room : c.Roomy ts) : hasDate ts = true := by
  have positive := formed.breakMinutes
  refine hasDate_between room.behind room.ahead ?_ ?_ <;>
    simp only [weekMs, dayMs, minuteMs] <;> omega

/-- There is room around every day of the window of an instant: from the day before its own to the
ninth day after it. -/
theorem Roomy.dayRoom (formed : c.WellFormed) (room : c.Roomy ts)
    (late : c.zone.dayAt ts - 1 ≤ day) (early : day ≤ c.zone.dayAt ts + 9) : c.DayRoom day := by
  have positive := formed.breakMinutes
  have bounds := c.zone.wallAt_bounds ts
  refine ⟨hasDate_between room.behind room.ahead ?_ ?_,
    hasDate_between room.behind room.ahead ?_ ?_⟩ <;>
    simp only [dayAt, weekMs, dayMs, maxShift, minuteMs] at * <;> omega

theorem Roomy.ownDayRoom (formed : c.WellFormed) (room : c.Roomy ts) : c.DayRoom (c.zone.dayAt ts) :=
  room.dayRoom formed (by omega) (by omega)

end MarketBook.Calendar
