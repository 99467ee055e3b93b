/-
Module: MarketBook.Proofs.ClosedReasons
Purpose: The reasons given for a closed market against the schedule in words: the weekend, the
  breaks and the closed windows.
Main exports:
  Calendar.InBreak, Calendar.InWeekend, Calendar.WentBackOverClose, Calendar.weeklySchedule_iff,
  Calendar.timetableReasons, Calendar.Roomy.explain_eq, Calendar.closedInterval_mem_iff,
  Calendar.weekendClosed_mem_iff, Calendar.dailyBreak_mem_iff, Calendar.explain_truthful
-/
import Mathlib.Logic.Basic
import MarketBook.Proofs.DaySchedule

namespace MarketBook.Calendar

open Time Zone

/-!
Whether the schedule is open is decided on instants; the reason is then picked by what the clock
shows, and a break is what remains when the clock does not show a weekend.  On a Sunday and on a
Friday the two views are the same as long as the clock does not go back over the bound.  On a Sunday
that does no harm, because the market stays open once it has opened.  On a Friday it does: behind
the close the clock shows an earlier time, which is no weekend, and the reason given is a break that
nobody scheduled.
-/

variable {c : Calendar} {ts : Int}

/-- The instant lies in the break of some day. -/
def InBreak (c : Calendar) (ts : Int) : Prop :=
  ∃ day, hasBreak day = true ∧
    c.zone.firstAt (c.breakFrom day) ≤ ts ∧ ts < c.zone.firstAt (c.breakStop day)

/-- The instant lies between the close of one week and the open of the next. -/
def InWeekend (c : Calendar) (ts : Int) : Prop :=
  weekdayOf (c.zone.dayAt ts) = .saturday ∨
  (weekdayOf (c.zone.dayAt ts) = .sunday ∧
    ts < c.zone.firstAt (wallOf (c.zone.dayAt ts) c.weeklyOpen)) ∨
  (weekdayOf (c.zone.dayAt ts) = .friday ∧
    c.zone.firstAt (wallOf (c.zone.dayAt ts) c.weeklyClose) ≤ ts)

/-- It is Friday behind the weekly close, and the clock has gone back to a time before it. -/
def WentBackOverClose (c : Calendar) (ts : Int) : Prop :=
  weekdayOf (c.zone.dayAt ts) = .friday ∧
    c.zone.firstAt (wallOf (c.zone.dayAt ts) c.weeklyClose) ≤ ts ∧
    c.zone.wallAt ts < wallOf (c.zone.dayAt ts) c.weeklyClose

theorem WentBackOverClose.inWeekend (back : c.WentBackOverClose ts) : c.InWeekend ts :=
  .inr (.inr ⟨back.1, back.2.1⟩)

theorem not_inBreak_iff :
    ¬ c.InBreak ts ↔ ∀ day, hasBreak day = true →
      ¬ (c.zone.firstAt (c.breakFrom day) ≤ ts ∧ ts < c.zone.firstAt (c.breakStop day)) :=
  ⟨fun none day broken inside => none ⟨day, broken, inside⟩,
    fun none ⟨day, broken, inside⟩ => none day broken inside⟩

/-! ### The schedule and its two ways to be closed -/

/-- The schedule is closed exactly over the weekend and in a break. -/
theorem weeklySchedule_iff : c.WeeklySchedule ts ↔ ¬ c.InWeekend ts ∧ ¬ c.InBreak ts := by
  constructor
  · rintro ⟨notSaturday, opened, notClosed, noBreak⟩
    refine ⟨?_, not_inBreak_iff.2 noBreak⟩
    rintro (saturday | ⟨sunday, early⟩ | ⟨friday, late⟩)
    · exact notSaturday saturday
    · exact absurd (opened sunday) (not_le.2 early)
    · exact absurd (notClosed friday) (not_lt.2 late)
  · rintro ⟨notWeekend, notBreak⟩
    exact ⟨fun saturday => notWeekend (.inl saturday),
      fun sunday => not_lt.1 fun early => notWeekend (.inr (.inl ⟨sunday, early⟩)),
      fun friday => not_le.1 fun late => notWeekend (.inr (.inr ⟨friday, late⟩)),
      not_inBreak_iff.1 notBreak⟩

/-- No break reaches a Sunday: the last one of the week starts on Thursday and ends on Saturday at
the latest. -/
theorem not_inBreak_of_sunday (formed : c.WellFormed) (steady : c.zone.Steady)
    (short : c.breakMinutes ≤ 2880) (sunday : weekdayOf (c.zone.dayAt ts) = .sunday) :
    ¬ c.InBreak ts := by
  have index : weekIndex (c.zone.dayAt ts) = 6 := by
    have := weekIndex_bounds (c.zone.dayAt ts)
    simp only [weekdayOf] at sunday
    split_ifs at sunday
    omega
  have own : ¬ hasBreak (c.zone.dayAt ts) = true := by
    rw [hasBreak_iff]
    omega
  have before : ¬ hasBreak (c.zone.dayAt ts - 1) = true := by
    rw [hasBreak_iff]
    simp only [weekIndex] at *
    omega
  exact not_inBreak_iff.2 ((noBreak_iff formed steady short (by simp [sunday])).2
    ⟨fun h => absurd h own, fun h => absurd h before⟩)

/-! ### What the clock shows -/

/-- The clock shows an earlier time of its day exactly if it shows an earlier wall time. -/
theorem wallAt_lt_wallOf_iff {z : Zone} {t : ClockTime} :
    z.wallAt ts < wallOf (z.dayAt ts) t ↔ z.wallAt ts % dayMs < t.ms := by
  simp only [wallOf, dayAt, dayMs]
  omega

/-- A weekend by the clock. -/
theorem isWeekend_iff :
    c.isWeekend (c.zone.wallAt ts) = true ↔
      weekdayOf (c.zone.dayAt ts) = .saturday ∨
      (weekdayOf (c.zone.dayAt ts) = .sunday ∧
        c.zone.wallAt ts < wallOf (c.zone.dayAt ts) c.weeklyOpen) ∨
      (weekdayOf (c.zone.dayAt ts) = .friday ∧
        wallOf (c.zone.dayAt ts) c.weeklyClose ≤ c.zone.wallAt ts) := by
  rw [← not_lt, wallAt_lt_wallOf_iff, wallAt_lt_wallOf_iff, not_lt]
  unfold isWeekend
  rw [← dayAt]
  cases weekdayOf (c.zone.dayAt ts) <;> simp

/-- By the clock it is a weekend exactly if it is one, save where the clock has gone back over the
bound. -/
theorem isWeekend_of_closed (gentle : c.zone.Gentle) (onSunday : weekdayOf (c.zone.dayAt ts) =
      .sunday → ts < c.zone.firstAt (wallOf (c.zone.dayAt ts) c.weeklyOpen)) :
    c.isWeekend (c.zone.wallAt ts) = true ↔ c.InWeekend ts ∧ ¬ c.WentBackOverClose ts := by
  rw [isWeekend_iff]
  constructor
  · rintro (saturday | ⟨sunday, -⟩ | ⟨friday, late⟩)
    · exact ⟨.inl saturday, fun ⟨friday, _⟩ => by simp [saturday] at friday⟩
    · exact ⟨.inr (.inl ⟨sunday, onSunday sunday⟩), fun ⟨friday, _⟩ => by simp [sunday] at friday⟩
    · exact ⟨.inr (.inr ⟨friday, gentle.firstAt_le late⟩), fun ⟨_, _, back⟩ => not_le.2 back late⟩
  · rintro ⟨saturday | ⟨sunday, early⟩ | ⟨friday, late⟩, notBack⟩
    · exact .inl saturday
    · exact .inr (.inl ⟨sunday, gentle.wallAt_lt_of_lt early⟩)
    · exact .inr (.inr ⟨friday, not_lt.1 fun back => notBack ⟨friday, late, back⟩⟩)

/-! ### The reasons of the schedule -/

/-- A Sunday on which the schedule is closed has not come to the weekly open. -/
theorem lt_open_of_sunday (formed : c.WellFormed) (steady : c.zone.Steady)
    (short : c.breakMinutes ≤ 2880) (closed : ¬ c.WeeklySchedule ts)
    (sunday : weekdayOf (c.zone.dayAt ts) = .sunday) :
    ts < c.zone.firstAt (wallOf (c.zone.dayAt ts) c.weeklyOpen) := by
  by_contra reached
  refine closed (weeklySchedule_iff.2 ⟨?_, not_inBreak_of_sunday formed steady short sunday⟩)
  rintro (saturday | ⟨-, early⟩ | ⟨friday, -⟩)
  · simp [sunday] at saturday
  · exact reached early
  · simp [sunday] at friday

/-- Why the timetable does not trade at an instant, closed windows left aside. -/
def timetableReasons (c : Calendar) (ts : Int) : List Reason :=
  if c.inTimetable ts then []
  else [if c.isWeekend (c.zone.wallAt ts) then .weekendClosed else .dailyBreak]

/-- The timetable gives no reason while it is open, the weekend over the weekend, and else a break:
also on a Friday on which the clock has gone back over the close. -/
theorem timetableReasons_cases (formed : c.WellFormed) (steady : c.zone.Steady)
    (short : c.breakMinutes ≤ 2880) (ts : Int) :
    (c.timetableReasons ts = [] ∧ c.inTimetable ts = true ∧ ¬ c.InWeekend ts ∧ ¬ c.InBreak ts) ∨
    (c.timetableReasons ts = [.weekendClosed] ∧ c.inTimetable ts = false ∧
      c.InWeekend ts ∧ ¬ c.WentBackOverClose ts) ∨
    (c.timetableReasons ts = [.dailyBreak] ∧ c.inTimetable ts = false ∧
      (c.WentBackOverClose ts ∨ (c.InBreak ts ∧ ¬ c.InWeekend ts))) := by
  have agree : c.inTimetable ts = true ↔ c.WeeklySchedule ts :=
    inTimetable_iff_schedule formed steady short
  cases scheduled : c.inTimetable ts with
  | true =>
      exact .inl ⟨by simp [timetableReasons, scheduled], rfl,
        weeklySchedule_iff.1 (agree.1 scheduled)⟩
  | false =>
      have closed : ¬ c.WeeklySchedule ts := mt agree.2 (by simp [scheduled])
      have byClock := isWeekend_of_closed steady.toGentle
        (lt_open_of_sunday formed steady short closed)
      rw [weeklySchedule_iff] at closed
      cases shown : c.isWeekend (c.zone.wallAt ts) with
      | true =>
          exact .inr (.inl ⟨by simp [timetableReasons, scheduled, shown], rfl, byClock.1 shown⟩)
      | false =>
          rw [shown] at byClock
          refine .inr (.inr ⟨by simp [timetableReasons, scheduled, shown], rfl, ?_⟩)
          tauto

/-! ### The answers -/

variable {reasons : List Reason}

/-- Whatever the schedule answers, its reasons are the weekend or a break. -/
theorem mem_scheduleReasons (given : c.scheduleReasons ts = .ok reasons) {reason : Reason}
    (listed : reason ∈ reasons) : reason = .weekendClosed ∨ reason = .dailyBreak := by
  unfold scheduleReasons at given
  cases scheduled : c.isScheduled ts with
  | error cause => simp [scheduled] at given
  | ok opened =>
      cases shown : c.wallAt? ts with
      | error cause => cases opened <;> simp_all
      | ok wall? =>
          cases opened <;> cases wall? <;> simp [scheduled, shown] at given <;> subst given <;>
            simp at listed
          rw [listed]
          split <;> simp

section

variable (healthy : c.isBroken = false)

include healthy

/-- The reasons of a healthy calendar: the closed window, if there is one, and those of the
schedule. -/
theorem explain_eq_ok :
    c.explain ts = .ok reasons ↔ ∃ scheduled, c.scheduleReasons ts = .ok scheduled ∧
      reasons = (if (c.closureAt? ts).isSome then [.closedInterval] else []) ++ scheduled := by
  simp only [explain, healthy, Bool.false_eq_true, if_false]
  cases c.scheduleReasons ts with
  | error cause => simp
  | ok scheduled =>
      simp only [Checked.ok_bind, Checked.pure_eq, Except.ok.injEq, exists_eq_left', eq_comm]

/-- By any clock the reasons are given at an instant without a date, and where there is room. -/
theorem explain_answers (formed : c.WellFormed) (answering : hasDate ts = false ∨ c.Roomy ts) :
    ∃ reasons, c.explain ts = .ok reasons := by
  suffices ∃ scheduled, c.scheduleReasons ts = .ok scheduled by
    obtain ⟨scheduled, given⟩ := this
    exact ⟨_, (explain_eq_ok healthy).2 ⟨scheduled, given, rfl⟩⟩
  rcases answering with undated | room
  · exact ⟨[], by simp [scheduleReasons, isScheduled, dayOf?, wallAt?, undated]⟩
  · obtain ⟨opened, scheduled⟩ := (room.ownDayRoom formed).isScheduled_answers formed
    have shown := (room.ownDayRoom formed).wallAt?_eq formed
    cases opened <;> simp [scheduleReasons, scheduled, shown]

/-- A closed window is a reason exactly if one holds the instant. -/
theorem closedInterval_mem_iff (formed : c.WellFormed) (given : c.explain ts = .ok reasons) :
    .closedInterval ∈ reasons ↔ ∃ w ∈ c.closures, w.holds ts = true := by
  obtain ⟨scheduled, answered, rfl⟩ := (explain_eq_ok healthy).1 given
  have other : Reason.closedInterval ∉ scheduled := fun listed => by
    simpa using mem_scheduleReasons answered listed
  rw [List.mem_append, or_iff_left other, List.mem_ite_nil_right]
  simp only [List.mem_singleton, and_true, Option.isSome_iff_exists, formed.closureAt?_eq_some]

variable (formed : c.WellFormed) (room : c.Roomy ts)

include formed room

/-- Where there is room, the reasons are those of the closed windows and of the timetable. -/
theorem Roomy.explain_eq (gentle : c.zone.Gentle) :
    c.explain ts = .ok ((if (c.closureAt? ts).isSome then [.closedInterval] else []) ++
      c.timetableReasons ts) := by
  refine (explain_eq_ok healthy).2 ⟨_, ?_, rfl⟩
  cases scheduled : c.inTimetable ts <;>
    simp [scheduleReasons, timetableReasons, scheduled, (room.ownDayRoom formed).wallAt?_eq formed,
      (room.ownDayRoom formed).isScheduled_eq formed gentle]

variable (steady : c.zone.Steady) (short : c.breakMinutes ≤ 2880)
  (given : c.explain ts = .ok reasons)

include steady short given

/-- The weekend is a reason exactly over the weekend, unless the clock has gone back over the
close. -/
theorem weekendClosed_mem_iff :
    .weekendClosed ∈ reasons ↔ c.InWeekend ts ∧ ¬ c.WentBackOverClose ts := by
  obtain rfl := Except.ok.inj (given.symm.trans (room.explain_eq healthy formed steady.toGentle))
  rw [List.mem_append, List.mem_ite_nil_right]
  rcases timetableReasons_cases formed steady short ts with
    ⟨answer, -, notWeekend, -⟩ | ⟨answer, -, weekend⟩ | ⟨answer, -, other⟩
  · simp [answer, notWeekend]
  · simp [answer, weekend]
  · simp only [answer, reduceCtorEq, List.mem_singleton, and_false, or_false, false_iff]
    tauto

/-- A break is a reason exactly in a break outside the weekend, and where the clock has gone back
over the close. -/
theorem dailyBreak_mem_iff :
    .dailyBreak ∈ reasons ↔ c.WentBackOverClose ts ∨ (c.InBreak ts ∧ ¬ c.InWeekend ts) := by
  obtain rfl := Except.ok.inj (given.symm.trans (room.explain_eq healthy formed steady.toGentle))
  rw [List.mem_append, List.mem_ite_nil_right]
  rcases timetableReasons_cases formed steady short ts with
    ⟨answer, -, notWeekend, notBreak⟩ | ⟨answer, -, weekend⟩ | ⟨answer, -, other⟩
  · have notBack : ¬ c.WentBackOverClose ts := fun back => notWeekend back.inWeekend
    simp [answer, notBack, notBreak]
  · simp [answer, weekend]
  · simp [answer, other]

omit short in
/-- There is no reason exactly while the market is open. -/
theorem explain_eq_nil_iff : reasons = [] ↔ c.isOpen ts = .ok true := by
  obtain rfl := Except.ok.inj (given.symm.trans (room.explain_eq healthy formed steady.toGentle))
  rw [(room.ownDayRoom formed).isOpen_eq formed healthy steady.toGentle]
  cases held : c.closureAt? ts <;> simp [trades, timetableReasons, held]

end

/-- A broken calendar gives its own state as the reason, and no other does. -/
theorem explain_eq_calendarError_iff :
    c.explain ts = .ok [.calendarError] ↔ c.healthError ≠ none := by
  rw [Ne, healthError_eq_none]
  cases broken : c.isBroken with
  | true => simp [explain, broken]
  | false =>
      refine iff_of_false (fun only => ?_) (by simp)
      obtain ⟨scheduled, answered, split⟩ := (explain_eq_ok broken).1 only
      have listed : Reason.calendarError ∈
          (if (c.closureAt? ts).isSome then [.closedInterval] else []) ++ scheduled := by
        simp [← split]
      rw [List.mem_append, List.mem_ite_nil_right] at listed
      rcases listed with ⟨-, window⟩ | other
      · simp at window
      · simpa using mem_scheduleReasons answered other

/-- A clock that goes back over the close on a Friday: in 2021 the clock of Amman went from one
o'clock to midnight on the last Friday of October.  At ten past midnight for the second time, a
market that closed at half past gives a break as the reason, and no break holds the instant. -/
theorem explain_amman_friday :
    let c := create [] "amman" ⟨"Asia/Amman", "17:00", "00:30", "17:00", 5⟩ none
    c.healthError = none ∧ c.zone.Steady ∧ c.breakMinutes ≤ 2880 ∧ c.Roomy 1635459000000 ∧
      c.explain 1635459000000 = .ok [.dailyBreak] ∧ c.InWeekend 1635459000000 ∧
      ¬ c.InBreak 1635459000000 := by
  intro c
  have steady : c.zone.Steady := by decide +kernel
  have short : c.breakMinutes ≤ 2880 := by decide +kernel
  have friday : weekdayOf (c.zone.dayAt 1635459000000) = .friday := by decide +kernel
  have notSaturday : weekdayOf (c.zone.dayAt 1635459000000) ≠ .saturday := by simp [friday]
  have late : c.zone.firstAt (wallOf (c.zone.dayAt 1635459000000) c.weeklyClose) ≤
      1635459000000 := by decide +kernel
  have notBreak : ¬ c.InBreak 1635459000000 :=
    not_inBreak_iff.2 ((noBreak_iff create_wellFormed steady short notSaturday).2
      ⟨by decide +kernel, by decide +kernel⟩)
  exact ⟨by decide +kernel, steady, short, ⟨by decide, by decide +kernel⟩, by decide +kernel,
    .inr (.inr ⟨friday, late⟩), notBreak⟩

variable {windows : List Closure} {tag : String} {s : Settings} {profile : Option Profile}
  {z : Zone}

/-- The reasons are true.  A broken calendar gives its own state as the only reason.  Where the dates
leave room, a healthy one always answers: it gives no reason exactly while the market is open; a
closed window exactly if one of the given windows holds the instant; the weekend or a break, and not
both, exactly while the schedule is closed; the weekend only between the close of one week and the
open of the next; and a break only in a break, or on a Friday on which the clock has gone back over
the close. -/
theorem explain_truthful (steady : z.Steady)
    (short : (create windows tag s profile).breakMinutes ≤ 2880) :
    let c := (create windows tag s profile).inZone z
    (c.explain ts = .ok [.calendarError] ↔ c.healthError ≠ none) ∧
    (c.healthError = none → c.Roomy ts →
      ∃ reasons answer, c.explain ts = .ok reasons ∧ c.isOpen ts = .ok answer ∧
        (reasons = [] ↔ answer = true) ∧
        (.closedInterval ∈ reasons ↔
          ∃ w ∈ givenWindows windows profile, w.start ≤ ts ∧ ts < w.stop) ∧
        (¬ c.WeeklySchedule ts ↔ (.weekendClosed ∈ reasons ↔ .dailyBreak ∉ reasons)) ∧
        (c.WeeklySchedule ts ↔ .weekendClosed ∉ reasons ∧ .dailyBreak ∉ reasons) ∧
        (.weekendClosed ∈ reasons → c.InWeekend ts) ∧
        (.dailyBreak ∈ reasons → c.InBreak ts ∨ c.WentBackOverClose ts)) := by
  intro c
  refine ⟨explain_eq_calendarError_iff, fun health room => ?_⟩
  have formed : c.WellFormed := create_wellFormed.inZone z
  have healthy : c.isBroken = false := healthError_eq_none.1 health
  have explained := room.explain_eq healthy formed steady.toGentle
  have opened := (room.ownDayRoom formed).isOpen_eq formed healthy steady.toGentle
  have weekend := weekendClosed_mem_iff healthy formed room steady short explained
  have inBreak := dailyBreak_mem_iff healthy formed room steady short explained
  have back : c.WentBackOverClose ts → c.InWeekend ts := WentBackOverClose.inWeekend
  refine ⟨_, _, explained, opened, ?_, ?_, ?_, ?_, fun given => (weekend.1 given).1, fun given => ?_⟩
  · rw [explain_eq_nil_iff healthy formed room steady explained, opened, Except.ok.injEq]
  · have given : ∀ w, w ∈ c.closures ↔ w ∈ givenWindows windows profile :=
      mem_closures_create (show (create windows tag s profile).healthError = none from health)
    simp only [closedInterval_mem_iff healthy formed explained, given, Closure.holds_iff]
  · rw [weekend, inBreak, weeklySchedule_iff]
    tauto
  · rw [weekend, inBreak, weeklySchedule_iff]
    tauto
  · rcases inBreak.1 given with wentBack | ⟨inside, -⟩
    · exact .inr wentBack
    · exact .inl inside

/-- In New York a break of ten hours goes on into the Friday after Christmas, on which a closed
window holds as well. -/
theorem explain_newYork_friday :
    let c := (create [⟨1735257600000, 1735344000000⟩] "us"
      ⟨"America/New_York", "17:00", "17:00", "17:00", 600⟩ none).inZone newYork
    c.explain 1735279200000 = .ok [.closedInterval, .dailyBreak] ∧ c.InBreak 1735279200000 ∧
      ¬ c.WeeklySchedule 1735279200000 := by
  intro c
  have short : c.breakMinutes ≤ 2880 := by decide +kernel
  have room : c.Roomy 1735279200000 := ⟨by decide, by decide +kernel⟩
  have healthy : c.healthError = none := by decide +kernel
  have explained : c.explain 1735279200000 = .ok [.closedInterval, .dailyBreak] := by
    decide +kernel
  have notClosed : 1735279200000 <
      c.zone.firstAt (wallOf (c.zone.dayAt 1735279200000) c.weeklyClose) := by decide +kernel
  obtain ⟨reasons, -, given, -, -, -, -, opened, -, inBreak⟩ :=
    (explain_truthful newYork_steady short).2 healthy room
  obtain rfl := Except.ok.inj (given.symm.trans explained)
  refine ⟨explained, ?_, fun schedule => (opened.1 schedule).2 (by simp)⟩
  rcases inBreak (by simp) with inside | ⟨-, late, -⟩
  · exact inside
  · exact absurd late (not_le.2 notClosed)

end MarketBook.Calendar
