/-
Module: MarketBook.Proofs.Reopenings
Purpose: Behind a closed window the market opens again, and the next open is found unless other
  windows keep it closed for longer than the search reaches.
Main exports:
  Zone.Gentle.firstAt_lt_week_later, Calendar.Regular.exists_inTimetable, Calendar.RailsDated,
  Calendar.Regular.exists_trades_behind, Calendar.Regular.nextOpen_cases, Calendar.closed_in_window
-/
import MarketBook.Proofs.ClosedReasons
import MarketBook.Proofs.Transitions

namespace MarketBook

open Time Zone

/-!
Every Sunday has an open part, from the weekly open to midnight, unless the clock skips all of it.
A clock that has just jumped runs on for seven days, so it cannot skip the same part of the next
Sunday.  Hence the schedule is open again within three weeks of any instant, and so is the market
once its last closed window is over.  The search for that opening looks at sixty windows of a week;
where closed windows follow each other for longer, it ends without an answer.
-/

/-- Wall times that are skipped together are told apart a week later. -/
theorem Zone.Gentle.firstAt_lt_week_later {z : Zone} (gentle : z.Gentle) {wall later : Int}
    (before : wall < later) (skipped : z.firstAt wall = z.firstAt later) :
    z.firstAt (wall + weekMs) < z.firstAt (later + weekMs) := by
  have early := gentle.wallAt_before_firstAt wall
  have reached := gentle.le_wallAt_firstAt later
  have step := (gentle.wallAt_near (s := z.firstAt wall - 1) (t := z.firstAt wall) (by omega)
    (by simp only [weekMs, dayMs]; omega)).1
  rw [← skipped] at reached
  have runs := (gentle.wallAt_jump (r := z.firstAt wall) (by omega)).2
  have last := runs (z.firstAt wall + weekMs - 1) (by simp only [weekMs, dayMs]; omega) (by omega)
  have bound : z.firstAt (wall + weekMs) ≤ z.firstAt wall + weekMs - 1 :=
    gentle.firstAt_le (by omega)
  by_contra together
  have same : z.firstAt (later + weekMs) = z.firstAt (wall + weekMs) :=
    le_antisymm (not_lt.1 together) (gentle.firstAt_mono (by omega))
  have shown := gentle.le_wallAt_firstAt (later + weekMs)
  have justBefore := gentle.wallAt_before_firstAt (wall + weekMs)
  rw [same] at shown
  have ahead : z.firstAt wall < z.firstAt (wall + weekMs) := by
    by_contra notAhead
    have atMost := runs (z.firstAt wall) le_rfl (by simp only [weekMs, dayMs]; omega)
    rcases (not_lt.1 notAhead).eq_or_lt with here | earlier
    · rw [here] at shown
      simp only [weekMs, dayMs, maxShift, minuteMs] at *
      omega
    · have := gentle.wallAt_lt_of_lt earlier
      simp only [weekMs, dayMs] at *
      omega
  have here := runs (z.firstAt (wall + weekMs)) ahead.le (by omega)
  have justThere := runs (z.firstAt (wall + weekMs) - 1) (by omega) (by omega)
  omega

namespace Calendar

variable {c : Calendar} {ts o day : Int} {w : Closure}

/-! ### The schedule of a Sunday -/

theorem weekdayOf_after_saturday (saturday : weekdayOf day = .saturday) :
    weekdayOf (day + 1) = .sunday := by
  rw [weekdayOf_eq_saturday] at saturday
  have next : weekIndex (day + 1) = 6 := by
    simp only [weekIndex] at *
    omega
  simp [weekdayOf, next]

/-- On a Sunday of which the clock shows anything from the weekly open on, the timetable opens. -/
theorem Regular.inTimetable_sunday (regular : c.Regular) (saturday : weekdayOf (day - 1) = .saturday)
    (shown : c.zone.firstAt (wallOf day c.weeklyOpen) < c.zone.firstAt ((day + 1) * dayMs)) :
    c.inTimetable (c.zone.firstAt (wallOf day c.weeklyOpen)) = true := by
  have steady := regular.steady
  have sunday : weekdayOf day = .sunday := by
    have := weekdayOf_after_saturday saturday
    rwa [Int.sub_add_cancel] at this
  have begun : c.zone.firstAt (day * dayMs) ≤ c.zone.firstAt (wallOf day c.weeklyOpen) :=
    steady.firstAt_mono (midnight_le_wallOf day c.weeklyOpen)
  have today : c.zone.dayAt (c.zone.firstAt (wallOf day c.weeklyOpen)) = day := by
    have := steady.midnight_le_iff.1 begun
    have := steady.lt_midnight_iff.1 shown
    omega
  have noSpill : c.spillStop? day = none := by
    have free : ¬ hasBreak (day - 1) = true := by
      rw [hasBreak_iff, weekdayOf_eq_saturday.1 saturday]
      decide
    simp [spillStop?, free]
  rw [inTimetable_iff, holds_tradingSpans_iff steady.toGentle, today]
  refine ⟨⟨⟨wallOf day c.weeklyOpen, (day + 1) * dayMs⟩, ?_, ?_⟩, ?_⟩
  · simp [ruleWalls, sunday]
  · exact Span.holds_iff.2 ⟨le_rfl, shown⟩
  · simp [noSpill]

/-- Of two Sundays in a row one has an open part, so the timetable opens within three weeks. -/
theorem Regular.exists_inTimetable (regular : c.Regular) (ts : Int) :
    ∃ o, ts < o ∧ o < ts + 3 * weekMs ∧ c.inTimetable o = true := by
  have steady := regular.steady
  obtain ⟨saturday, after, near, isSaturday⟩ := exists_saturday (c.zone.dayAt ts)
  have ahead : c.zone.dayAt ts + 18 ≤ c.zone.dayAt (ts + 3 * weekMs) := by
    have first := steady.dayAt_add_days ts (n := 7) (by omega) le_rfl
    have second := steady.dayAt_add_days (ts + 7 * dayMs) (n := 7) (by omega) le_rfl
    have third := steady.dayAt_add_days (ts + 7 * dayMs + 7 * dayMs) (n := 7) (by omega) le_rfl
    rw [show ts + 3 * weekMs = ts + 7 * dayMs + 7 * dayMs + 7 * dayMs by
      simp only [weekMs]; omega]
    omega
  have opens : ∀ day, saturday < day → day ≤ saturday + 8 → weekdayOf (day - 1) = .saturday →
      c.zone.firstAt (wallOf day c.weeklyOpen) < c.zone.firstAt ((day + 1) * dayMs) →
      ∃ o, ts < o ∧ o < ts + 3 * weekMs ∧ c.inTimetable o = true := by
    intro day late early before shown
    have begun : ts < c.zone.firstAt (wallOf day c.weeklyOpen) :=
      lt_of_lt_of_le (steady.lt_midnight_iff.2 (by omega))
        (steady.firstAt_mono (midnight_le_wallOf day c.weeklyOpen))
    have ended : c.zone.firstAt (wallOf day c.weeklyOpen) < ts + 3 * weekMs :=
      lt_of_lt_of_le shown (steady.midnight_le_iff.2 (by omega))
    exact ⟨_, begun, ended, regular.inTimetable_sunday before shown⟩
  by_cases shown : c.zone.firstAt (wallOf (saturday + 1) c.weeklyOpen) <
      c.zone.firstAt ((saturday + 1 + 1) * dayMs)
  · exact opens (saturday + 1) (by omega) (by omega) (by rwa [Int.add_sub_cancel]) shown
  · -- the clock skips this Sunday from its weekly open on, and shows the next one
    have inDay := wallOf_lt_midnight regular.formed.weeklyOpen (saturday + 1)
    have skipped : c.zone.firstAt (wallOf (saturday + 1) c.weeklyOpen) =
        c.zone.firstAt ((saturday + 1 + 1) * dayMs) :=
      le_antisymm (steady.firstAt_mono inDay.le) (not_lt.1 shown)
    have next := steady.firstAt_lt_week_later inDay skipped
    have open' : wallOf (saturday + 1) c.weeklyOpen + weekMs =
        wallOf (saturday + 8) c.weeklyOpen := by
      simp only [wallOf, weekMs]
      ring
    have midnight : (saturday + 1 + 1) * dayMs + weekMs = (saturday + 8 + 1) * dayMs := by
      simp only [weekMs]
      ring
    rw [open', midnight] at next
    refine opens (saturday + 8) (by omega) le_rfl ?_ next
    rw [weekdayOf_eq_saturday] at isSaturday ⊢
    simp only [weekIndex] at *
    omega

/-! ### Behind closed windows -/

/-- The dates reach as far behind the last time stamp on the rails as a search looks, and behind that
the length of a break. -/
def RailsDated (c : Calendar) : Prop :=
  hasDate (lastOnRails + 62 * weekMs + c.breakMinutes * minuteMs) = true

section

variable (regular : c.Regular)

include regular

/-- A window that holds an instant lies far from the limits of the dates. -/
theorem Regular.far_of_holds (railsDated : c.RailsDated) (hw : w ∈ c.closures)
    (held : w.holds ts = true) : c.FarFromLimits ts := by
  have positive := regular.formed.breakMinutes
  obtain ⟨startOnRails, stopOnRails, -⟩ := regular.formed.sound w hw
  rw [onRails_iff] at startOnRails stopOnRails
  rw [Closure.holds_iff] at held
  have railsEnd := hasDate_iff.1 railsDated
  refine ⟨hasDate_iff.2 ?_, hasDate_iff.2 ?_, railsDated⟩ <;>
    simp only [firstOnRails, lastOnRails, firstDated, lastDated, weekMs, dayMs, minuteMs] at * <;>
    omega

/-- Within three weeks of the last closed window the market is open again. -/
theorem Regular.exists_trades_behind (last : ∀ v ∈ c.closures, v.stop ≤ w.stop) :
    ∃ o, w.stop ≤ o ∧ o < w.stop + 3 * weekMs ∧ c.trades o = true := by
  obtain ⟨o, after, before, opened⟩ := regular.exists_inTimetable w.stop
  refine ⟨o, after.le, before, regular.formed.trades_iff.2 ⟨?_, opened⟩⟩
  intro v hv
  rw [not_holds_iff]
  have := last v hv
  omega

/-- There is room for three weeks behind a closed window. -/
theorem Regular.roomy_behind (railsDated : c.RailsDated) (hw : w ∈ c.closures) (late : w.stop ≤ o)
    (near : o < w.stop + 3 * weekMs) : c.Roomy o := by
  have positive := regular.formed.breakMinutes
  have stopOnRails := onRails_iff.1 (regular.formed.sound w hw).2.1
  have railsEnd := hasDate_iff.1 railsDated
  refine ⟨hasDate_iff.2 ?_, hasDate_iff.2 ?_⟩ <;>
    simp only [firstOnRails, lastOnRails, firstDated, lastDated, weekMs, dayMs, minuteMs] at * <;>
    omega

theorem Regular.searchFrom_of_holds (hw : w ∈ c.closures) (held : w.holds ts = true) :
    c.searchFrom ts = w.stop := by
  have inside := Closure.holds_iff.1 held
  exact regular.searchFrom_eq (Or.inl ⟨w, hw, inside.1, inside.2, rfl⟩)

/-- The next open after an instant of a closed window is an opening behind the window; or the
market stays closed for as long as the search reaches, and the answer is the instant itself. -/
theorem Regular.nextOpen_cases (railsDated : c.RailsDated) (hw : w ∈ c.closures)
    (held : w.holds ts = true) :
    ∃ next, c.nextOpen ts = .ok next ∧
      ((w.stop ≤ next ∧ c.isOpen next = .ok true) ∨
        (next = ts ∧
          ∀ o, w.stop ≤ o → o < w.stop + maxHops * hopMs → c.isOpen o = .ok false)) := by
  have far := regular.far_of_holds railsDated hw held
  obtain ⟨room, lastRoom⟩ := regular.searched_roomy far
  have start := regular.searchFrom_of_holds hw held
  obtain ⟨answer, searched, spec⟩ := regular.findRunStart_spec room lastRoom
  rw [start] at spec room lastRoom
  cases answer with
  | some found =>
      exact ⟨found, by simp [nextOpen, regular.healthy, searched], Or.inl ⟨spec.1.1.1, spec.2⟩⟩
  | none =>
      refine ⟨ts, by simp [nextOpen, regular.healthy, searched], Or.inr ⟨rfl, fun o late near => ?_⟩⟩
      rw [regular.isOpen_eq (room.between lastRoom late near.le), Except.ok.injEq]
      by_contra opened
      have inside := Closure.holds_iff.1 held
      have closed : c.trades (w.stop - 1) = false :=
        regular.closed_before_search (show ts ≤ w.stop - 1 by omega) (by omega)
      obtain ⟨first, after, notAfter, begins⟩ :=
        exists_begins closed (Bool.not_eq_false _ ▸ opened) (by omega)
      have := spec first (by omega) begins
      omega

end

variable {windows : List Closure} {tag : String} {description : Settings}
  {profile : Option Profile} {z : Zone}

/-- In a closed window the market is closed and says why.  The next open lies behind the window and
is open, unless nothing is open for 420 days behind the window; the answer may then be the instant
itself.  Behind the last of its closed windows every healthy calendar is open again within three
weeks. -/
theorem closed_in_window
    (healthy : (create windows tag description profile).healthError = none) (steady : z.Steady)
    (railsDated : ((create windows tag description profile).inZone z).RailsDated)
    (hw : w ∈ (create windows tag description profile).closures) (after : w.start ≤ ts)
    (before : ts < w.stop) :
    let c := (create windows tag description profile).inZone z
    c.isOpen ts = .ok false ∧ (∃ reasons, c.explain ts = .ok reasons ∧ .closedInterval ∈ reasons) ∧
    (∃ next, c.nextOpen ts = .ok next ∧
      ((w.stop ≤ next ∧ c.isOpen next = .ok true) ∨
        (next = ts ∧ ∀ o, w.stop ≤ o → o < w.stop + 420 * dayMs → c.isOpen o = .ok false))) ∧
    ∀ last ∈ c.closures, (∀ v ∈ c.closures, v.stop ≤ last.stop) →
      ∃ o, last.stop ≤ o ∧ o < last.stop + 21 * dayMs ∧ c.isOpen o = .ok true := by
  intro c
  have regular : c.Regular := create_regular healthy steady
  have held : w.holds ts = true := Closure.holds_iff.2 ⟨after, before⟩
  have found : c.closureAt? ts = some w := regular.formed.closureAt?_eq_some.2 ⟨hw, held⟩
  have room := regular.roomy_of_far (regular.far_of_holds railsDated hw held)
  have explained := room.explain_eq regular.healthy regular.formed steady.toGentle
  refine ⟨?_, ⟨_, explained, ?_⟩, regular.nextOpen_cases railsDated hw held,
    fun last hlast behind => ?_⟩
  · simp [isOpen, found]
  · simp [found]
  · obtain ⟨o, late, near, trades⟩ := regular.exists_trades_behind behind
    refine ⟨o, late, near, ?_⟩
    rw [regular.isOpen_eq (regular.roomy_behind railsDated hlast late near), trades]

/-- Between Christmas and the end of the next day in New York, in windows that touch. -/
theorem closed_newYork_christmas :
    let c := (create [⟨1735171200000, 1735257600000⟩, ⟨1735084800000, 1735171200000⟩] "us" .standard
      none).inZone newYork
    c.isOpen 1735100000000 = .ok false ∧
      (∃ reasons, c.explain 1735100000000 = .ok reasons ∧ .closedInterval ∈ reasons) ∧
      (∃ next, c.nextOpen 1735100000000 = .ok next ∧ 1735171200000 ≤ next ∧
        c.isOpen next = .ok true) ∧
      ∃ o, 1735257600000 ≤ o ∧ o < 1735257600000 + 21 * dayMs ∧ c.isOpen o = .ok true := by
  intro c
  have healthy : c.healthError = none := by decide +kernel
  have railsDated : c.RailsDated := by
    unfold RailsDated
    decide +kernel
  have held : ⟨1735084800000, 1735171200000⟩ ∈ c.closures := by decide +kernel
  have lastHeld : ⟨1735171200000, 1735257600000⟩ ∈ c.closures := by decide +kernel
  have opened : c.isOpen 1735257600000 = .ok true := by decide +kernel
  have after : (1735084800000 : Int) ≤ 1735100000000 := by decide
  have before : (1735100000000 : Int) < 1735171200000 := by decide
  obtain ⟨closed, reason, ⟨next, found, reopens⟩, again⟩ :=
    closed_in_window healthy newYork_steady railsDated held after before
  have notEndless : ¬ ∀ o, 1735171200000 ≤ o → o < 1735171200000 + 420 * dayMs →
      c.isOpen o = .ok false := by
    intro none
    rw [none 1735257600000 (by decide) (by decide)] at opened
    cases opened
  obtain ⟨late, isOpen⟩ := reopens.resolve_right fun endless => notEndless endless.2
  exact ⟨closed, reason, ⟨next, found, late, isOpen⟩, again _ lastHeld (by decide +kernel)⟩

/-- A day that closes is followed at once by a window of five hundred days, and the next open from
that day is the instant itself, which lies before the window's end.  A break of all the minutes that
64 bits can count stops the question. -/
theorem nextOpen_before_long_closure :
    let c := create [⟨1735689600000, 1735776000000⟩, ⟨1735776000000, 1778976000000⟩] "utc"
      ⟨"UTC", "22:00", "22:00", "22:00", 5⟩ none
    let long := create [⟨1735689600000, 1735776000000⟩] "utc"
      ⟨"UTC", "22:00", "22:00", "22:00", 9223372036854775807⟩ none
    (c.healthError = none ∧ c.zone.Steady ∧ ⟨1735689600000, 1735776000000⟩ ∈ c.closures ∧
      1735689600000 ≤ (1735700000000 : Int) ∧ (1735700000000 : Int) < 1735776000000 ∧
      c.nextOpen 1735700000000 = .ok 1735700000000) ∧
    long.healthError = none ∧ long.zone.Steady ∧ ⟨1735689600000, 1735776000000⟩ ∈ long.closures ∧
      long.explain 1735700000000 = .error .wall ∧ long.nextOpen 1735700000000 = .error .wall := by
  decide +kernel

end Calendar

end MarketBook
