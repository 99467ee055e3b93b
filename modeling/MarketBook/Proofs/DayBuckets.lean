/-
Module: MarketBook.Proofs.DayBuckets
Purpose: Every instant lies in exactly one bucket of a timeframe, and the buckets follow one another
  without a gap; those of a day run from one start of a trading day to the next.
Main exports:
  Calendar.IsDayStart, Calendar.WeekDated, Calendar.WidthFits, Calendar.Regular.dayBoundary_spec,
  Calendar.Regular.nextDayBoundary_spec, Calendar.Regular.boundaries_near,
  Calendar.undated_outside_bucket, Calendar.buckets_tile
-/
import MarketBook.Calendar.Bucket
import MarketBook.Proofs.Transitions

namespace MarketBook.Calendar

open Time Zone

/-!
A boundary is looked for among two neighbouring days only.  That is enough, because the start of a
trading day never leaves the instants of its own local day by more than a gap at midnight: by the
first instant of a date the trading days of all earlier dates have started, and none of a later date
has.  So one of the two days always gives the last start up to an instant, and the next start after
it; and between these two neither of them moves.
-/

/-- A trading day starts at the instant: the clock shows the start of the break of some day, or a
later time, for the first time. -/
def IsDayStart (c : Calendar) (start : Int) : Prop :=
  ∃ day, IsLeast {t | c.breakFrom day ≤ c.zone.wallAt t} start

/-- The dates have room around the starts of the trading days of two dates: of the one before that of
an instant, and of the one after it. -/
def StartRoom (c : Calendar) (ts : Int) : Prop :=
  WallRoom (c.breakFrom (c.zone.dayAt ts - 1)) ∧ WallRoom (c.breakFrom (c.zone.dayAt ts + 1))

/-- The date type reaches a week to both sides of the instant. -/
def WeekDated (ts : Int) : Prop :=
  hasDate (ts - weekMs) = true ∧ hasDate (ts + weekMs) = true

/-- 64 bits hold the multiples of the width around the instant. -/
def WidthFits (tf : Timeframe) (ts : Int) : Prop :=
  Text.isSigned64 (ts - ts % tf.ms) = true ∧ Text.isSigned64 (ts - ts % tf.ms + tf.ms) = true

variable {c : Calendar} {day ts t : Int}

/-! ### The starts of trading days -/

theorem dayStart?_eq (gentle : c.zone.Gentle) (room : WallRoom (c.breakFrom day)) :
    c.dayStart? day = .ok (some (c.zone.firstAt (c.breakFrom day))) :=
  gentle.boundInstant?_eq_firstAt (wallOf_whole day c.breakStart) room

theorem isDayStart_iff (gentle : c.zone.Gentle) {start : Int} :
    c.IsDayStart start ↔ ∃ day, start = c.zone.firstAt (c.breakFrom day) := by
  constructor
  · rintro ⟨day, least⟩
    exact ⟨day, least.unique (gentle.firstAt_isLeast _)⟩
  · rintro ⟨day, rfl⟩
    exact ⟨day, gentle.firstAt_isLeast _⟩

/-- The starts of trading days follow one another as the days do. -/
theorem breakFrom_mono {later : Int} (h : day ≤ later) : c.breakFrom day ≤ c.breakFrom later := by
  simp only [breakFrom, wallOf, dayMs]
  omega

/-- The trading day of a date that is over has started. -/
theorem Regular.dayStart_le (regular : c.Regular) (h : day < c.zone.dayAt ts) :
    c.zone.firstAt (c.breakFrom day) ≤ ts := by
  apply firstAt_le_of_le_midnight regular.steady
  have before := wallOf_lt_midnight regular.formed.breakStart day
  simp only [breakFrom, dayMs] at before ⊢
  omega

/-- The trading day of a date that has not begun has not started. -/
theorem Regular.lt_dayStart (regular : c.Regular) (h : c.zone.dayAt ts < day) :
    ts < c.zone.firstAt (c.breakFrom day) := by
  apply lt_firstAt_of_midnight_le regular.steady
  have after := midnight_le_wallOf day c.breakStart
  simp only [breakFrom, dayMs] at after ⊢
  omega

/-- Of two starts that are in order the first is that of the earlier day. -/
theorem Regular.day_lt_of_start (regular : c.Regular) {later : Int}
    (h : c.zone.firstAt (c.breakFrom day) < c.zone.firstAt (c.breakFrom later)) : day < later := by
  by_contra notLater
  have := regular.steady.firstAt_mono (breakFrom_mono (c := c) (not_lt.1 notLater))
  omega

/-- The trading day of a date starts on that date or, after a gap, at the start of the next one. -/
theorem Regular.dayAt_dayStart (regular : c.Regular) (day : Int) :
    day ≤ c.zone.dayAt (c.zone.firstAt (c.breakFrom day)) ∧
      c.zone.dayAt (c.zone.firstAt (c.breakFrom day)) ≤ day + 1 := by
  have steady := regular.steady
  have after := midnight_le_wallOf day c.breakStart
  have before := wallOf_lt_midnight regular.formed.breakStart day
  constructor
  · rw [← steady.midnight_le_iff]
    exact steady.firstAt_mono after
  · rw [← steady.dayAt_midnight (day + 1)]
    exact steady.dayAt_mono (steady.firstAt_mono before.le)

/-! ### The boundaries -/

/-- Whatever lies between the two starts, and a day to both sides of them, has a date. -/
theorem StartRoom.dated (room : c.StartRoom ts) {y : Int}
    (after : c.breakFrom (c.zone.dayAt ts - 1) - dayMs ≤ y)
    (before : y ≤ c.breakFrom (c.zone.dayAt ts + 1) + dayMs) : hasDate y = true :=
  hasDate_between room.1.1 room.2.2 after (by simp only [maxShift, minuteMs]; omega)

/-- Where there is room around the start of a trading day, its date has a midnight. -/
theorem WellFormed.midnight_dated (formed : c.WellFormed) (room : WallRoom (c.breakFrom day)) :
    hasDate (day * dayMs) = true := by
  have after := midnight_le_wallOf day c.breakStart
  have before := wallOf_lt_midnight formed.breakStart day
  refine hasDate_between room.1 room.2 ?_ ?_ <;>
    simp only [breakFrom, dayMs, maxShift, minuteMs] at * <;> omega

section

variable (regular : c.Regular) (room : c.StartRoom ts)

include regular room

theorem Regular.hasDate_of_startRoom : hasDate ts = true := by
  have offset := c.zone.wallAt_bounds ts
  have before := wallOf_lt_midnight regular.formed.breakStart (c.zone.dayAt ts - 1)
  have after := midnight_le_wallOf (c.zone.dayAt ts + 1) c.breakStart
  apply room.dated <;> simp only [breakFrom, dayAt, dayMs] at * <;> omega

theorem Regular.ownStart?_eq :
    c.ownStart? ts = .ok (some (c.zone.dayAt ts, c.zone.firstAt (c.breakFrom (c.zone.dayAt ts)))) := by
  have inDay := wallOf_lt_midnight regular.formed.breakStart (c.zone.dayAt ts - 1)
  have after := midnight_le_wallOf (c.zone.dayAt ts + 1) c.breakStart
  have shown : hasDate (c.zone.wallAt ts) = true := by
    apply room.dated <;> simp only [breakFrom, dayAt, dayMs] at * <;> omega
  have own : WallRoom (c.breakFrom (c.zone.dayAt ts)) :=
    room.1.between room.2 (breakFrom_mono (by omega)) (breakFrom_mono (by omega))
  have day : c.dayOf? ts = .ok (some (c.zone.dayAt ts)) := by
    simp [dayOf?, wallAt?, regular.hasDate_of_startRoom room, checkWall_eq shown, dayAt]
  simp [ownStart?, day, dayStart?_eq regular.steady.toGentle own]

theorem Regular.startBefore_eq :
    c.neighbourStart? (dayBefore? (c.zone.dayAt ts)) =
      .ok (some (c.zone.firstAt (c.breakFrom (c.zone.dayAt ts - 1)))) := by
  simp only [dayBefore?_eq (regular.formed.midnight_dated room.1), neighbourStart?,
    dayStart?_eq regular.steady.toGentle room.1]

theorem Regular.startAfter_eq :
    c.neighbourStart? (dayAfter? (c.zone.dayAt ts)) =
      .ok (some (c.zone.firstAt (c.breakFrom (c.zone.dayAt ts + 1)))) := by
  simp only [dayAfter?_eq (regular.formed.midnight_dated room.2), neighbourStart?,
    dayStart?_eq regular.steady.toGentle room.2]

/-- The boundary at an instant is the last start of a trading day up to it. -/
theorem Regular.dayBoundary_spec :
    ∃ b, c.dayBoundary ts = .ok b ∧ IsGreatest {b | c.IsDayStart b ∧ b ≤ ts} b := by
  have gentle := regular.steady.toGentle
  simp only [dayBoundary, regular.healthy, regular.ownStart?_eq room, regular.startBefore_eq room,
    Checked.ok_bind, Bool.false_eq_true, if_false]
  split
  case isTrue started =>
    refine ⟨_, rfl, ⟨(isDayStart_iff gentle).2 ⟨_, rfl⟩, started⟩, ?_⟩
    rintro b ⟨start, upTo⟩
    obtain ⟨day, rfl⟩ := (isDayStart_iff gentle).1 start
    apply regular.steady.firstAt_mono (breakFrom_mono _)
    by_contra later
    have := regular.lt_dayStart (not_le.1 later)
    omega
  case isFalse notStarted =>
    refine ⟨_, rfl, ⟨(isDayStart_iff gentle).2 ⟨_, rfl⟩, regular.dayStart_le (by omega)⟩, ?_⟩
    rintro b ⟨start, upTo⟩
    obtain ⟨day, rfl⟩ := (isDayStart_iff gentle).1 start
    have earlier := regular.day_lt_of_start (lt_of_le_of_lt upTo (not_le.1 notStarted))
    exact regular.steady.firstAt_mono (breakFrom_mono (by omega))

/-- The next boundary is the first start of a trading day behind the instant. -/
theorem Regular.nextDayBoundary_spec :
    ∃ b, c.nextDayBoundary ts = .ok b ∧ IsLeast {b | c.IsDayStart b ∧ ts < b} b := by
  have gentle := regular.steady.toGentle
  simp only [nextDayBoundary, regular.healthy, regular.ownStart?_eq room, regular.startAfter_eq room,
    Checked.ok_bind, Bool.false_eq_true, if_false]
  split
  case isTrue notStarted =>
    refine ⟨_, rfl, ⟨(isDayStart_iff gentle).2 ⟨_, rfl⟩, notStarted⟩, ?_⟩
    rintro b ⟨start, behind⟩
    obtain ⟨day, rfl⟩ := (isDayStart_iff gentle).1 start
    apply regular.steady.firstAt_mono (breakFrom_mono _)
    by_contra earlier
    have := regular.dayStart_le (not_le.1 earlier)
    omega
  case isFalse started =>
    refine ⟨_, rfl, ⟨(isDayStart_iff gentle).2 ⟨_, rfl⟩, regular.lt_dayStart (by omega)⟩, ?_⟩
    rintro b ⟨start, behind⟩
    obtain ⟨day, rfl⟩ := (isDayStart_iff gentle).1 start
    have later := regular.day_lt_of_start (lt_of_le_of_lt (not_lt.1 started) behind)
    exact regular.steady.firstAt_mono (breakFrom_mono (by omega))

end

/-- Both boundaries of an instant lie on dates near its own. -/
theorem Regular.boundaries_near (regular : c.Regular) {last next : Int}
    (greatest : IsGreatest {b | c.IsDayStart b ∧ b ≤ ts} last)
    (least : IsLeast {b | c.IsDayStart b ∧ ts < b} next) :
    c.zone.dayAt ts - 1 ≤ c.zone.dayAt last ∧ c.zone.dayAt next ≤ c.zone.dayAt ts + 2 := by
  have steady := regular.steady
  have isStart : ∀ day, c.IsDayStart (c.zone.firstAt (c.breakFrom day)) := fun day =>
    (isDayStart_iff steady.toGentle).2 ⟨day, rfl⟩
  constructor
  · have started : c.zone.firstAt (c.breakFrom (c.zone.dayAt ts - 1)) ≤ last :=
      greatest.2 ⟨isStart _, regular.dayStart_le (by omega)⟩
    exact (regular.dayAt_dayStart _).1.trans (steady.dayAt_mono started)
  · have follows : next ≤ c.zone.firstAt (c.breakFrom (c.zone.dayAt ts + 1)) :=
      least.2 ⟨isStart _, regular.lt_dayStart (by omega)⟩
    have onDate := (regular.dayAt_dayStart (c.zone.dayAt ts + 1)).2
    exact (steady.dayAt_mono follows).trans (by omega)

/-- A week of dates to both sides is room for the trading days of every date in question. -/
theorem Regular.startRoom (regular : c.Regular) (dated : WeekDated ts)
    (late : c.zone.dayAt ts - 1 ≤ c.zone.dayAt t) (early : c.zone.dayAt t ≤ c.zone.dayAt ts + 2) :
    c.StartRoom t := by
  have offset := c.zone.wallAt_bounds ts
  have first := midnight_le_wallOf (c.zone.dayAt t - 1) c.breakStart
  have firstInDay := wallOf_lt_midnight regular.formed.breakStart (c.zone.dayAt t - 1)
  have last := midnight_le_wallOf (c.zone.dayAt t + 1) c.breakStart
  have lastInDay := wallOf_lt_midnight regular.formed.breakStart (c.zone.dayAt t + 1)
  have day : c.zone.dayAt ts = c.zone.wallAt ts / dayMs := rfl
  refine ⟨⟨?_, ?_⟩, ?_, ?_⟩ <;> apply hasDate_between dated.1 dated.2 <;>
    simp only [breakFrom, weekMs, dayMs, maxShift, minuteMs] at * <;> omega

/-! ### Buckets -/

/-- The last element up to an instant is also the last one up to any later instant that lies before
the next element. -/
theorem isGreatest_between {elements : Set Int} {last next : Int}
    (greatest : IsGreatest {b | b ∈ elements ∧ b ≤ ts} last)
    (least : IsLeast {b | b ∈ elements ∧ ts < b} next) (after : last ≤ t) (before : t < next) :
    IsGreatest {b | b ∈ elements ∧ b ≤ t} last := by
  refine ⟨⟨greatest.1.1, after⟩, ?_⟩
  rintro b ⟨isElement, upTo⟩
  by_contra behind
  have late : ts < b := by
    by_contra early
    exact behind (greatest.2 ⟨isElement, not_lt.1 early⟩)
  have := least.2 ⟨isElement, late⟩
  omega

/-- The next element behind an instant is also the next one behind the last element up to it. -/
theorem isLeast_behind_last {elements : Set Int} {last next : Int}
    (greatest : IsGreatest {b | b ∈ elements ∧ b ≤ ts} last)
    (least : IsLeast {b | b ∈ elements ∧ ts < b} next) :
    IsLeast {b | b ∈ elements ∧ last < b} next := by
  refine ⟨⟨least.1.1, lt_of_le_of_lt greatest.1.2 least.1.2⟩, ?_⟩
  rintro b ⟨isElement, behind⟩
  apply least.2 ⟨isElement, _⟩
  by_contra early
  have := greatest.2 ⟨isElement, not_lt.1 early⟩
  omega

/-- The buckets of a fixed width follow one another without a gap. -/
theorem fixed_tiles (tf : Timeframe) (ts : Int) :
    ts - ts % tf.ms ≤ ts ∧ ts < ts - ts % tf.ms + tf.ms ∧
      (∀ t, ts - ts % tf.ms ≤ t → t < ts - ts % tf.ms + tf.ms → t - t % tf.ms = ts - ts % tf.ms) ∧
      (ts - ts % tf.ms + tf.ms) % tf.ms = 0 := by
  refine ⟨?_, ?_, fun t after before => ?_, ?_⟩ <;> cases tf <;> simp only [Timeframe.ms] at * <;>
    omega

theorem bucketOpen_fixed {tf : Timeframe} (fixed : tf ≠ .d1) (ts : Int) (calendar : Option Calendar) :
    bucketOpen tf ts calendar = (do return .ok (← Bucket.openOf tf ts)) := by
  cases tf <;> first | rfl | exact absurd (Eq.refl Timeframe.d1) fixed

theorem bucketClose_fixed {tf : Timeframe} (fixed : tf ≠ .d1) (opened : Int)
    (calendar : Option Calendar) :
    bucketClose tf opened calendar = (do return .ok (← Bucket.lastOf tf opened)) := by
  cases tf <;> first | rfl | exact absurd (Eq.refl Timeframe.d1) fixed

variable {windows : List Closure} {tag : String} {s : Settings} {profile : Option Profile} {z : Zone}

/-- An instant without a date is the start of its own bucket, which ends before it: no bucket of a
day holds it.  The least number of 64 bits lies in no bucket of a minute, since that would start
below it. -/
theorem undated_outside_bucket :
    let c := create [] "utc" { Settings.standard with zoneName := "UTC" } none
    (c.healthError = none ∧ c.zone.Steady ∧
      ∃ opened closed, bucketOpen .d1 9000000000000000 (some c) = .ok (.ok opened) ∧
        bucketClose .d1 opened (some c) = .ok (.ok closed) ∧
        ¬ (opened ≤ 9000000000000000 ∧ 9000000000000000 ≤ closed)) ∧
      bucketOpen .m1 (-9223372036854775808) none = .error .word := by
  intro c
  refine ⟨⟨by decide +kernel, by decide +kernel, 9000000000000000, 8999999999999999, ?_, ?_, ?_⟩, ?_⟩
  · decide +kernel
  · decide +kernel
  · decide
  · decide +kernel

/-- Buckets tile the time line: each instant lies between the start and the end of its bucket, all
instants between these have the same start, and the instant behind the end starts the next bucket.
The buckets of a day, by a healthy calendar in any steady zone and away from the limits of the date
type, start exactly where trading days do; those of a fixed width are whole as long as 64 bits hold
both of their ends. -/
theorem buckets_tile {tf : Timeframe} {calendar : Option Calendar}
    (fixed : tf ≠ .d1 → WidthFits tf ts)
    (daily : tf = .d1 → (create windows tag s profile).healthError = none ∧ z.Steady ∧
      WeekDated ts ∧ calendar = some ((create windows tag s profile).inZone z)) :
    ∃ opened closed, bucketOpen tf ts calendar = .ok (.ok opened) ∧
      bucketClose tf opened calendar = .ok (.ok closed) ∧ opened ≤ ts ∧ ts ≤ closed ∧
      (∀ t, opened ≤ t → t ≤ closed → bucketOpen tf t calendar = .ok (.ok opened)) ∧
      bucketOpen tf (closed + 1) calendar = .ok (.ok (closed + 1)) ∧
      (tf = .d1 → ∀ c, calendar = some c →
        c.dayBoundary ts = .ok opened ∧ IsGreatest {b | c.IsDayStart b ∧ b ≤ ts} opened ∧
        c.nextDayBoundary ts = .ok (closed + 1) ∧
          IsLeast {b | c.IsDayStart b ∧ ts < b} (closed + 1)) := by
  by_cases width : tf = .d1
  case neg =>
    obtain ⟨startFits, stopFits⟩ := fixed width
    obtain ⟨started, notOver, same, next⟩ := fixed_tiles tf ts
    refine ⟨ts - ts % tf.ms, ts - ts % tf.ms + tf.ms - 1, ?_, ?_, started, by omega,
      fun t after before => ?_, ?_, fun daily => absurd daily width⟩
    · simp [bucketOpen_fixed width, Bucket.openOf, checkWord_eq startFits]
    · simp [bucketClose_fixed width, Bucket.lastOf, checkWord_eq stopFits]
    · simp [bucketOpen_fixed width, Bucket.openOf, same t after (by omega), checkWord_eq startFits]
    · simp [bucketOpen_fixed width, Bucket.openOf, next, checkWord_eq stopFits]
  case pos =>
    subst width
    obtain ⟨healthy, steady, dated, rfl⟩ := daily rfl
    set c := (create windows tag s profile).inZone z
    have regular : c.Regular := create_regular healthy steady
    have ownRoom : c.StartRoom ts := regular.startRoom dated (by omega) (by omega)
    obtain ⟨opened, opens, last⟩ := regular.dayBoundary_spec ownRoom
    obtain ⟨behind, nextOpens, next⟩ := regular.nextDayBoundary_spec ownRoom
    obtain ⟨notEarly, notLate⟩ := regular.boundaries_near last next
    have upTo : opened ≤ ts := last.1.2
    have after : ts < behind := next.1.2
    have room : ∀ t, opened ≤ t → t ≤ behind → c.StartRoom t := fun t late early =>
      regular.startRoom dated (notEarly.trans (steady.dayAt_mono late))
        ((steady.dayAt_mono early).trans notLate)
    have closes : c.nextDayBoundary opened = .ok behind := by
      obtain ⟨b, found, least⟩ := regular.nextDayBoundary_spec (room opened le_rfl (by omega))
      rw [found, least.unique (isLeast_behind_last last next)]
    have fits : Text.isSigned64 (behind - 1) = true :=
      isSigned64_of_hasDate (hasDate_between (regular.hasDate_of_startRoom ownRoom)
        (regular.hasDate_of_startRoom (room behind (by omega) le_rfl)) (by omega) (by omega))
    refine ⟨opened, behind - 1, by simp [bucketOpen, opens],
      by simp [bucketClose, closes, checkWord_eq fits], upTo, by omega, fun t late early => ?_, ?_,
      fun _ c' same => ?_⟩
    · obtain ⟨b, found, greatest⟩ := regular.dayBoundary_spec (room t late (by omega))
      have same := greatest.unique (isGreatest_between last next late (by omega))
      simp [bucketOpen, found, same]
    · obtain ⟨b, found, greatest⟩ := regular.dayBoundary_spec (room behind (by omega) le_rfl)
      have same : b = behind := le_antisymm greatest.1.2 (greatest.2 ⟨next.1.1, le_rfl⟩)
      simp [bucketOpen, found, same]
    · cases same
      rw [Int.sub_add_cancel]
      exact ⟨opens, last, nextOpens, next⟩

/-- The bucket of the day on which the clock of New York goes back is an hour longer than others. -/
theorem buckets_tile_newYork :
    let c := (create [] "us" .standard none).inZone newYork
    ∃ opened closed, bucketOpen .d1 1730620800000 (some c) = .ok (.ok opened) ∧
      bucketClose .d1 opened (some c) = .ok (.ok closed) ∧ closed + 1 - opened = 90000000 ∧
      ∀ t, opened ≤ t → t ≤ closed → bucketOpen .d1 t (some c) = .ok (.ok opened) := by
  intro c
  have healthy : (create [] "us" .standard none).healthError = none := by decide +kernel
  obtain ⟨opened, closed, opens, closes, -, -, same, -⟩ :=
    @buckets_tile 1730620800000 [] "us" .standard none newYork .d1 (some c) (absurd rfl)
      fun _ => ⟨healthy, newYork_steady, ⟨by decide, by decide⟩, rfl⟩
  have first : bucketOpen .d1 1730620800000 (some c) = .ok (.ok 1730581200000) := by decide +kernel
  have last : bucketClose .d1 1730581200000 (some c) = .ok (.ok 1730671199999) := by decide +kernel
  cases opens.symm.trans first
  cases closes.symm.trans last
  exact ⟨_, _, opens, closes, by decide, same⟩

end MarketBook.Calendar
