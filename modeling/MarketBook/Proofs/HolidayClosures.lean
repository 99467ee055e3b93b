/-
Module: MarketBook.Proofs.HolidayClosures
Purpose: Dates given as holidays close the market on exactly their days of universal time.
Main exports:
  Holiday.closures_eq_ok, Holiday.usable_iff, Closure.normalize_overlap,
  Calendar.Settings.IsSound, Calendar.build_healthy, Calendar.holidays_close_days
-/
import MarketBook.Proofs.ClosedReasons
import MarketBook.Proofs.ClosureSets
import MarketBook.Proofs.DateTexts
import MarketBook.Calendar.Holiday

namespace MarketBook

open Time Zone Outcome

/-!
The window of a date holds the instants whose day is that of the date.  So two windows of different
dates share no instant, however close the dates are, and once repeated windows are dropped nothing
is left that could overlap; two spellings of a date give one window twice.  Only a date too far off
for a plausible time stamp can make a list of dates unusable.
-/

/-! ### Dates and their windows -/

namespace Holiday

variable {raw : String} {day ts : Int} {dates : List String} {windows : List Closure}

theorem wholeDay_holds : (wholeDay day).holds ts = true ↔ ts / dayMs = day := by
  simp only [Closure.holds_iff, wholeDay, dayMs]
  omega

/-- The window of a date stops where the window of the next date starts. -/
theorem wholeDay_next {d : CivilDate} (valid : d.isValid = true) :
    (wholeDay d.toDay).stop = (wholeDay d.next.toDay).start := by
  simp only [wholeDay, CivilDate.toDay_next valid, dayMs]
  omega

theorem shareNoInstant_of_ne {other : Int} (different : day ≠ other) :
    Closure.ShareNoInstant (wholeDay day) (wholeDay other) := by
  rintro ts ⟨inFirst, inSecond⟩
  exact different ((wholeDay_holds.1 inFirst).symm.trans (wholeDay_holds.1 inSecond))

/-- A list of texts is accepted exactly if each text is read as a date, and then gives the windows of
these dates one by one. -/
theorem closures_eq_ok :
    closures dates = .ok windows ↔
      dates.map (fun raw => (readDate? raw).map wholeDay) = windows.map some := by
  unfold closures
  generalize 0 = index
  induction dates generalizing index windows with
  | nil => cases windows <;> simp [closuresFrom]
  | cons raw rest ih =>
      rw [closuresFrom, List.map_cons]
      cases read : readDate? raw with
      | none => cases windows <;> simp
      | some day =>
          simp only [bind_eq_ok, ih, pure_eq_ok, Option.map_some]
          cases windows with
          | nil => simp
          | cons w ws =>
              simp only [List.cons.injEq, List.map_cons, Option.some.injEq]
              constructor
              · rintro ⟨_, given, rfl, rfl⟩
                exact ⟨rfl, given⟩
              · rintro ⟨rfl, given⟩
                exact ⟨ws, given, rfl, rfl⟩

theorem mem_closures (accepted : closures dates = .ok windows) {w : Closure} :
    w ∈ windows ↔ ∃ raw ∈ dates, ∃ day, readDate? raw = some day ∧ wholeDay day = w := by
  rw [← List.mem_map_of_injective (Option.some_injective _), ← closures_eq_ok.1 accepted]
  simp only [List.mem_map, Option.map_eq_some_iff]

theorem exists_of_mem (accepted : closures dates = .ok windows) (given : raw ∈ dates) :
    ∃ day, readDate? raw = some day := by
  have listed : (readDate? raw).map wholeDay ∈ windows.map some := by
    rw [← closures_eq_ok.1 accepted]
    exact List.mem_map_of_mem given
  obtain ⟨w, -, same⟩ := List.mem_map.1 listed
  obtain ⟨day, read, -⟩ := Option.map_eq_some_iff.1 same.symm
  exact ⟨day, read⟩

/-- Every window is that of a day. -/
def AreDays (windows : List Closure) : Prop :=
  ∀ w ∈ windows, ∃ day, w = wholeDay day

theorem areDays (accepted : closures dates = .ok windows) : AreDays windows := by
  intro w hw
  obtain ⟨-, -, day, -, rfl⟩ := (mem_closures accepted).1 hw
  exact ⟨day, rfl⟩

/-- Windows of days that are all different can be used together exactly if their bounds are plausible
time stamps. -/
theorem usable_iff (days : AreDays windows) :
    Closure.Usable (Closure.distinct windows) ↔
      ∀ w ∈ windows, onRails w.start = true ∧ onRails w.stop = true := by
  constructor
  · intro usable w hw
    obtain ⟨start, stop, -⟩ := usable.sound w (Closure.mem_distinct.2 hw)
    exact ⟨start, stop⟩
  · intro inRange
    refine ⟨fun w hw => ?_, (Closure.distinct_nodup windows).imp_of_mem fun ha hb different => ?_⟩
    · have given := Closure.mem_distinct.1 hw
      obtain ⟨day, rfl⟩ := days w given
      obtain ⟨start, stop⟩ := inRange _ given
      exact ⟨start, stop, by simp [wholeDay, dayMs]⟩
    · obtain ⟨day, rfl⟩ := days _ (Closure.mem_distinct.1 ha)
      obtain ⟨other, rfl⟩ := days _ (Closure.mem_distinct.1 hb)
      exact shareNoInstant_of_ne fun same => different (by rw [same])

end Holiday

/-! ### Overlaps that are reported -/

namespace Closure

variable {windows closures : List Closure} {start stop start' stop' : Int}

/-- The check of a window by itself reports no overlap. -/
theorem requireWindow_ne_overlap {index : Nat} {c : Closure} :
    requireWindow index c ≠ .error (.input (.intervalsOverlap start stop start' stop')) := by
  unfold requireWindow requireBound
  split <;> split <;> split <;> nofun

theorem requireWindows_ne_overlap {index : Nat} :
    requireWindows index windows ≠ .error (.input (.intervalsOverlap start stop start' stop')) := by
  induction windows generalizing index with
  | nil => exact nofun
  | cons c rest ih =>
      intro reported
      rw [requireWindows] at reported
      cases checked : requireWindow index c with
      | error cause =>
          rw [checked] at reported
          cases reported
          exact requireWindow_ne_overlap checked
      | ok =>
          rw [checked] at reported
          exact ih reported

/-- What is reported are two neighbours, the second of which starts before the first has stopped. -/
theorem requireApart_overlap
    (reported : requireApart closures = .error (.input (.intervalsOverlap start stop start' stop'))) :
    [⟨start, stop⟩, ⟨start', stop'⟩].Sublist closures ∧ start' < stop := by
  induction closures with
  | nil => cases reported
  | cons c rest ih =>
      cases rest with
      | nil => cases reported
      | cons d rest =>
          rw [requireApart] at reported
          split at reported
          case isTrue overlap =>
            cases reported
            exact ⟨((List.nil_sublist rest).cons_cons d).cons_cons c, overlap⟩
          case isFalse =>
            obtain ⟨neighbours, overlap⟩ := ih reported
            exact ⟨neighbours.cons c, overlap⟩

/-- An overlap that normalization reports is one of two windows in the order of their starts. -/
theorem normalize_overlap
    (reported : normalize windows = .error (.input (.intervalsOverlap start stop start' stop'))) :
    [⟨start, stop⟩, ⟨start', stop'⟩].Sublist (sort windows) ∧ start ≤ start' ∧ start' < stop := by
  unfold normalize at reported
  cases checked : requireWindows 0 windows with
  | error cause =>
      rw [checked] at reported
      cases reported
      exact absurd checked requireWindows_ne_overlap
  | ok =>
      cases order : requireApart (sort windows) with
      | error cause =>
          rw [checked, order] at reported
          cases reported
          obtain ⟨neighbours, overlap⟩ := requireApart_overlap order
          have ascending := (sort_ascending windows).sublist neighbours
          exact ⟨neighbours, by simpa using ascending, overlap⟩
      | ok =>
          rw [checked, order] at reported
          cases reported

end Closure

namespace Holiday

variable {windows : List Closure} {start stop start' stop' : Int}

/-- Windows of days overlap only if they are windows of the same day. -/
theorem AreDays.overlap (days : AreDays windows)
    (reported : Closure.normalize windows =
      .error (.input (.intervalsOverlap start stop start' stop'))) :
    start = start' ∧ stop = stop' := by
  obtain ⟨neighbours, order, overlap⟩ := Closure.normalize_overlap reported
  have given : ∀ w ∈ [(⟨start, stop⟩ : Closure), ⟨start', stop'⟩], ∃ day, w = wholeDay day :=
    fun w hw => days w ((Closure.sort_perm windows).mem_iff.1 (neighbours.subset hw))
  obtain ⟨day, first⟩ := given ⟨start, stop⟩ (by simp)
  obtain ⟨other, second⟩ := given ⟨start', stop'⟩ (by simp)
  simp only [wholeDay, Closure.mk.injEq, dayMs] at first second
  omega

/-- Windows of days without repetitions do not overlap. -/
theorem AreDays.distinct_overlap (days : AreDays windows) :
    Closure.normalize (Closure.distinct windows) ≠
      .error (.input (.intervalsOverlap start stop start' stop')) := by
  intro reported
  have distinctDays : AreDays (Closure.distinct windows) :=
    fun w hw => days w (Closure.mem_distinct.1 hw)
  obtain ⟨rfl, rfl⟩ := distinctDays.overlap reported
  have neighbours := (Closure.normalize_overlap reported).1
  have nodup := (Closure.sort_perm _).nodup_iff.2 (Closure.distinct_nodup windows)
  simpa using nodup.sublist neighbours

end Holiday

/-! ### Calendars -/

namespace Calendar

/-- The zone is known, the clock times are times of the day, and the break has a length. -/
structure Settings.IsSound (s : Settings) : Prop where
  zone : ∃ found, Zone.resolve s.zoneName = .ok found
  weeklyOpen : ClockTime.IsText s.weeklyOpen
  weeklyClose : ClockTime.IsText s.weeklyClose
  breakStart : ClockTime.IsText s.breakStart
  breakMinutes : 0 < s.breakMinutes

variable {s : Settings} {tag field raw : String} {windows : List Closure} {minutes : Int}

theorem zoneOf_eq_nil : (zoneOf raw).2 = [] ↔ ∃ found, Zone.resolve raw = .ok found := by
  unfold zoneOf
  cases Zone.resolve raw <;> simp

theorem clockOf_eq_nil : (clockOf field raw).2 = [] ↔ ClockTime.IsText raw := by
  unfold clockOf ClockTime.IsText
  cases ClockTime.read raw <;> simp

theorem breakDefects_eq_nil : breakDefects minutes = [] ↔ 0 < minutes := by
  simp [breakDefects]

theorem closuresOf_eq_nil :
    (closuresOf windows).2 = [] ↔
      ∃ closures, Closure.normalize (Closure.distinct windows) = .ok closures := by
  unfold closuresOf
  cases Closure.normalize (Closure.distinct windows) <;> simp

/-- A calendar is healthy exactly if its settings are sound and its windows can be used together. -/
theorem build_healthy :
    (build tag s windows).healthError = none ↔
      s.IsSound ∧ Closure.Usable (Closure.distinct windows) := by
  rw [healthError_eq_none, isBroken, ← Closure.normalizes_iff]
  simp only [build, Bool.not_eq_false', List.isEmpty_iff, List.append_eq_nil_iff, zoneOf_eq_nil,
    clockOf_eq_nil, breakDefects_eq_nil, closuresOf_eq_nil]
  constructor
  · rintro ⟨⟨⟨⟨⟨zone, weeklyOpen⟩, weeklyClose⟩, breakStart⟩, breakMinutes⟩, closures⟩
    exact ⟨⟨zone, weeklyOpen, weeklyClose, breakStart, breakMinutes⟩, closures⟩
  · rintro ⟨⟨zone, weeklyOpen, weeklyClose, breakStart, breakMinutes⟩, closures⟩
    exact ⟨⟨⟨⟨⟨zone, weeklyOpen⟩, weeklyClose⟩, breakStart⟩, breakMinutes⟩, closures⟩

@[simp] theorem inZone_defects (c : Calendar) (z : Zone) : (c.inZone z).defects = c.defects := rfl

@[simp] theorem inZone_healthError (c : Calendar) (z : Zone) :
    (c.inZone z).healthError = c.healthError := by
  simp [healthError, isBroken]

/-- A calendar reports an overlap of its windows exactly if normalization does. -/
theorem overlap_mem_defects {start stop start' stop' : Int} :
    Defect.closures (.input (.intervalsOverlap start stop start' stop')) ∈
        (build tag s windows).defects ↔
      Closure.normalize (Closure.distinct windows) =
        .error (.input (.intervalsOverlap start stop start' stop')) := by
  rw [mem_defects_build, closuresOf]
  cases Closure.normalize (Closure.distinct windows) with
  | ok closures => simp
  | error cause => simp [eq_comm]

/-- Christmas in a calendar with a break of all the minutes that 64 bits can count: it is healthy, and
stops when it is asked for its reasons. -/
theorem explain_stops_on_christmas :
    let c := create [⟨1735084800000, 1735171200000⟩] "utc"
      ⟨"UTC", "17:00", "17:00", "17:00", 9223372036854775807⟩ none
    Holiday.closures ["2024-12-25"] = .ok [⟨1735084800000, 1735171200000⟩] ∧ c.healthError = none ∧
      c.explain 1735084800000 = .error .wall := by
  decide +kernel

/-- Holidays close their days.  Every text of an accepted list names one date, and the window of a
date ends where that of the next date starts.  A calendar of the windows is healthy exactly if its
settings are sound and the bounds of the windows are plausible time stamps, and then a closed window
is among the reasons it gives exactly on the instants whose date, by universal time, is among those
named; it gives its reasons at every instant without a date, and at every other where there is room.
No overlap is ever reported, save of a day with itself where repetitions are not dropped. -/
theorem holidays_close_days {dates : List String} {windows : List Closure}
    (accepted : Holiday.closures dates = .ok windows) (tag : String) (s : Settings) (z : Zone) :
    let c := (create windows tag s none).inZone z
    (∀ raw ∈ dates, ∃! d, Holiday.Names raw d) ∧
    (∀ d : CivilDate, d.isValid = true →
      (Holiday.wholeDay d.toDay).stop = (Holiday.wholeDay d.next.toDay).start) ∧
    (c.healthError = none ↔
      s.IsSound ∧ ∀ w ∈ windows, onRails w.start = true ∧ onRails w.stop = true) ∧
    (c.healthError = none → ∀ ts,
      (∀ reasons, c.explain ts = .ok reasons →
        (.closedInterval ∈ reasons ↔
          ∃ raw ∈ dates, Holiday.Names raw (CivilDate.ofDay (ts / dayMs)))) ∧
      (hasDate ts = false ∨ c.Roomy ts → ∃ reasons, c.explain ts = .ok reasons)) ∧
    (∀ start stop start' stop',
      Defect.closures (.input (.intervalsOverlap start stop start' stop')) ∉ c.defects ∧
      (Closure.normalize windows = .error (.input (.intervalsOverlap start stop start' stop')) →
        start = start' ∧ stop = stop')) := by
  intro c
  have days := Holiday.areDays accepted
  have formed : c.WellFormed := create_wellFormed.inZone z
  have built : c.healthError = (build tag s windows).healthError := inZone_healthError _ z
  have defects : c.defects = (build tag s windows).defects := inZone_defects _ z
  refine ⟨fun raw given => ?_, fun d valid => Holiday.wholeDay_next valid, ?_,
    fun health ts => ⟨fun reasons explained => ?_, ?_⟩,
    fun start stop start' stop' => ⟨fun reported => ?_, days.overlap⟩⟩
  · obtain ⟨day, read⟩ := Holiday.exists_of_mem accepted given
    exact Holiday.existsUnique_names read
  · rw [built, build_healthy, Holiday.usable_iff days]
  · have given : ∀ w, w ∈ c.closures ↔ w ∈ windows ++ [] :=
      mem_closures_create (built.symm.trans health)
    have held : ∀ w, w ∈ c.closures ↔ w ∈ windows := by simpa using given
    rw [closedInterval_mem_iff (healthError_eq_none.1 health) formed explained]
    simp only [held, Holiday.mem_closures accepted, Holiday.names_ofDay_iff]
    constructor
    · rintro ⟨-, ⟨raw, given, day, read, rfl⟩, inside⟩
      exact ⟨raw, given, by rw [read, Holiday.wholeDay_holds.1 inside]⟩
    · rintro ⟨raw, given, read⟩
      exact ⟨_, ⟨raw, given, _, read, rfl⟩, Holiday.wholeDay_holds.2 rfl⟩
  · exact explain_answers (healthError_eq_none.1 health) formed
  · rw [defects, overlap_mem_defects] at reported
    exact days.distinct_overlap reported

/-- Christmas in two spellings and the day after it: one closed span of two days in New York, up to
its last millisecond. -/
theorem holidays_close_christmas :
    let dates := ["2024-12-26", " 2024-12-25", "+2024-12-25 "]
    let windows : List Closure := [⟨1735171200000, 1735257600000⟩, ⟨1735084800000, 1735171200000⟩,
      ⟨1735084800000, 1735171200000⟩]
    let c := (create windows "us" .standard none).inZone newYork
    Holiday.closures dates = .ok windows ∧ c.healthError = none ∧
      (∃ reasons, c.explain 1735257599999 = .ok reasons ∧ .closedInterval ∈ reasons) ∧
      (∃ reasons, c.explain 1735257600000 = .ok reasons ∧ .closedInterval ∉ reasons) ∧
      CivilDate.ofDay (1735257600000 / dayMs) = ⟨2024, 12, 27⟩ := by
  intro dates windows c
  have accepted : Holiday.closures dates = .ok windows := by decide +kernel
  have sound : Settings.standard.IsSound := by
    refine ⟨⟨_, rfl⟩, ⟨_, rfl⟩, ⟨_, rfl⟩, ⟨_, rfl⟩, by decide⟩
  have inRange : ∀ w ∈ windows, onRails w.start = true ∧ onRails w.stop = true := by decide
  obtain ⟨-, -, healthy, closed, -⟩ := holidays_close_days accepted "us" .standard newYork
  have health : c.healthError = none := healthy.2 ⟨sound, inRange⟩
  obtain ⟨inside, insideAnswers⟩ := closed health 1735257599999
  obtain ⟨behind, behindAnswers⟩ := closed health 1735257600000
  obtain ⟨reasons, explained⟩ := insideAnswers (.inr ⟨by decide, by decide +kernel⟩)
  obtain ⟨later, explainedLater⟩ := behindAnswers (.inr ⟨by decide, by decide +kernel⟩)
  refine ⟨accepted, health, ⟨reasons, explained, (inside _ explained).2 ?_⟩,
    ⟨later, explainedLater, fun listed => ?_⟩, by decide⟩
  · exact ⟨"2024-12-26", by simp [dates], Holiday.names_iff.2 ⟨by decide, by decide +kernel⟩⟩
  · obtain ⟨raw, given, names⟩ := (behind _ explainedLater).1 listed
    have others : ∀ raw ∈ dates,
        Holiday.readDate? raw ≠ some (CivilDate.ofDay (1735257600000 / dayMs)).toDay := by
      decide +kernel
    exact others raw given (Holiday.names_iff.1 names).2

end Calendar

end MarketBook
