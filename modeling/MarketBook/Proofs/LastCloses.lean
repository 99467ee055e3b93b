/-
Module: MarketBook.Proofs.LastCloses
Purpose: The last close is the last instant at which the market is open, before the instant asked
  about or, while the market is open, before the next pause.
Main exports:
  Calendar.WeeksDated, Calendar.IsLastOpen, Calendar.Follows.isLastOpen,
  Calendar.Regular.run_before, Calendar.Regular.isGreatest_of_run,
  Calendar.Regular.lastTradingClose_of_closed, Calendar.lastTradingClose_exact
-/
import MarketBook.Proofs.Transitions

namespace MarketBook.Calendar

open Time Zone

/-!
While the market is closed, the last close is looked for in the window around the instant a week
earlier.  A run that the start of that window cuts off still stops where the market pauses, and a
run that the end of the window cuts off stops behind the instant; so whatever is found is a close.
Nothing open in the week before the instant is missed, because the window reaches over all of it.
-/

/-- The dates reach two weeks to both sides of the instant, and behind these the length of a break. -/
structure WeeksDated (c : Calendar) (ts : Int) : Prop where
  behind : hasDate (ts - 2 * weekMs) = true
  ahead : hasDate (ts + 2 * weekMs + c.breakMinutes * minuteMs) = true

/-- The last instant before the given one at which the market is open. -/
def IsLastOpen (c : Calendar) (ts last : Int) : Prop :=
  IsGreatest {t | t < ts ∧ c.isOpen t = .ok true} last

variable {c : Calendar} {ts t anchor : Int} {r : Span}

theorem Regular.rooms_of_weeks (regular : c.Regular) (dated : c.WeeksDated ts) :
    c.Roomy ts ∧ c.Roomy (ts - hopMs) := by
  have positive := regular.formed.breakMinutes
  obtain ⟨behind, ahead⟩ := dated
  refine ⟨⟨hasDate_between behind ahead ?_ ?_, ahead⟩,
    ⟨hasDate_between behind ahead ?_ ?_, hasDate_between behind ahead ?_ ?_⟩⟩ <;>
    simp only [hopMs, weekMs, dayMs, minuteMs] <;> omega

/-- The last instant of trading is the last open instant. -/
theorem Follows.isLastOpen {start last : Int} (follows : c.Follows start ts) (late : start ≤ last)
    (greatest : IsGreatest {t | t < ts ∧ c.trades t = true} last) : c.IsLastOpen ts last := by
  obtain ⟨⟨before, trading⟩, latest⟩ := greatest
  refine ⟨⟨before, by rw [follows last late before.le, trading]⟩, ?_⟩
  rintro t ⟨beforeTs, opened⟩
  by_contra behind
  rw [follows t (by omega) beforeTs.le, Except.ok.injEq] at opened
  exact behind (latest ⟨beforeTs, opened⟩)

/-! ### Runs that have ended -/

section

variable (regular : c.Regular) (closed : c.trades ts = false)

include regular closed

/-- A run that has started by an instant without trading has stopped by then as well. -/
theorem Regular.stop_le_of_closed (hr : r ∈ c.tradingRuns anchor) (started : r.start ≤ ts) :
    r.stop ≤ ts := by
  by_contra goesOn
  have opened := regular.trades_of_run hr (Span.holds_iff.2 ⟨started, not_le.1 goesOn⟩)
  rw [closed] at opened
  cases opened

/-- Before an instant without trading, every trading instant of the window lies in a run that has
ended. -/
theorem Regular.run_before (reach : ts < c.windowStop anchor) (after : c.windowStart anchor ≤ t)
    (before : t < ts) (opened : c.trades t = true) :
    ∃ r ∈ c.tradingRuns anchor, t < r.stop ∧ r.stop ≤ ts := by
  obtain ⟨r, hr, held⟩ := (regular.trades_iff_run anchor after (before.trans reach)).1 opened
  obtain ⟨started, notOver⟩ := Span.holds_iff.1 held
  exact ⟨r, hr, notOver, regular.stop_le_of_closed closed hr (started.trans before.le)⟩

/-- The last run that has ended by an instant without trading ends with the last trading instant
before it. -/
theorem Regular.isGreatest_of_run (reach : ts < c.windowStop anchor)
    (hr : r ∈ c.tradingRuns anchor) (ended : r.stop ≤ ts)
    (last : ∀ other ∈ c.tradingRuns anchor, other.stop ≤ ts → other.stop ≤ r.stop) :
    c.windowStart anchor ≤ r.stop - 1 ∧ IsGreatest {t | t < ts ∧ c.trades t = true} (r.stop - 1) := by
  have proper := (tradingRuns_separated regular.formed regular.steady.toGentle anchor).proper r hr
  have starts := (tradingRuns_bounds regular.formed regular.steady hr).1
  have held : r.holds (r.stop - 1) = true := Span.holds_iff.2 ⟨by omega, by omega⟩
  refine ⟨by omega, ⟨by omega, regular.trades_of_run hr held⟩, ?_⟩
  rintro t ⟨before, opened⟩
  by_contra behind
  obtain ⟨other, hother, notOver, otherEnded⟩ :=
    regular.run_before closed reach (by omega) before opened
  have := last other hother otherEnded
  omega

/-! ### The answers -/

/-- From a closed instant the answer is the last open instant before it; or it is the instant
itself, and then nothing was open for a week. -/
theorem Regular.lastTradingClose_of_closed (room : c.Roomy ts) (earlier : c.Roomy (ts - hopMs)) :
    ∃ last, c.lastTradingClose ts = .ok last ∧
      (c.IsLastOpen ts last ∨
        (last = ts ∧ ∀ t, ts - hopMs ≤ t → t < ts → c.isOpen t = .ok false)) := by
  have separated := tradingRuns_separated regular.formed regular.steady.toGentle (ts - hopMs)
  have starts := (windowStart_bounds regular.steady (ts - hopMs)).2
  have reach : ts < c.windowStop (ts - hopMs) := by
    have := (windowStop_bounds regular.steady (ts - hopMs)).1
    rw [hopMs_eq_weekMs] at *
    omega
  have follows : c.Follows (c.windowStart (ts - hopMs)) ts := fun t after upTo =>
    regular.isOpen_eq_of_window earlier after (by omega)
  have fits := checkWord_eq (isSigned64_of_hasDate (earlier.hasDate regular.formed))
  have answer : c.lastTradingClose ts =
      .ok ((((c.tradingRuns (ts - hopMs)).reverse.find? fun s => s.stop ≤ ts).map
        (·.stop - 1)).getD ts) := by
    simp [lastTradingClose, regular.healthy, regular.isOpen_eq room, closed, fits,
      regular.runsAround_eq earlier]
  refine ⟨_, answer, ?_⟩
  cases search : (c.tradingRuns (ts - hopMs)).reverse.find? fun s => s.stop ≤ ts with
  | some r =>
      have hr := List.mem_reverse.1 (List.mem_of_find?_eq_some search)
      have ended : r.stop ≤ ts := by simpa using List.find?_some search
      obtain ⟨inWindow, greatest⟩ := regular.isGreatest_of_run closed reach hr ended
        fun other hother stopped => separated.find?_last search hother (decide_eq_true stopped)
      exact Or.inl (follows.isLastOpen inWindow greatest)
  | none =>
      refine Or.inr ⟨rfl, fun t after before => ?_⟩
      rw [follows t (by omega) before.le, Except.ok.injEq]
      by_contra opened
      obtain ⟨r, hr, -, ended⟩ := regular.run_before closed reach (starts.le.trans after) before
        (Bool.not_eq_false _ ▸ opened)
      have := List.find?_eq_none.1 search r (List.mem_reverse.2 hr)
      simp [ended] at this

end

/-- Where the instant a week earlier has no date, nothing is found.  One day behind the first instant
that has one, on a Friday after the close, the answer is the instant itself, though the market was
open until an hour before.  A break of all the minutes that 64 bits can count stops the question. -/
theorem lastTradingClose_at_first_dates :
    let c := create [] "utc" ⟨"UTC", "22:00", "22:00", "22:00", 5⟩ none
    let long := create [] "utc" ⟨"UTC", "22:00", "22:00", "22:00", 9223372036854775807⟩ none
    (c.healthError = none ∧ c.zone.Steady ∧ hasDate (-8334601059600000) = true ∧
      c.isOpen (-8334601059600000) = .ok false ∧
      (∃ t, -8334601059600000 - 7 * dayMs ≤ t ∧ t < -8334601059600000 ∧ c.isOpen t = .ok true) ∧
      ∃ last, c.lastTradingClose (-8334601059600000) = .ok last ∧
        ¬ c.IsLastOpen (-8334601059600000) last) ∧
      long.healthError = none ∧ long.zone.Steady ∧
        long.lastTradingClose 1735084800000 = .error .wall := by
  intro c long
  have answer : c.lastTradingClose (-8334601059600000) = .ok (-8334601059600000) := by
    decide +kernel
  refine ⟨⟨by decide +kernel, by decide +kernel, by decide, by decide +kernel,
    ⟨-8334601063200001, by decide, by decide, by decide +kernel⟩, _, answer,
    fun last => absurd last.1.1 (lt_irrefl _)⟩, ?_⟩
  decide +kernel

variable {windows : List Closure} {tag : String} {description : Settings}
  {profile : Option Profile} {z : Zone}

/-- The last close is exact: while the market is open it stays so up to the last close and pauses
right behind it; while it is closed and was open at any time in the seven days before, the last
close is the last open instant; and where it was not, the answer is that instant all the same or
else the instant asked about. -/
theorem lastTradingClose_exact
    (healthy : (create windows tag description profile).healthError = none) (steady : z.Steady)
    (dated : ((create windows tag description profile).inZone z).WeeksDated ts) :
    let c := (create windows tag description profile).inZone z
    ∃ answer last, c.isOpen ts = .ok answer ∧ c.lastTradingClose ts = .ok last ∧
      (answer = true →
        ts ≤ last ∧ (∀ t, ts ≤ t → t ≤ last → c.isOpen t = .ok true) ∧
          c.isOpen (last + 1) = .ok false) ∧
      (answer = false → (∃ t, ts - 7 * dayMs ≤ t ∧ t < ts ∧ c.isOpen t = .ok true) →
        c.IsLastOpen ts last) ∧
      (answer = false → (¬ ∃ t, ts - 7 * dayMs ≤ t ∧ t < ts ∧ c.isOpen t = .ok true) →
        last = ts ∨ c.IsLastOpen ts last) := by
  intro c
  have regular : c.Regular := create_regular healthy steady
  obtain ⟨room, earlier⟩ := regular.rooms_of_weeks dated
  cases trading : c.trades ts with
  | true =>
      have opened : c.isOpen ts = .ok true := by rw [regular.isOpen_eq room, trading]
      obtain ⟨pause, found, ⟨⟨behind, ceases⟩, -⟩, stays, inWindow⟩ :=
        regular.nextPause_of_trades room trading
      have follows : c.Follows ts pause :=
        (regular.follows_window room inWindow).mono (by omega) le_rfl
      refine ⟨true, pause - 1, opened, ?_, fun _ => ⟨by omega, ?_, ?_⟩, nofun, nofun⟩
      · simp [lastTradingClose, regular.healthy, opened, found]
      · exact fun t after upTo => follows.stays stays t after (by omega)
      · rw [Int.sub_add_cancel, follows pause behind.le le_rfl, ceases.2]
  | false =>
      have closed : c.isOpen ts = .ok false := by rw [regular.isOpen_eq room, trading]
      obtain ⟨last, found, cases⟩ := regular.lastTradingClose_of_closed trading room earlier
      refine ⟨false, last, closed, found, nofun, fun _ => ?_, fun _ _ => cases.symm.imp_left And.left⟩
      rintro ⟨t, after, before, opened⟩
      rcases cases with isLast | ⟨-, none⟩
      · exact isLast
      · rw [none t after before] at opened
        cases opened

/-- Over Christmas in New York the last close comes right before the closed window, asked from
inside the window as well as while the market is still open. -/
theorem lastTradingClose_newYork_christmas :
    let c := (create [⟨1735084800000, 1735171200000⟩] "us" .standard none).inZone newYork
    c.IsLastOpen 1735100000000 1735084799999 ∧
      (∀ t, 1735084700000 ≤ t → t ≤ 1735084799999 → c.isOpen t = .ok true) ∧
      c.isOpen 1735084800000 = .ok false := by
  intro c
  have healthy : c.healthError = none := by decide +kernel
  have inside : c.lastTradingClose 1735100000000 = .ok 1735084799999 := by decide +kernel
  have before : c.lastTradingClose 1735084700000 = .ok 1735084799999 := by decide +kernel
  have closedThere : c.isOpen 1735100000000 = .ok false := by decide +kernel
  have openThere : c.isOpen 1735084700000 = .ok true := by decide +kernel
  obtain ⟨_, _, closed, found, -, isLast, -⟩ := lastTradingClose_exact healthy newYork_steady
    (show c.WeeksDated 1735100000000 from ⟨by decide, by decide +kernel⟩)
  obtain ⟨_, _, opened, stopFound, untilClose, -⟩ := lastTradingClose_exact healthy newYork_steady
    (show c.WeeksDated 1735084700000 from ⟨by decide, by decide +kernel⟩)
  cases closed.symm.trans closedThere
  cases found.symm.trans inside
  cases opened.symm.trans openThere
  cases stopFound.symm.trans before
  obtain ⟨-, stays, pauses⟩ := untilClose rfl
  exact ⟨isLast rfl ⟨1735084799999, by decide, by decide, by decide +kernel⟩, stays, pauses⟩

end MarketBook.Calendar
