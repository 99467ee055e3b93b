/-
Module: MarketBook.Proofs.Transitions
Purpose: The next open and the next pause are the next instants at which the market opens and
  pauses.
Main exports:
  Calendar.Opens, Calendar.Pauses, Calendar.Follows, Calendar.Regular.findRunStart_spec,
  Calendar.FarFromLimits, Calendar.Regular.nextOpen_spec, Calendar.Regular.nextPause_of_trades,
  Calendar.Regular.nextPause_of_closed, Calendar.ClosedUntil, Calendar.transitions_exact
-/
import Mathlib.Tactic.Ring
import MarketBook.Proofs.WindowRuns

namespace MarketBook.Calendar

open Time Zone

/-!
The program is compared with the timetable: where the dates leave room, the market is open while the
timetable trades, so it opens and pauses where trading begins and ceases.  The search for the next
open goes from window to window.  Each of them lies a week behind the one before and reaches more than
a week ahead, so no opening falls between two of them.
-/

/-- The market opens at the instant. -/
def Opens (c : Calendar) (ts : Int) : Prop :=
  c.isOpen ts = .ok true ∧ c.isOpen (ts - 1) = .ok false

/-- The market pauses at the instant. -/
def Pauses (c : Calendar) (ts : Int) : Prop :=
  c.isOpen (ts - 1) = .ok true ∧ c.isOpen ts = .ok false

variable {c : Calendar} {ts t anchor first pause : Int} {r : Span}

/-! ### The market and its timetable -/

/-- Over a span of time the market is open while the timetable trades. -/
def Follows (c : Calendar) (start stop : Int) : Prop :=
  ∀ t, start ≤ t → t ≤ stop → c.isOpen t = .ok (c.trades t)

theorem Follows.mono {start stop later earlier : Int} (follows : c.Follows start stop)
    (late : start ≤ later) (early : earlier ≤ stop) : c.Follows later earlier := fun t after before =>
  follows t (by omega) (by omega)

theorem Follows.trans {start middle stop : Int} (first : c.Follows start middle)
    (second : c.Follows (middle - 1) stop) : c.Follows start stop := fun t after before =>
  if early : t ≤ middle then first t after early else second t (by omega) before

theorem Follows.stays (follows : c.Follows ts pause)
    (stays : ∀ t, ts ≤ t → t < pause → c.trades t = true) :
    ∀ t, ts ≤ t → t < pause → c.isOpen t = .ok true := by
  intro t after before
  rw [follows t after before.le, stays t after before]

theorem Regular.follows_window (regular : c.Regular) (room : c.Roomy anchor)
    (stop : pause < c.windowStop anchor) : c.Follows (anchor - 1) pause := by
  intro t after before
  have start := (windowStart_bounds regular.steady anchor).2
  exact regular.isOpen_eq_of_window room (by omega) (by omega)

theorem Regular.follows_between (regular : c.Regular) (room : c.Roomy ts) (upper : c.Roomy first) :
    c.Follows (ts - 1) first := by
  intro t after before
  by_cases late : ts ≤ t
  · exact regular.isOpen_eq (room.between upper late before)
  · exact regular.follows_window room (lt_windowStop regular.steady ts) t after (by omega)

theorem Follows.opens_iff (follows : c.Follows (ts - 1) first) (after : ts ≤ t) (before : t ≤ first) :
    c.Opens t ↔ c.Begins t := by
  simp [Opens, Begins, follows t (by omega) before, follows (t - 1) (by omega) (by omega)]

theorem Follows.pauses_iff (follows : c.Follows ts pause) (after : ts < t) (before : t ≤ pause) :
    c.Pauses t ↔ c.Ceases t := by
  simp [Pauses, Ceases, follows t after.le before, follows (t - 1) (by omega) (by omega)]

/-- The first instant of one condition is that of another if the two agree up to it. -/
theorem isLeast_of_agree {one other : Int → Prop} (least : IsLeast {t | one t} first)
    (agree : ∀ t, t ≤ first → (other t ↔ one t)) : IsLeast {t | other t} first := by
  refine ⟨(agree first le_rfl).2 least.1, fun t holds => ?_⟩
  by_contra earlier
  exact earlier (least.2 ((agree t (not_le.1 earlier).le).1 holds))

/-- The first beginning is the first opening. -/
theorem Follows.isLeast_opens (follows : c.Follows (ts - 1) first)
    (least : IsLeast {o | ts ≤ o ∧ c.Begins o} first) : IsLeast {o | ts ≤ o ∧ c.Opens o} first :=
  isLeast_of_agree least fun _ upTo => and_congr_right fun late => follows.opens_iff late upTo

/-- The first ceasing is the first pause. -/
theorem Follows.isLeast_pauses (follows : c.Follows ts pause)
    (least : IsLeast {p | ts < p ∧ c.Ceases p} pause) : IsLeast {p | ts < p ∧ c.Pauses p} pause :=
  isLeast_of_agree least fun _ upTo => and_congr_right fun late => follows.pauses_iff late upTo

/-! ### The search for the next open -/

/-- What the search finds is the first beginning from the anchor on, with the market open there, and
where it finds none there is none within its reach.  The induction is on the windows left; a window
that does not serve moves the anchor past instants at which nothing begins. -/
theorem Regular.findRunStart_spec (regular : c.Regular) :
    ∀ {hops : Nat} {anchor : Int}, c.Roomy anchor → c.Roomy (anchor + hops * hopMs) →
      ∃ answer, c.findRunStart hops anchor = .ok answer ∧
        match answer with
        | some found =>
          IsLeast {o | anchor ≤ o ∧ c.Begins o} found ∧ c.isOpen found = .ok true
        | none => ∀ o, anchor ≤ o → c.Begins o → anchor + hops * hopMs ≤ o := by
  intro hops
  induction hops with
  | zero =>
      intro anchor _ _
      exact ⟨none, rfl, fun o late _ => by simpa using late⟩
  | succ more ih =>
      intro anchor room lastRoom
      simp only [findRunStart, regular.runsAround_eq room, Checked.ok_bind]
      cases search : (c.tradingRuns anchor).find? fun s => anchor ≤ s.start with
      | some r =>
          have least := regular.start_isLeast search
          have hr := List.mem_of_find?_eq_some search
          have bounds := tradingRuns_bounds regular.formed regular.steady hr
          have proper :=
            (tradingRuns_separated regular.formed regular.steady.toGentle anchor).proper r hr
          refine ⟨some r.start, rfl, least, ?_⟩
          rw [regular.isOpen_eq_of_window room bounds.1 (by omega), least.1.2.1]
      | none =>
          have ahead : anchor + hopMs + more * hopMs = anchor + (more + 1 : Nat) * hopMs := by
            push_cast
            ring
          have weeks : 0 ≤ (more : Int) * hopMs :=
            mul_nonneg (Int.natCast_nonneg more) (by simp [hopMs, dayMs])
          rw [← ahead] at lastRoom ⊢
          have nextRoom : c.Roomy (anchor + hopMs) :=
            room.between lastRoom (by simp only [hopMs, dayMs]; omega) (le_add_of_nonneg_right weeks)
          obtain ⟨answer, searched, rest⟩ := ih nextRoom lastRoom
          simp only [room.hasDate regular.formed, Bool.not_true, Bool.and_false, Bool.false_eq_true,
            if_false]
          refine ⟨answer, searched, ?_⟩
          cases answer with
          | some found =>
              obtain ⟨⟨⟨late, begins⟩, least⟩, opened⟩ := rest
              refine ⟨⟨⟨?_, begins⟩, ?_⟩, opened⟩
              · simp only [hopMs, dayMs] at late
                omega
              · rintro other ⟨otherLate, otherBegins⟩
                exact least ⟨regular.no_opening search otherLate otherBegins, otherBegins⟩
          | none => exact fun o late begins => rest o (regular.no_opening search late begins) begins

/-- The search finds the first beginning if there is one within its reach. -/
theorem Regular.findRunStart_isLeast (regular : c.Regular) {o : Int} (begins : c.Begins o)
    {hops : Nat} (room : c.Roomy anchor) (lastRoom : c.Roomy (anchor + hops * hopMs))
    (late : anchor ≤ o) (near : o < anchor + hops * hopMs) :
    ∃ found, c.findRunStart hops anchor = .ok (some found) ∧
      IsLeast {o | anchor ≤ o ∧ c.Begins o} found := by
  obtain ⟨answer, searched, spec⟩ := regular.findRunStart_spec room lastRoom
  cases answer with
  | some found => exact ⟨found, searched, spec.1⟩
  | none => exact absurd (spec o late begins) (not_le.2 near)

/-! ### The answers -/

/-- The dates reach a week behind an instant, and ahead of it as far as a search looks: sixty weeks,
the window after the last of them, and the length of a break.  They reach as far ahead of the last
time stamp on the rails, with which a closed window may stop. -/
structure FarFromLimits (c : Calendar) (ts : Int) : Prop where
  behind : hasDate (ts - weekMs) = true
  ahead : hasDate (ts + 62 * weekMs + c.breakMinutes * minuteMs) = true
  aheadOfRails : hasDate (lastOnRails + 62 * weekMs + c.breakMinutes * minuteMs) = true

/-- With a break of a week or less, dates for seventy weeks to both sides are enough. -/
theorem FarFromLimits.of_short_break (short : c.breakMinutes ≤ 10080)
    (behind : hasDate (ts - 70 * weekMs) = true) (ahead : hasDate (ts + 70 * weekMs) = true)
    (formed : c.WellFormed) : c.FarFromLimits ts := by
  have positive := formed.breakMinutes
  rw [hasDate_iff] at behind ahead
  refine ⟨hasDate_iff.2 ?_, hasDate_iff.2 ?_, hasDate_iff.2 ?_⟩ <;>
    simp only [firstDated, lastDated, lastOnRails, weekMs, dayMs, minuteMs] at * <;> omega

section

variable (regular : c.Regular)

include regular

/-- The search starts at the stop of the window that holds the instant, or else at the instant. -/
theorem Regular.searchFrom_spec (ts : Int) :
    (∃ w ∈ c.closures, w.holds ts = true ∧ c.searchFrom ts = w.stop) ∨
      (∀ w ∈ c.closures, w.holds ts = false) ∧ c.searchFrom ts = ts := by
  cases found : c.closureAt? ts with
  | some w =>
      obtain ⟨hw, held⟩ := regular.formed.closureAt?_eq_some.1 found
      exact Or.inl ⟨w, hw, held, by simp [searchFrom, found]⟩
  | none => exact Or.inr ⟨regular.formed.closureAt?_eq_none.1 found, by simp [searchFrom, found]⟩

/-- Between an instant and the start of the search, a closed window stops the trading. -/
theorem Regular.closed_before_search (after : ts ≤ t) (before : t < c.searchFrom ts) :
    c.trades t = false := by
  rcases regular.searchFrom_spec ts with ⟨w, hw, held, stops⟩ | ⟨-, same⟩
  · rw [← Bool.not_eq_true, regular.formed.trades_iff]
    rintro ⟨free, -⟩
    have outside := free w hw
    rw [not_holds_iff] at outside
    have := Closure.holds_iff.1 held
    omega
  · omega

theorem Regular.le_searchFrom (ts : Int) : ts ≤ c.searchFrom ts := by
  rcases regular.searchFrom_spec ts with ⟨w, -, held, stops⟩ | ⟨-, same⟩
  · rw [stops]
    exact (Closure.holds_iff.1 held).2.le
  · exact same.ge

/-- There is room around every anchor of the search. -/
theorem Regular.searched_roomy (far : c.FarFromLimits ts) :
    c.Roomy (c.searchFrom ts) ∧ c.Roomy (c.searchFrom ts + maxHops * hopMs) := by
  have positive := regular.formed.breakMinutes
  obtain ⟨behind, ahead, aheadOfRails⟩ := far
  rw [hasDate_iff] at behind ahead aheadOfRails
  rcases regular.searchFrom_spec ts with ⟨w, hw, held, stops⟩ | ⟨-, same⟩
  · have onTheRails := onRails_iff.1 (regular.formed.sound w hw).2.1
    rw [stops]
    refine ⟨⟨?_, ?_⟩, ?_, ?_⟩ <;> rw [hasDate_iff] <;>
      simp only [maxHops, hopMs, Nat.cast_ofNat, firstOnRails, lastOnRails, firstDated, lastDated,
        weekMs, dayMs, minuteMs] at * <;>
      omega
  · rw [same]
    refine ⟨⟨?_, ?_⟩, ?_, ?_⟩ <;> rw [hasDate_iff] <;>
      simp only [maxHops, hopMs, Nat.cast_ofNat, firstDated, lastDated, weekMs, dayMs, minuteMs]
        at * <;>
      omega

theorem Regular.roomy_of_far (far : c.FarFromLimits ts) : c.Roomy ts := by
  have positive := regular.formed.breakMinutes
  refine ⟨far.behind, hasDate_between far.behind far.ahead ?_ ?_⟩ <;>
    simp only [weekMs, dayMs, minuteMs] <;> omega

theorem Regular.nextOpen_spec (far : c.FarFromLimits ts) {o : Int}
    (late : c.searchFrom ts ≤ o) (near : o < c.searchFrom ts + maxHops * hopMs)
    (begins : c.Begins o) :
    ∃ next, c.nextOpen ts = .ok next ∧ IsLeast {o | ts ≤ o ∧ c.Begins o} next ∧ c.Roomy next := by
  obtain ⟨first, last⟩ := regular.searched_roomy far
  obtain ⟨found, searched, least⟩ := regular.findRunStart_isLeast begins first last late near
  have notBefore : c.searchFrom ts ≤ found := least.1.1
  have notAfter : found ≤ o := least.2 ⟨late, begins⟩
  refine ⟨found, by simp [nextOpen, regular.healthy, searched],
    ⟨⟨(regular.le_searchFrom ts).trans notBefore, least.1.2⟩, ?_⟩,
    first.between last notBefore (by omega)⟩
  rintro other ⟨after, otherBegins⟩
  by_contra earlier
  have otherLate : c.searchFrom ts ≤ other := by
    by_contra inClosure
    have closed := regular.closed_before_search after (not_le.1 inClosure)
    rw [otherBegins.1] at closed
    cases closed
  exact earlier (least.2 ⟨otherLate, otherBegins⟩)

/-- From a trading instant on, trading goes on until the next pause. -/
theorem Regular.nextPause_of_trades (room : c.Roomy ts) (opened : c.trades ts = true) :
    ∃ pause, c.nextPause ts = .ok pause ∧ IsLeast {p | ts < p ∧ c.Ceases p} pause ∧
      (∀ t, ts ≤ t → t < pause → c.trades t = true) ∧ pause < c.windowStop ts := by
  have starts := (windowStart_bounds regular.steady ts).2
  have reach := lt_windowStop regular.steady ts
  obtain ⟨any, hany, anyHeld⟩ := (regular.trades_iff_run ts starts.le reach).1 opened
  cases search : (c.tradingRuns ts).find? (·.holds ts) with
  | none => exact absurd anyHeld (List.find?_eq_none.1 search any hany)
  | some r =>
      have hr := List.mem_of_find?_eq_some search
      have held : r.holds ts = true := by simpa using List.find?_some search
      obtain ⟨started, notOver⟩ := Span.holds_iff.1 held
      obtain ⟨least, stays⟩ := regular.stop_isLeast hr started
      refine ⟨r.stop, ?_, ⟨⟨notOver, least.1.2⟩, ?_⟩, fun t after before => stays t (by omega) before,
        regular.stop_lt_windowStop hr started⟩
      · simp [nextPause, regular.healthy, regular.isOpen_eq room, opened, regular.runsAround_eq room,
          search]
      · rintro p ⟨after, ceases⟩
        exact least.2 ⟨by omega, ceases⟩

/-- From an instant without trading on, the next pause ends the run that starts at the next open. -/
theorem Regular.nextPause_of_closed (room : c.Roomy ts) (closed : c.trades ts = false) {next : Int}
    (found : c.nextOpen ts = .ok next) (least : IsLeast {o | ts ≤ o ∧ c.Begins o} next)
    (nextRoom : c.Roomy next) :
    ∃ pause, c.nextPause ts = .ok pause ∧ IsLeast {p | ts < p ∧ c.Ceases p} pause ∧ next < pause ∧
      (∀ t, next ≤ t → t < pause → c.trades t = true) ∧ pause < c.windowStop next := by
  have starts := (windowStart_bounds regular.steady next).2
  have reach := lt_windowStop regular.steady next
  obtain ⟨any, hany, anyStarts⟩ := regular.run_of_begins next starts reach least.1.2
  cases search : (c.tradingRuns next).find? fun s => s.start = next with
  | none => exact absurd anyStarts (by simpa using List.find?_eq_none.1 search any hany)
  | some r =>
      have hr := List.mem_of_find?_eq_some search
      have started : r.start = next := by simpa using List.find?_some search
      obtain ⟨first, stays⟩ := regular.stop_isLeast hr started.le
      rw [started] at first stays
      have afterTs : ts ≤ next := least.1.1
      refine ⟨r.stop, ?_, ⟨⟨lt_of_le_of_lt afterTs first.1.1, first.1.2⟩, ?_⟩, first.1.1, stays,
        regular.stop_lt_windowStop hr started.le⟩
      · simp [nextPause, regular.healthy, regular.isOpen_eq room, closed, found,
          regular.runsAround_eq nextRoom, search]
      · rintro p ⟨after, ceases⟩
        by_cases inRun : next < p
        · exact first.2 ⟨inRun, ceases⟩
        · -- trading that ceases before the next open would have begun even earlier
          obtain ⟨o, afterClosed, before, begins⟩ := exists_begins closed ceases.1 (by omega)
          have := least.2 ⟨afterClosed.le, begins⟩
          omega

end

/-- The instant at which the closed window around an instant stops, or the instant itself where
there is none. -/
def ClosedUntil (windows : List Closure) (ts stop : Int) : Prop :=
  (∃ w ∈ windows, w.start ≤ ts ∧ ts < w.stop ∧ stop = w.stop) ∨
    (∀ w ∈ windows, ¬ (w.start ≤ ts ∧ ts < w.stop)) ∧ stop = ts

/-- Windows that share no instant leave one instant only from which a search may start. -/
theorem Regular.searchFrom_eq (regular : c.Regular) {stop : Int}
    (ends : ClosedUntil c.closures ts stop) : c.searchFrom ts = stop := by
  rcases regular.searchFrom_spec ts with ⟨w, hw, held, stops⟩ | ⟨free, same⟩
  · rcases ends with ⟨v, hv, after, before, rfl⟩ | ⟨outside, -⟩
    · have vHeld : v.holds ts = true := Closure.holds_iff.2 ⟨after, before⟩
      have first := regular.formed.closureAt?_eq_some.2 ⟨hw, held⟩
      have second := regular.formed.closureAt?_eq_some.2 ⟨hv, vHeld⟩
      rw [stops, Option.some.inj (first.symm.trans second)]
    · exact absurd (Closure.holds_iff.1 held) (outside w hw)
  · rcases ends with ⟨v, hv, after, before, -⟩ | ⟨-, rfl⟩
    · exact absurd ⟨after, before⟩ (not_holds_iff.1 (free v hv))
    · exact same

variable {windows : List Closure} {tag : String} {description : Settings}
  {profile : Option Profile} {z : Zone}

/-- The next open and the next pause are exact.  The market has an answer at the instant.  From an
open instant the next pause is the first, and the market is open until then; from any instant the
next open is the first opening if one comes within 420 days of the closed window, and the next pause
after it ends the run that starts there. -/
theorem transitions_exact
    (healthy : (create windows tag description profile).healthError = none) (steady : z.Steady)
    (far : ((create windows tag description profile).inZone z).FarFromLimits ts) {stop : Int}
    (ends : ClosedUntil (givenWindows windows profile) ts stop) :
    let c := (create windows tag description profile).inZone z
    (∃ answer, c.isOpen ts = .ok answer) ∧
    (c.isOpen ts = .ok true →
      ∃ pause, c.nextPause ts = .ok pause ∧ IsLeast {p | ts < p ∧ c.Pauses p} pause ∧
        ∀ t, ts ≤ t → t < pause → c.isOpen t = .ok true) ∧
    ((∃ o, stop ≤ o ∧ o < stop + 420 * dayMs ∧ c.Opens o) →
      ∃ next, c.nextOpen ts = .ok next ∧ IsLeast {o | ts ≤ o ∧ c.Opens o} next ∧
        (c.isOpen ts = .ok false →
          ∃ pause, c.nextPause ts = .ok pause ∧ IsLeast {p | ts < p ∧ c.Pauses p} pause ∧
            next < pause ∧ ∀ t, next ≤ t → t < pause → c.isOpen t = .ok true)) := by
  intro c
  have regular : c.Regular := create_regular healthy steady
  have start : c.searchFrom ts = stop := by
    apply regular.searchFrom_eq
    have same := mem_closures_create healthy
    rcases ends with ⟨w, hw, held⟩ | ⟨outside, unmoved⟩
    · exact Or.inl ⟨w, (same w).2 hw, held⟩
    · exact Or.inr ⟨fun w hw => outside w ((same w).1 hw), unmoved⟩
  have room := regular.roomy_of_far far
  have answer : c.isOpen ts = .ok (c.trades ts) := regular.isOpen_eq room
  refine ⟨⟨_, answer⟩, fun opened => ?_, ?_⟩
  · obtain ⟨pause, found, least, stays, inWindow⟩ :=
      regular.nextPause_of_trades room (Except.ok.inj (answer.symm.trans opened))
    have follows : c.Follows ts pause := (regular.follows_window room inWindow).mono (by omega) le_rfl
    exact ⟨pause, found, follows.isLeast_pauses least, follows.stays stays⟩
  · rintro ⟨o, late, near, opens⟩
    have reach : (maxHops : Int) * hopMs = 420 * dayMs := rfl
    rw [← start] at late near
    rw [← reach] at near
    obtain ⟨first, last⟩ := regular.searched_roomy far
    have begins : c.Begins o :=
      ((regular.follows_between (first.between last late near.le) last).opens_iff le_rfl near.le).1
        opens
    obtain ⟨next, found, least, nextRoom⟩ := regular.nextOpen_spec far late near begins
    refine ⟨next, found, (regular.follows_between room nextRoom).isLeast_opens least,
      fun closed => ?_⟩
    obtain ⟨pause, stopFound, stopLeast, after, stays, inWindow⟩ := regular.nextPause_of_closed room
      (Except.ok.inj (answer.symm.trans closed)) found least nextRoom
    have follows : c.Follows ts pause :=
      ((regular.follows_between room nextRoom).trans (regular.follows_window nextRoom inWindow)).mono
        (by omega) le_rfl
    exact ⟨pause, stopFound, follows.isLeast_pauses stopLeast, after,
      (follows.mono least.1.1 le_rfl).stays stays⟩

/-- Over Christmas in New York, where the closed window ends in the middle of a trading day. -/
theorem transitions_newYork_christmas :
    let c := (create [⟨1735084800000, 1735171200000⟩] "us" .standard none).inZone newYork
    ∃ next pause, c.nextOpen 1735100000000 = .ok next ∧ c.nextPause 1735100000000 = .ok pause ∧
      IsLeast {o | 1735100000000 ≤ o ∧ c.Opens o} next ∧
        IsLeast {p | 1735100000000 < p ∧ c.Pauses p} pause := by
  intro c
  have healthy : c.healthError = none := by decide +kernel
  have far : c.FarFromLimits 1735100000000 :=
    .of_short_break (by decide +kernel) (by decide) (by decide)
      (create_regular healthy newYork_steady).formed
  have ends : ClosedUntil [⟨1735084800000, 1735171200000⟩] 1735100000000 1735171200000 :=
    Or.inl ⟨_, List.mem_cons_self, by decide, by decide, rfl⟩
  have opens : c.Opens 1735171200000 := ⟨by decide +kernel, by decide +kernel⟩
  obtain ⟨next, found, least, whileClosed⟩ := (transitions_exact healthy newYork_steady far ends).2.2
    ⟨1735171200000, le_rfl, by decide, opens⟩
  obtain ⟨pause, stopFound, first, -⟩ := whileClosed (by decide +kernel)
  exact ⟨next, pause, found, stopFound, least, first⟩

end MarketBook.Calendar
