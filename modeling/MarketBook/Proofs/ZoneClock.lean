/-
Module: MarketBook.Proofs.ZoneClock
Purpose: How the clock of a zone runs when its changes are small and far apart, and the first
  instant at which it shows a wall time or a later one.
Main exports:
  Zone.Gentle, Zone.KeepsDate, Zone.Steady, Zone.Gentle.wallAt_near, Zone.Gentle.wallAt_drop,
  Zone.Steady.dayAt_mono, Zone.firstAt, Zone.Gentle.firstAt_isLeast, Zone.Steady.midnight_le_iff
-/
import Mathlib.Data.List.Chain
import Mathlib.Order.Bounds.Basic
import Mathlib.Tactic.Linarith
import MarketBook.Zone.Data

namespace MarketBook.Zone

open Time

/-!
The zones of the market change their clock by an hour or two, some months apart.  What follows from
that is collected here once: over seven days the clock gains or loses two hours at most, it never
falls more than two hours behind a reading it has shown, and where it jumps it goes from one whole
minute to another and then runs on for seven days.

A schedule in wall time becomes a schedule in instants through `firstAt`, the first instant at which
the clock shows a wall time or a later one.  It is defined for every zone, also for wall times that
are skipped or repeated.
-/

/-- The milliseconds of seven days, the least distance of two changes. -/
def weekMs : Int := 7 * dayMs

/-- The greatest size of a change: two hours. -/
def maxShift : Int := 120 * minuteMs

/-- A condition on every change of a list and on the offset in force before it. -/
def EachFrom (condition : Int → Change → Prop) : Int → List Change → Prop
  | _, [] => True
  | before, c :: r => condition before c ∧ EachFrom condition c.offset r

instance EachFrom.decidable (condition : Int → Change → Prop)
    [∀ before c, Decidable (condition before c)] :
    ∀ before changes, Decidable (EachFrom condition before changes)
  | _, [] => isTrue trivial
  | before, c :: r =>
      have := EachFrom.decidable condition c.offset r
      inferInstanceAs (Decidable (condition before c ∧ EachFrom condition c.offset r))

/-- The clock goes from one whole minute to another, two hours away at most. -/
def IsGentle (before : Int) (c : Change) : Prop :=
  (c.instant + before) % minuteMs = 0 ∧ (c.instant + c.offset) % minuteMs = 0 ∧
    c.offset - before ≤ maxShift ∧ before - c.offset ≤ maxShift

instance (before : Int) (c : Change) : Decidable (IsGentle before c) :=
  inferInstanceAs (Decidable (_ ∧ _))

/-- The date does not go back: the last date before the change is not after the date at it. -/
def IsDateKept (before : Int) (c : Change) : Prop :=
  (c.instant - 1 + before) / dayMs ≤ (c.instant + c.offset) / dayMs

instance (before : Int) (c : Change) : Decidable (IsDateKept before c) :=
  inferInstanceAs (Decidable (_ ≤ _))

/-- Seven days lie between two changes, or more. -/
def Spaced (changes : List Change) : Prop :=
  changes.Pairwise fun a b => a.instant + weekMs ≤ b.instant

/-- The distances add up, so it is enough to look at neighbours. -/
instance (changes : List Change) : Decidable (Spaced changes) :=
  have : Trans (fun a b : Change => a.instant + weekMs ≤ b.instant)
      (fun a b : Change => a.instant + weekMs ≤ b.instant)
      (fun a b : Change => a.instant + weekMs ≤ b.instant) :=
    ⟨fun hab hbc => by simp only [weekMs, dayMs] at *; omega⟩
  decidable_of_iff (changes.IsChain fun a b => a.instant + weekMs ≤ b.instant)
    List.isChain_iff_pairwise

/-- The changes are whole minutes, at most two hours, and at least seven days apart. -/
structure Gentle (z : Zone) : Prop where
  eachSmall : EachFrom IsGentle z.first z.changes
  spaced : Spaced z.changes

/-- No change makes the local date go back. -/
def KeepsDate (z : Zone) : Prop :=
  EachFrom IsDateKept z.first z.changes

/-- The changes are whole minutes, at most two hours, at least seven days apart, and never make the
local date go back. -/
structure Steady (z : Zone) : Prop extends Gentle z where
  keepsDate : KeepsDate z

instance (z : Zone) : Decidable (Steady z) :=
  decidable_of_iff
    ((EachFrom IsGentle z.first z.changes ∧ Spaced z.changes) ∧
      EachFrom IsDateKept z.first z.changes)
    ⟨fun h => ⟨⟨h.1.1, h.1.2⟩, h.2⟩, fun h => ⟨⟨h.eachSmall, h.spaced⟩, h.keepsDate⟩⟩

/-! ### The offset along the changes -/

theorem offsetFrom_of_lt {ts offset : Int} {changes : List Change}
    (later : ∀ c ∈ changes, ts < c.instant) : offsetFrom ts offset changes = offset := by
  cases changes with
  | nil => rfl
  | cons c r => simp [offsetFrom, later c (by simp)]

theorem Spaced.head {c : Change} {r : List Change} (spaced : Spaced (c :: r)) :
    ∀ d ∈ r, c.instant + weekMs ≤ d.instant :=
  (List.pairwise_cons.1 spaced).1

theorem Spaced.tail {c : Change} {r : List Change} (spaced : Spaced (c :: r)) : Spaced r :=
  (List.pairwise_cons.1 spaced).2

/-- For seven days from a change on, its offset stays in force. -/
theorem offsetFrom_after {c : Change} {r : List Change} {ts : Int} (spaced : Spaced (c :: r))
    (near : ts < c.instant + weekMs) : offsetFrom ts c.offset r = c.offset := by
  refine offsetFrom_of_lt fun d hd => ?_
  have := spaced.head d hd
  omega

/-- Over seven days the offset moves by two hours at most, because one change at most lies in
them. -/
theorem offsetFrom_near {s t : Int} (hst : s ≤ t) (near : t ≤ s + weekMs) :
    ∀ {offset : Int} {changes : List Change}, EachFrom IsGentle offset changes → Spaced changes →
      offsetFrom t offset changes - offsetFrom s offset changes ≤ maxShift ∧
        offsetFrom s offset changes - offsetFrom t offset changes ≤ maxShift
  | offset, [], _, _ => by simp [offsetFrom, maxShift, minuteMs]
  | offset, c :: r, gentle, spaced => by
      by_cases hs : s < c.instant
      · by_cases ht : t < c.instant
        · simp [offsetFrom, hs, ht, maxShift, minuteMs]
        · have stays : offsetFrom t c.offset r = c.offset := offsetFrom_after spaced (by omega)
          obtain ⟨-, -, forward, back⟩ := gentle.1
          simp only [offsetFrom, hs, ht, if_true, if_false, stays]
          omega
      · have ht : ¬ t < c.instant := by omega
        simp only [offsetFrom, hs, ht, if_false]
        exact offsetFrom_near hst near gentle.2 spaced.tail

/-- Where the offset moves, the clock goes from a whole minute to a whole minute, and the new offset
stays in force for seven days. -/
theorem offsetFrom_jump {r : Int} :
    ∀ {offset : Int} {changes : List Change}, EachFrom IsGentle offset changes → Spaced changes →
      offsetFrom r offset changes ≠ offsetFrom (r - 1) offset changes →
      (r + offsetFrom r offset changes) % minuteMs = 0 ∧
        ∀ t, r ≤ t → t < r + weekMs → offsetFrom t offset changes = offsetFrom r offset changes
  | offset, [], _, _, moved => by simp [offsetFrom] at moved
  | offset, c :: rest, gentle, spaced, moved => by
      by_cases before : r < c.instant
      · have : r - 1 < c.instant := by omega
        simp [offsetFrom, before, this] at moved
      · by_cases at_ : r - 1 < c.instant
        · -- the change is at `r` itself
          have here : c.instant = r := by omega
          have stays : ∀ t, t < r + weekMs → offsetFrom t c.offset rest = c.offset :=
            fun t ht => offsetFrom_after spaced (by omega)
          have first := stays r (by simp only [weekMs, dayMs]; omega)
          simp only [offsetFrom, before, if_false, first]
          refine ⟨here ▸ gentle.1.2.1, fun t ht near => ?_⟩
          have : ¬ t < c.instant := by omega
          simp only [this, if_false, stays t near]
        · simp only [offsetFrom, before, at_, if_false] at moved ⊢
          obtain ⟨whole, stays⟩ := offsetFrom_jump gentle.2 spaced.tail moved
          refine ⟨whole, fun t ht near => ?_⟩
          have : ¬ t < c.instant := by omega
          simp only [this, if_false, stays t ht near]

/-- The date of an instant is not before the date of the instant before it. -/
theorem dayFrom_step (t : Int) :
    ∀ {offset : Int} {changes : List Change}, EachFrom IsDateKept offset changes → Spaced changes →
      (t - 1 + offsetFrom (t - 1) offset changes) / dayMs ≤ (t + offsetFrom t offset changes) / dayMs
  | offset, [], _, _ => by
      simp only [offsetFrom, dayMs]
      omega
  | offset, c :: r, kept, spaced => by
      by_cases before : t < c.instant
      · have : t - 1 < c.instant := by omega
        simp only [offsetFrom, before, this, if_true, dayMs]
        omega
      · by_cases at_ : t - 1 < c.instant
        · have here : c.instant = t := by omega
          have stays : offsetFrom t c.offset r = c.offset :=
            offsetFrom_after spaced (by simp only [weekMs, dayMs]; omega)
          simp only [offsetFrom, before, at_, if_true, if_false, stays]
          exact here ▸ kept.1
        · simp only [offsetFrom, before, at_, if_false]
          exact dayFrom_step t kept.2 spaced.tail

/-! ### The clock -/

variable {z : Zone}

/-- Over seven days the clock gains or loses two hours at most. -/
theorem Gentle.wallAt_near (gentle : z.Gentle) {s t : Int} (hst : s ≤ t) (near : t ≤ s + weekMs) :
    z.wallAt t ≤ z.wallAt s + (t - s) + maxShift ∧ z.wallAt s + (t - s) ≤ z.wallAt t + maxShift := by
  obtain ⟨forward, back⟩ := offsetFrom_near hst near gentle.eachSmall gentle.spaced
  simp only [wallAt, offsetAt]
  omega

/-- The clock never falls more than two hours behind a reading that it has shown.  The induction
goes by weeks: each of them gains more than it can lose. -/
theorem Gentle.wallAt_drop (gentle : z.Gentle) {s : Int} (t : Int) (hst : s ≤ t) :
    z.wallAt s ≤ z.wallAt t + maxShift := by
  by_cases near : t ≤ s + weekMs
  · have := (gentle.wallAt_near hst near).2
    omega
  · have week := (gentle.wallAt_near (s := s) (t := s + weekMs)
      (by simp only [weekMs, dayMs]; omega) le_rfl).2
    have later := gentle.wallAt_drop (s := s + weekMs) t (by omega)
    simp only [weekMs, dayMs, maxShift, minuteMs] at week later ⊢
    omega
termination_by (t - s).toNat
decreasing_by
  simp only [weekMs, dayMs] at near ⊢
  omega

/-- Where the clock does not go on by one, it comes to a whole minute and then runs on for seven
days. -/
theorem Gentle.wallAt_jump (gentle : z.Gentle) {r : Int} (jump : z.wallAt r ≠ z.wallAt (r - 1) + 1) :
    z.wallAt r % minuteMs = 0 ∧
      ∀ t, r ≤ t → t < r + weekMs → z.wallAt t = z.wallAt r + (t - r) := by
  have moved : offsetFrom r z.first z.changes ≠ offsetFrom (r - 1) z.first z.changes := by
    simp only [wallAt, offsetAt] at jump
    omega
  obtain ⟨whole, stays⟩ := offsetFrom_jump gentle.eachSmall gentle.spaced moved
  refine ⟨whole, fun t ht near => ?_⟩
  simp only [wallAt, offsetAt, stays t ht near]
  omega

/-- Where the clock does not go on by one, it shows later times ever after. -/
theorem Gentle.wallAt_lt_of_jump (gentle : z.Gentle) {r : Int}
    (jump : z.wallAt r ≠ z.wallAt (r - 1) + 1) {t : Int} (hrt : r < t) :
    z.wallAt r < z.wallAt t := by
  have runs := (gentle.wallAt_jump jump).2
  by_cases near : t < r + weekMs
  · have := runs t (by omega) near
    omega
  · have last := runs (r + weekMs - 1) (by simp only [weekMs, dayMs]; omega) (by omega)
    have drop := gentle.wallAt_drop (s := r + weekMs - 1) t (by omega)
    simp only [weekMs, dayMs, maxShift, minuteMs] at *
    omega

theorem Steady.dayAt_mono (steady : z.Steady) {s t : Int} (hst : s ≤ t) : z.dayAt s ≤ z.dayAt t := by
  induction t, hst using Int.leInduction with
  | base => exact le_rfl
  | succ t _ ih =>
      apply ih.trans
      have := dayFrom_step (t + 1) steady.keepsDate steady.spaced
      rwa [Int.add_sub_cancel] at this

/-! ### The first instant of a wall time -/

/-- An instant, or the start of a span that starts later. -/
def atOrAfter (start : Option Int) (ts : Int) : Int :=
  match start with
  | none => ts
  | some s => max s ts

/-- The first instant from `start` on at which the clock shows the wall time or a later one, where
`offset` is in force at the start. -/
def firstFrom (wall : Int) : Option Int → Int → List Change → Int
  | start, offset, [] => atOrAfter start (wall - offset)
  | start, offset, c :: r =>
    if atOrAfter start (wall - offset) < c.instant then atOrAfter start (wall - offset)
    else firstFrom wall (some c.instant) c.offset r

/-- The first instant at which the clock of the zone shows the wall time or a later one. -/
def firstAt (z : Zone) (wall : Int) : Int :=
  firstFrom wall none z.first z.changes

theorem atOrAfter_le_iff {start : Option Int} {ts t : Int} :
    atOrAfter start ts ≤ t ↔ notBefore start t = true ∧ ts ≤ t := by
  cases start <;> simp [atOrAfter, notBefore]

theorem Spaced.ascending {changes : List Change} (spaced : Spaced changes) :
    ∀ {start : Option Int}, (∀ c ∈ changes, notBefore start c.instant = true) →
      Ascending start changes := by
  induction changes with
  | nil => exact fun _ => trivial
  | cons c r ih =>
      intro start late
      refine ⟨late c (by simp), ih spaced.tail fun d hd => ?_⟩
      have := spaced.head d hd
      simp only [weekMs, dayMs] at this
      simp only [notBefore, decide_eq_true_eq]
      omega

theorem Gentle.ascending (gentle : z.Gentle) : Ascending none z.changes :=
  gentle.spaced.ascending fun _ _ => rfl

/-- The span in which the clock first shows the wall time or a later one is the first that has such
an instant at all. -/
theorem firstFrom_isLeast {wall : Int} :
    ∀ {start : Option Int} {offset : Int} {changes : List Change}, Ascending start changes →
      IsLeast {ts | notBefore start ts = true ∧ wall ≤ ts + offsetFrom ts offset changes}
        (firstFrom wall start offset changes)
  | start, offset, [], _ => by
      have reached := atOrAfter_le_iff.1 (le_refl (atOrAfter start (wall - offset)))
      refine ⟨⟨reached.1, ?_⟩, fun ts h => atOrAfter_le_iff.2 ⟨h.1, ?_⟩⟩
      · simp only [offsetFrom, firstFrom]
        omega
      · have := h.2
        simp only [offsetFrom] at this
        omega
  | start, offset, c :: r, ordered => by
      have reached := atOrAfter_le_iff.1 (le_refl (atOrAfter start (wall - offset)))
      simp only [firstFrom]
      split
      case isTrue early =>
        refine ⟨⟨reached.1, ?_⟩, fun ts h => ?_⟩
        · simp only [offsetFrom, early, if_true]
          omega
        · by_cases before : ts < c.instant
          · have := h.2
            simp only [offsetFrom, before, if_true] at this
            exact atOrAfter_le_iff.2 ⟨h.1, by omega⟩
          · omega
      case isFalse late =>
        obtain ⟨⟨after, shows⟩, least⟩ :=
          @firstFrom_isLeast wall (some c.instant) c.offset r ordered.2
        simp only [notBefore, decide_eq_true_eq] at after least
        refine ⟨⟨?_, ?_⟩, fun ts h => ?_⟩
        · cases start with
          | none => rfl
          | some s =>
              have := ordered.1
              simp only [notBefore, decide_eq_true_eq] at this ⊢
              omega
        · have : ¬ firstFrom wall (some c.instant) c.offset r < c.instant := by omega
          simp only [offsetFrom, this, if_false]
          exact shows
        · have reads := h.2
          by_cases before : ts < c.instant
          · simp only [offsetFrom, before, if_true] at reads
            have early : atOrAfter start (wall - offset) ≤ ts := atOrAfter_le_iff.2 ⟨h.1, by omega⟩
            omega
          · simp only [offsetFrom, before, if_false] at reads
            exact least ⟨by omega, reads⟩

/-- `firstAt` is the least instant at which the clock shows the wall time or a later one. -/
theorem Gentle.firstAt_isLeast (gentle : z.Gentle) (wall : Int) :
    IsLeast {ts | wall ≤ z.wallAt ts} (z.firstAt wall) := by
  have := @firstFrom_isLeast wall none z.first z.changes gentle.ascending
  simpa [notBefore, firstAt, wallAt, offsetAt] using this

theorem Gentle.le_wallAt_firstAt (gentle : z.Gentle) (wall : Int) :
    wall ≤ z.wallAt (z.firstAt wall) :=
  (gentle.firstAt_isLeast wall).1

theorem Gentle.firstAt_le (gentle : z.Gentle) {wall ts : Int} (reached : wall ≤ z.wallAt ts) :
    z.firstAt wall ≤ ts :=
  (gentle.firstAt_isLeast wall).2 reached

theorem Gentle.wallAt_lt_of_lt (gentle : z.Gentle) {wall ts : Int} (early : ts < z.firstAt wall) :
    z.wallAt ts < wall := by
  by_contra reached
  have := gentle.firstAt_le (Int.not_lt.1 reached)
  omega

theorem Gentle.wallAt_before_firstAt (gentle : z.Gentle) (wall : Int) :
    z.wallAt (z.firstAt wall - 1) < wall :=
  gentle.wallAt_lt_of_lt (Int.sub_one_lt_of_le le_rfl)

theorem Gentle.firstAt_mono (gentle : z.Gentle) {wall later : Int} (h : wall ≤ later) :
    z.firstAt wall ≤ z.firstAt later :=
  gentle.firstAt_le (h.trans (gentle.le_wallAt_firstAt later))

theorem Gentle.lt_of_firstAt_lt (gentle : z.Gentle) {wall later : Int}
    (h : z.firstAt wall < z.firstAt later) : wall < later := by
  by_contra backwards
  have := gentle.firstAt_mono (Int.not_lt.1 backwards)
  omega

theorem Gentle.firstAt_max (gentle : z.Gentle) (a b : Int) :
    z.firstAt (max a b) = max (z.firstAt a) (z.firstAt b) := by
  rcases Int.le_total a b with h | h
  · rw [max_eq_right h, max_eq_right (gentle.firstAt_mono h)]
  · rw [max_eq_left h, max_eq_left (gentle.firstAt_mono h)]

/-! ### Local days -/

/-- The local day has begun at an instant exactly if its date is that day or a later one. -/
theorem Steady.midnight_le_iff (steady : z.Steady) {day ts : Int} :
    z.firstAt (day * dayMs) ≤ ts ↔ day ≤ z.dayAt ts := by
  have dated : ∀ t, day * dayMs ≤ z.wallAt t ↔ day ≤ z.dayAt t := fun t => by
    simp only [dayAt]
    rw [Int.le_ediv_iff_mul_le (by simp [dayMs])]
  constructor
  · intro h
    have := (dated _).1 (steady.le_wallAt_firstAt (day * dayMs))
    exact this.trans (steady.dayAt_mono h)
  · exact fun h => steady.firstAt_le ((dated ts).2 h)

theorem Steady.lt_midnight_iff (steady : z.Steady) {day ts : Int} :
    ts < z.firstAt (day * dayMs) ↔ z.dayAt ts < day := by
  rw [← not_le, steady.midnight_le_iff, not_le]

/-- Every local day has a first instant of its own. -/
theorem Steady.dayAt_midnight (steady : z.Steady) (day : Int) :
    z.dayAt (z.firstAt (day * dayMs)) = day := by
  refine le_antisymm ?_ (steady.midnight_le_iff.1 le_rfl)
  have before := steady.wallAt_before_firstAt (day * dayMs)
  have step := (steady.wallAt_near (s := z.firstAt (day * dayMs) - 1)
    (t := z.firstAt (day * dayMs)) (by omega) (by simp only [weekMs, dayMs]; omega)).1
  simp only [dayAt]
  simp only [dayMs, maxShift, minuteMs] at *
  omega

/-- The first instant of a local day. -/
theorem Steady.midnight_isLeast (steady : z.Steady) (day : Int) :
    IsLeast {t | z.dayAt t = day} (z.firstAt (day * dayMs)) :=
  ⟨steady.dayAt_midnight day, fun _ onDay => steady.midnight_le_iff.2 (Eq.ge onDay)⟩

theorem Steady.midnight_lt (steady : z.Steady) {day later : Int} (h : day < later) :
    z.firstAt (day * dayMs) < z.firstAt (later * dayMs) := by
  rw [steady.lt_midnight_iff, steady.dayAt_midnight]
  exact h

/-- Over some days of a week, the date goes on by as many days, one more or one less. -/
theorem Gentle.dayAt_add_days (gentle : z.Gentle) (ts : Int) {n : Int} (positive : 0 ≤ n)
    (short : n ≤ 7) :
    z.dayAt ts + n - 1 ≤ z.dayAt (ts + n * dayMs) ∧
      z.dayAt (ts + n * dayMs) ≤ z.dayAt ts + n + 1 := by
  have near := gentle.wallAt_near (s := ts) (t := ts + n * dayMs)
    (by simp only [dayMs]; omega) (by simp only [weekMs, dayMs]; omega)
  simp only [dayAt, dayMs, maxShift, minuteMs] at *
  omega

/-- The clock of New York is steady in all the years on record. -/
theorem newYork_steady : newYork.Steady := by
  decide +kernel

end MarketBook.Zone
