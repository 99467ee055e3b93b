/-
Module: MarketBook.Proofs.WallInstants
Purpose: The bound of a schedule becomes the first instant at which the clock shows it or a later
  time.
Main exports:
  Zone.Gentle.showings_ascend, Zone.WallRoom, Zone.WallRoom.readings_eq, Zone.Gentle.showings_of_gap,
  Zone.Gentle.instantOf_lenient, Zone.Gentle.boundInstant?_eq_firstAt
-/
import MarketBook.Proofs.ZoneClock
import MarketBook.Zone.Wall

namespace MarketBook.Zone

open Time

/-!
A wall time on a whole minute is converted by one of two ways.  If the clock shows it, the first of
its readings is taken.  If it lies in a gap, the search goes on by whole minutes; since the gap ends
on a whole minute and is two hours long at most, the search ends exactly at its end.  Both ways lead
to `firstAt`, as long as the date type has room around the wall time: a day to each side for the
offset, and two hours more for a gap.
-/

/-- The showings of a wall time stand in the order of time. -/
theorem showingsFrom_ascend {wall : Int} :
    ∀ {start : Option Int} {offset : Int} {changes : List Change}, Ascending start changes →
      (showingsFrom wall start offset changes).Pairwise (· < ·)
  | start, offset, [], _ => by
      simp only [showingsFrom]
      split <;> simp
  | start, offset, c :: r, ordered => by
      have rest := @showingsFrom_ascend wall (some c.instant) c.offset r ordered.2
      simp only [showingsFrom]
      split
      case isTrue holds =>
        refine List.pairwise_cons.2 ⟨fun ts hts => ?_, rest⟩
        have late := ((mem_showingsFrom_iff ordered.2).1 hts).1
        simp only [Bool.and_eq_true, notBefore, decide_eq_true_eq] at holds late
        omega
      case isFalse => exact rest

theorem Gentle.showings_ascend {z : Zone} (gentle : z.Gentle) (wall : Int) :
    (z.showings wall).Pairwise (· < ·) :=
  showingsFrom_ascend gentle.ascending

theorem Gentle.mem_showings {z : Zone} (gentle : z.Gentle) {wall ts : Int} :
    ts ∈ z.showings wall ↔ z.wallAt ts = wall :=
  mem_showings_iff gentle.ascending

section

variable {z : Zone} {wall y : Int}

/-! ### Room in the date type -/

/-- The date type has room for every offset around a wall time, and for a gap behind it. -/
def WallRoom (wall : Int) : Prop :=
  hasDate (wall - dayMs) = true ∧ hasDate (wall + dayMs + maxShift) = true

theorem WallRoom.between {lower upper : Int} (lowerRoom : WallRoom lower) (upperRoom : WallRoom upper)
    (above : lower ≤ wall) (below : wall ≤ upper) : WallRoom wall :=
  ⟨hasDate_between lowerRoom.1 upperRoom.2 (by omega)
      (by simp only [dayMs, maxShift, minuteMs]; omega),
    hasDate_between lowerRoom.1 upperRoom.2 (by simp only [dayMs, maxShift, minuteMs]; omega)
      (by omega)⟩

theorem WallRoom.dated (room : WallRoom wall) (after : wall ≤ y) (near : y ≤ wall + maxShift) :
    hasDate y = true :=
  hasDate_between room.1 room.2 (by simp only [dayMs]; omega) (by simp only [dayMs]; omega)

/-- Where the date type has room, a wall time is read at every instant that shows it. -/
theorem WallRoom.readings_eq (room : WallRoom wall) (gentle : z.Gentle) (after : wall ≤ y)
    (near : y ≤ wall + maxShift) : z.readings y = z.showings y := by
  have dated : ∀ ts ∈ z.showings y, hasDate ts = true := by
    intro ts hts
    have shows := gentle.mem_showings.1 hts
    have bounds := z.wallAt_bounds ts
    exact hasDate_between room.1 room.2 (by omega) (by omega)
  exact if_pos (List.all_eq_true.2 dated)

theorem WallRoom.readings_self (room : WallRoom wall) (gentle : z.Gentle) :
    z.readings wall = z.showings wall :=
  room.readings_eq gentle le_rfl (by simp only [maxShift, minuteMs]; omega)

/-! ### Gaps -/

/-- A wall time that the clock shows is first shown at its first instant. -/
theorem Gentle.showings_eq_cons (gentle : z.Gentle) (shown : z.wallAt (z.firstAt wall) = wall) :
    ∃ more, z.showings wall = z.firstAt wall :: more := by
  have listed : z.firstAt wall ∈ z.showings wall := gentle.mem_showings.2 shown
  have ascend := gentle.showings_ascend wall
  have least : ∀ ts ∈ z.showings wall, z.firstAt wall ≤ ts := fun ts hts =>
    gentle.firstAt_le (gentle.mem_showings.1 hts).ge
  cases h : z.showings wall with
  | nil => simp [h] at listed
  | cons a more =>
      rw [h] at listed ascend least
      rcases List.mem_cons.1 listed with same | behind
      · exact ⟨more, by rw [same]⟩
      · have := (List.pairwise_cons.1 ascend).1 _ behind
        have := least a (by simp)
        omega

/-- A wall time that the clock does not show at its first instant lies in a gap that ends there. -/
theorem Gentle.jump_of_skipped (gentle : z.Gentle) (skipped : z.wallAt (z.firstAt wall) ≠ wall) :
    z.wallAt (z.firstAt wall) ≠ z.wallAt (z.firstAt wall - 1) + 1 := by
  have reached := gentle.le_wallAt_firstAt wall
  have before := gentle.wallAt_before_firstAt wall
  omega

/-- No wall time of a gap is ever shown. -/
theorem Gentle.showings_of_gap (gentle : z.Gentle) (skipped : z.wallAt (z.firstAt wall) ≠ wall)
    (hy : wall ≤ y) (inGap : y < z.wallAt (z.firstAt wall)) : z.showings y = [] := by
  refine List.eq_nil_iff_forall_not_mem.2 fun ts hts => ?_
  have shows := gentle.mem_showings.1 hts
  rcases lt_trichotomy ts (z.firstAt wall) with early | rfl | late
  · have := gentle.wallAt_lt_of_lt early
    omega
  · omega
  · have := gentle.wallAt_lt_of_jump (gentle.jump_of_skipped skipped) late
    omega

/-- The end of a gap is shown exactly once. -/
theorem Gentle.showings_gap_end (gentle : z.Gentle) (skipped : z.wallAt (z.firstAt wall) ≠ wall) :
    z.showings (z.wallAt (z.firstAt wall)) = [z.firstAt wall] := by
  have only : ∀ ts ∈ z.showings (z.wallAt (z.firstAt wall)), ts = z.firstAt wall := by
    intro ts hts
    have shows := gentle.mem_showings.1 hts
    have reached := gentle.le_wallAt_firstAt wall
    rcases lt_trichotomy ts (z.firstAt wall) with early | same | late
    · have := gentle.wallAt_lt_of_lt early
      omega
    · exact same
    · have := gentle.wallAt_lt_of_jump (gentle.jump_of_skipped skipped) late
      omega
  have listed : z.firstAt wall ∈ z.showings (z.wallAt (z.firstAt wall)) := gentle.mem_showings.2 rfl
  have ascend := gentle.showings_ascend (z.wallAt (z.firstAt wall))
  generalize z.showings (z.wallAt (z.firstAt wall)) = found at *
  match found with
  | [] => simp at listed
  | [a] => rw [only a (by simp)]
  | a :: b :: _ =>
      have := (List.pairwise_cons.1 ascend).1 b (by simp)
      have := only a (by simp)
      have := only b (by simp)
      omega

/-- The search through a gap goes on to the first minute that is shown. -/
theorem nextSingle?_of_gap {target found : Int} (single : z.readings target = [found]) :
    ∀ {more : Nat} {wall : Int} (k : Nat), target = wall + (k + 1) * minuteMs → k < more →
      (∀ y, wall ≤ y → y ≤ target → hasDate y = true) →
      (∀ y, wall < y → y < target → z.readings y = []) → nextSingle? z more wall = .ok (some found)
  | 0, _, _, _, few, _, _ => absurd few (Nat.not_lt_zero _)
  | more + 1, wall, 0, reach, _, dated, _ => by
      have here : wall + minuteMs = target := by omega
      have inRange : hasDate target = true :=
        dated target (by simp only [minuteMs] at here; omega) le_rfl
      rw [nextSingle?, here, checkWall_eq inRange, Checked.ok_bind, single]
      rfl
  | more + 1, wall, k + 1, reach, few, dated, empty => by
      have ahead : target = wall + minuteMs + (k + 1) * minuteMs := by
        push_cast at reach
        linarith
      have onTheWay : wall < wall + minuteMs ∧ wall + minuteMs < target := by
        simp only [minuteMs] at *
        omega
      have inRange := dated (wall + minuteMs) onTheWay.1.le onTheWay.2.le
      rw [nextSingle?, checkWall_eq inRange, Checked.ok_bind, empty _ onTheWay.1 onTheWay.2]
      exact nextSingle?_of_gap single k ahead (by omega)
        (fun y hy => dated y (onTheWay.1.le.trans hy)) fun y hy => empty y (onTheWay.1.trans hy)

/-- A gap that is entered on a whole minute is left within the minutes that the search may take. -/
theorem Gentle.gap_minutes (gentle : z.Gentle) (whole : wall % minuteMs = 0)
    (skipped : z.wallAt (z.firstAt wall) ≠ wall) :
    ∃ k : Nat, k < shiftLimit ∧ z.wallAt (z.firstAt wall) = wall + (k + 1) * minuteMs := by
  have reached := gentle.le_wallAt_firstAt wall
  have before := gentle.wallAt_before_firstAt wall
  have endWhole := (gentle.wallAt_jump (gentle.jump_of_skipped skipped)).1
  have step := (gentle.wallAt_near (s := z.firstAt wall - 1) (t := z.firstAt wall) (by omega)
    (by simp only [weekMs, dayMs]; omega)).1
  refine ⟨((z.wallAt (z.firstAt wall) - wall) / minuteMs - 1).toNat, ?_, ?_⟩ <;>
    simp only [shiftLimit, minuteMs, maxShift] at * <;> omega

/-- A whole minute always has an instant when gaps are left at their end and the first of two
readings is taken: the first instant at which the clock shows it or a later time. -/
theorem Gentle.instantOf_lenient (gentle : z.Gentle) (whole : wall % minuteMs = 0)
    (room : WallRoom wall) : z.instantOf .lenient wall = .ok (.ok (z.firstAt wall)) := by
  unfold instantOf
  rw [room.readings_self gentle]
  by_cases shown : z.wallAt (z.firstAt wall) = wall
  · obtain ⟨more, listed⟩ := gentle.showings_eq_cons shown
    cases more with
    | nil => simp [listed]
    | cons b more => simp [listed, Policy.takesFirst]
  · obtain ⟨k, few, reach⟩ := gentle.gap_minutes whole shown
    have ahead := lt_of_le_of_ne (gentle.le_wallAt_firstAt wall) (Ne.symm shown)
    have near : z.wallAt (z.firstAt wall) ≤ wall + maxShift := by
      simp only [shiftLimit, minuteMs, maxShift] at *
      omega
    have here := gentle.showings_of_gap shown (le_refl wall) ahead
    have gapEnd := (room.readings_eq gentle ahead.le near).trans (gentle.showings_gap_end shown)
    have next := nextSingle?_of_gap gapEnd k reach few
      (fun y after before => room.dated after (before.trans near))
      fun y after before => (room.readings_eq gentle after.le (before.le.trans near)).trans
        (gentle.showings_of_gap shown after.le before)
    simp [here, Policy.shifts, next]

/-- A bound of a schedule on a whole minute becomes the first instant at which the clock shows it or
a later time. -/
theorem Gentle.boundInstant?_eq_firstAt (gentle : z.Gentle) (whole : wall % minuteMs = 0)
    (room : WallRoom wall) : z.boundInstant? wall = .ok (some (z.firstAt wall)) := by
  simp [boundInstant?, gentle.instantOf_lenient whole room, Except.toOption]

/-! ### Any clock -/

/-- A search through a gap that stays inside the dates comes to an end. -/
theorem nextSingle?_answers (z : Zone) (more : Nat) (dated : hasDate wall = true)
    (lastDated : hasDate (wall + more * minuteMs) = true) :
    ∃ found, nextSingle? z more wall = .ok found := by
  induction more generalizing wall with
  | zero => exact ⟨none, rfl⟩
  | succ more ih =>
      push_cast at lastDated
      have next : hasDate (wall + minuteMs) = true := by
        refine hasDate_between dated lastDated ?_ ?_ <;> simp only [minuteMs] <;> omega
      rw [nextSingle?, checkWall_eq next, Checked.ok_bind]
      split
      · exact ⟨_, rfl⟩
      · exact ih next (by rwa [Int.add_mul, Int.one_mul, Int.add_comm (more * minuteMs),
          ← Int.add_assoc] at lastDated)

/-- Where the date type has room, a bound of a schedule has an instant or none, by any clock. -/
theorem WallRoom.boundInstant?_answers (room : WallRoom wall) (z : Zone) :
    ∃ bound?, z.boundInstant? wall = .ok bound? := by
  have near : wall + shiftLimit * minuteMs ≤ wall + maxShift := by
    simp [shiftLimit, maxShift]
  obtain ⟨found, searched⟩ := nextSingle?_answers z shiftLimit
    (room.dated le_rfl (by simp only [maxShift, minuteMs]; omega))
    (room.dated (by simp only [shiftLimit, minuteMs]; omega) near)
  unfold boundInstant? instantOf
  split
  · exact ⟨_, rfl⟩
  · exact ⟨_, rfl⟩
  · cases found <;> exact ⟨_, by simp [Policy.shifts, searched]; rfl⟩

end

end MarketBook.Zone
