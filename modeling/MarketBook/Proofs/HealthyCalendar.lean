/-
Module: MarketBook.Proofs.HealthyCalendar
Purpose: What building a calendar guarantees of its clock times, its break and its closed windows.
Main exports:
  ClockTime.IsValid, Calendar.WellFormed, Calendar.create_wellFormed, Calendar.mem_closures_create,
  Calendar.WellFormed.closureAt?_eq_none
-/
import Mathlib.Tactic.SplitIfs
import MarketBook.Calendar.Query
import MarketBook.Proofs.ClosureLists

namespace MarketBook

open Time

namespace ClockTime

/-- A time that a clock of twenty-four hours shows. -/
def IsValid (t : ClockTime) : Prop :=
  t.hour ≤ 23 ∧ t.minute ≤ 59

theorem read_isValid {raw : String} {t : ClockTime} (h : read raw = .ok t) : t.IsValid := by
  unfold read at h
  simp only at h
  split at h
  · split_ifs at h with inRange
    · cases h
      exact inRange
    · cases h
  · cases h

theorem ms_nonneg (t : ClockTime) : 0 ≤ t.ms := by
  simp only [ms, minutes, minuteMs, Int.ofNat_eq_natCast]
  omega

theorem IsValid.ms_lt {t : ClockTime} (valid : t.IsValid) : t.ms < dayMs := by
  obtain ⟨hour, minute⟩ := valid
  simp only [ms, minutes, minuteMs, dayMs, Int.ofNat_eq_natCast]
  omega

theorem ms_whole (t : ClockTime) : t.ms % minuteMs = 0 := by
  simp [ms]

end ClockTime

namespace Calendar

/-- The parts of a calendar that every description leaves in order, a broken one included. -/
structure WellFormed (c : Calendar) : Prop where
  weeklyOpen : c.weeklyOpen.IsValid
  weeklyClose : c.weeklyClose.IsValid
  breakStart : c.breakStart.IsValid
  breakMinutes : 0 ≤ c.breakMinutes
  sound : ∀ w ∈ c.closures, w.IsSound
  apart : Closure.Apart c.closures

theorem clockOf_isValid (field raw : String) : (clockOf field raw).1.IsValid := by
  unfold clockOf
  split
  case h_1 t h => exact ClockTime.read_isValid h
  case h_2 => simp [ClockTime.IsValid, ClockTime.midnight]

/-- The windows of a calendar are in order; those of a list that cannot be used are none. -/
theorem closuresOf_spec (windows : List Closure) :
    (∀ w ∈ (closuresOf windows).1, w.IsSound) ∧ Closure.Apart (closuresOf windows).1 ∧
      ((closuresOf windows).2 = [] → ∀ w, w ∈ (closuresOf windows).1 ↔ w ∈ windows) := by
  unfold closuresOf
  split
  case h_1 closures h =>
    obtain ⟨rfl, sound, apart⟩ := Closure.normalize_eq_ok.1 h
    have sorted := fun w => (Closure.sort_perm (Closure.distinct windows)).mem_iff (a := w)
    refine ⟨fun w hw => sound w ((sorted w).1 hw), apart, fun _ w => ?_⟩
    rw [sorted, Closure.mem_distinct]
  case h_2 => exact ⟨by simp, List.Pairwise.nil, by simp⟩

theorem build_wellFormed (tag : String) (s : Settings) (windows : List Closure) :
    (build tag s windows).WellFormed where
  weeklyOpen := clockOf_isValid _ _
  weeklyClose := clockOf_isValid _ _
  breakStart := clockOf_isValid _ _
  breakMinutes := Int.le_max_right _ _
  sound := (closuresOf_spec windows).1
  apart := (closuresOf_spec windows).2.1

/-- The windows that a calendar is given: its own and those of its profile. -/
def givenWindows (windows : List Closure) (profile : Option Profile) : List Closure :=
  windows ++ (profile.map Profile.closures).getD []

/-- With or without a profile, a calendar is built from one schedule and the given windows. -/
theorem create_eq_build (windows : List Closure) (tag : String) (s : Settings)
    (profile : Option Profile) :
    ∃ tag' s', create windows tag s profile = build tag' s' (givenWindows windows profile) := by
  cases profile with
  | none => exact ⟨tag, s, by simp [create, givenWindows]⟩
  | some p => exact ⟨p.tag, .ofProfile p, by simp [create, givenWindows]⟩

variable {windows : List Closure} {tag : String} {s : Settings} {profile : Option Profile}

theorem create_wellFormed : (create windows tag s profile).WellFormed := by
  obtain ⟨tag', s', built⟩ := create_eq_build windows tag s profile
  rw [built]
  exact build_wellFormed tag' s' _

theorem healthError_eq_none {c : Calendar} : c.healthError = none ↔ c.isBroken = false := by
  unfold healthError
  split <;> simp_all

theorem defects_eq_nil_of_healthy {c : Calendar} (healthy : c.healthError = none) :
    c.defects = [] := by
  simpa [isBroken] using healthError_eq_none.1 healthy

/-- A healthy calendar holds exactly the windows that it was given. -/
theorem mem_closures_create (healthy : (create windows tag s profile).healthError = none)
    (w : Closure) :
    w ∈ (create windows tag s profile).closures ↔ w ∈ givenWindows windows profile := by
  obtain ⟨tag', s', built⟩ := create_eq_build windows tag s profile
  rw [built] at healthy ⊢
  have none := defects_eq_nil_of_healthy healthy
  simp only [build, List.append_eq_nil_iff] at none
  exact (closuresOf_spec _).2.2 none.2 w

/-- The same calendar by the clock of another zone.  The zone data hold the zones of the market only,
and nothing but the clock of a zone enters its schedule. -/
def inZone (c : Calendar) (z : Zone) : Calendar :=
  { c with zone := z }

@[simp] theorem inZone_closures (c : Calendar) (z : Zone) : (c.inZone z).closures = c.closures := rfl

theorem WellFormed.inZone {c : Calendar} (formed : c.WellFormed) (z : Zone) :
    (c.inZone z).WellFormed := by
  obtain ⟨weeklyOpen, weeklyClose, breakStart, breakMinutes, sound, apart⟩ := formed
  exact ⟨weeklyOpen, weeklyClose, breakStart, breakMinutes, sound, apart⟩

theorem WellFormed.closureAt?_eq_some {c : Calendar} (formed : c.WellFormed) {ts : Int}
    {w : Closure} : c.closureAt? ts = some w ↔ w ∈ c.closures ∧ w.holds ts = true :=
  Closure.containing?_eq_some formed.apart

theorem WellFormed.closureAt?_eq_none {c : Calendar} (formed : c.WellFormed) {ts : Int} :
    c.closureAt? ts = none ↔ ∀ w ∈ c.closures, w.holds ts = false :=
  Closure.containing?_eq_none formed.apart

end Calendar

end MarketBook
