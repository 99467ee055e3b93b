/-
Module: MarketBook.Proofs.ClosureSets
Purpose: Which sets of closed windows a calendar accepts, and that neither the order in which they
  are given nor their repetitions matter.
Main exports:
  Closure.ShareNoInstant, Closure.Usable, Closure.sort_ascending, Closure.apart_sort_iff,
  Closure.normalizes_iff, Closure.normalize_reordered, Calendar.closures_exact
-/
import Mathlib.Data.List.Nodup
import Mathlib.Order.MinMax
import MarketBook.Proofs.HealthyCalendar

namespace MarketBook

open Time

namespace Closure

/-!
Only neighbours in the order of their starts are compared.  That is enough for all pairs: among
windows that are not empty, one that starts no later than another and shares no instant with it has
stopped by then.  In particular no two windows start together, so one order only is left to the
sorted list, however the windows were given.
-/

/-- No instant lies in both windows. -/
def ShareNoInstant (a b : Closure) : Prop :=
  ∀ ts, ¬ (a.holds ts = true ∧ b.holds ts = true)

/-- Windows that can be used together: the bounds of each are plausible time stamps in order, and no
two of them share an instant. -/
structure Usable (windows : List Closure) : Prop where
  sound : ∀ c ∈ windows, c.IsSound
  disjoint : windows.Pairwise ShareNoInstant

variable {a b : Closure} {windows other closures : List Closure}

/-! ### Two windows -/

theorem ShareNoInstant.symm (h : ShareNoInstant a b) : ShareNoInstant b a :=
  fun ts both => h ts ⟨both.2, both.1⟩

/-- The start of the later window would be shared. -/
theorem ShareNoInstant.stop_le (h : ShareNoInstant a b) (order : a.start ≤ b.start)
    (proper : b.start < b.stop) : a.stop ≤ b.start := by
  by_contra late
  exact h b.start ⟨holds_iff.2 ⟨order, not_le.1 late⟩, holds_iff.2 ⟨le_rfl, proper⟩⟩

theorem shareNoInstant_of_stop_le (h : a.stop ≤ b.start) : ShareNoInstant a b := by
  rintro ts ⟨inFirst, inSecond⟩
  rw [holds_iff] at inFirst inSecond
  omega

/-! ### The order of the starts -/

theorem insert_ascending (c : Closure)
    (ascending : closures.Pairwise fun a b => a.start ≤ b.start) :
    (insert c closures).Pairwise fun a b => a.start ≤ b.start := by
  induction closures with
  | nil => exact List.pairwise_singleton _ _
  | cons d r ih =>
      obtain ⟨first, rest⟩ := List.pairwise_cons.1 ascending
      rw [insert]
      split
      case isTrue early =>
        refine List.pairwise_cons.2 ⟨fun e he => ?_, ascending⟩
        rcases List.mem_cons.1 he with rfl | later
        · exact early
        · exact early.trans (first e later)
      case isFalse late =>
        refine List.pairwise_cons.2 ⟨fun e he => ?_, ih rest⟩
        rcases List.mem_cons.1 ((insert_perm c r).mem_iff.1 he) with rfl | later
        · exact (not_le.1 late).le
        · exact first e later

theorem sort_ascending (windows : List Closure) :
    (sort windows).Pairwise fun a b => a.start ≤ b.start := by
  induction windows with
  | nil => exact .nil
  | cons c r ih => exact insert_ascending c ih

/-- Sorted windows are told apart by their neighbours exactly if no two of the windows share an
instant, wherever they stood. -/
theorem apart_sort_iff (sound : ∀ c ∈ windows, c.IsSound) :
    Apart (sort windows) ↔ windows.Pairwise ShareNoInstant := by
  have sorted := sort_perm windows
  rw [← sorted.pairwise_iff ShareNoInstant.symm]
  constructor
  · exact List.Pairwise.imp shareNoInstant_of_stop_le
  · intro disjoint
    refine (disjoint.and (sort_ascending windows)).imp_of_mem fun _ hb both => ?_
    exact both.1.stop_le both.2 (sound _ (sorted.mem_iff.1 hb)).2.2

/-! ### Normalization -/

/-- Normalization accepts exactly the windows that can be used together. -/
theorem normalizes_iff : (∃ closures, normalize windows = .ok closures) ↔ Usable windows := by
  constructor
  · rintro ⟨closures, h⟩
    obtain ⟨-, sound, apart⟩ := normalize_eq_ok.1 h
    exact ⟨sound, (apart_sort_iff sound).1 apart⟩
  · rintro ⟨sound, disjoint⟩
    exact ⟨_, normalize_eq_ok.2 ⟨rfl, sound, (apart_sort_iff sound).2 disjoint⟩⟩

theorem Usable.perm (usable : Usable windows) (same : other.Perm windows) : Usable other :=
  ⟨fun c hc => usable.sound c (same.mem_iff.1 hc),
    (same.pairwise_iff ShareNoInstant.symm).2 usable.disjoint⟩

/-- Windows in order that are the same up to their order are the same list. -/
theorem Apart.eq_of_perm (sound : ∀ c ∈ closures, c.IsSound) (apart : Apart closures)
    (otherApart : Apart other) (same : other.Perm closures) : other = closures := by
  refine List.Perm.eq_of_pairwise (fun c d hc hd before after => ?_) otherApart apart same
  have cProper := (sound c (same.mem_iff.1 hc)).2.2
  have dProper := (sound d hd).2.2
  omega

/-- The order in which the windows are given does not matter. -/
theorem normalize_reordered (same : other.Perm windows) (h : normalize windows = .ok closures) :
    normalize other = .ok closures := by
  obtain ⟨rfl, sound, apart⟩ := normalize_eq_ok.1 h
  have usable : Usable other := (normalizes_iff.1 ⟨_, h⟩).perm same
  have otherApart : Apart (sort other) := (apart_sort_iff usable.sound).2 usable.disjoint
  have sorted : (sort other).Perm (sort windows) :=
    ((sort_perm other).trans same).trans (sort_perm windows).symm
  refine normalize_eq_ok.2 ⟨?_, usable.sound, otherApart⟩
  have sortedSound : ∀ c ∈ sort windows, c.IsSound := fun c hc =>
    sound c ((sort_perm windows).mem_iff.1 hc)
  exact (Apart.eq_of_perm sortedSound apart otherApart sorted).symm

/-! ### Repetitions -/

theorem distinct_nodup (windows : List Closure) : (distinct windows).Nodup := by
  induction windows with
  | nil => exact List.nodup_nil
  | cons c r ih =>
      rw [distinct]
      refine List.nodup_cons.2 ⟨fun again => ?_, ih.filter _⟩
      simp at again

/-- What is left without repetitions is the set of the windows, in some order. -/
theorem distinct_perm (nodup : other.Nodup) (same : ∀ w, w ∈ other ↔ w ∈ windows) :
    (distinct windows).Perm other :=
  (List.perm_ext_iff_of_nodup (distinct_nodup windows) nodup).2 fun w =>
    mem_distinct.trans (same w).symm

end Closure

namespace Calendar

variable {windows given : List Closure} {tag : String} {s : Settings} {p : Profile}

/-- A calendar takes its windows as they are normalized. -/
theorem closuresOf_ok {closures : List Closure}
    (h : Closure.normalize (Closure.distinct given) = .ok closures) :
    closuresOf given = (closures, []) := by
  simp only [closuresOf, h]

/-- Windows that are refused leave a defect. -/
theorem closuresOf_refused
    (h : ¬ ∃ closures, Closure.normalize (Closure.distinct given) = .ok closures) :
    ∃ cause, closuresOf given = ([], [.closures cause]) := by
  unfold closuresOf
  cases normalized : Closure.normalize (Closure.distinct given) with
  | ok closures => exact absurd ⟨closures, normalized⟩ h
  | error cause => exact ⟨cause, rfl⟩

/-- No other part of a description leaves a defect of the windows. -/
theorem mem_defects_build {cause : Fault} :
    Defect.closures cause ∈ (build tag s given).defects ↔
      Defect.closures cause ∈ (closuresOf given).2 := by
  have zoneFree : ∀ raw, Defect.closures cause ∉ (zoneOf raw).2 := by
    intro raw
    unfold zoneOf
    split <;> simp
  have clockFree : ∀ field raw, Defect.closures cause ∉ (clockOf field raw).2 := by
    intro field raw
    unfold clockOf
    split <;> simp
  have breakFree : Defect.closures cause ∉ breakDefects s.breakMinutes := by
    unfold breakDefects
    split <;> simp
  simp [build, zoneFree, clockFree, breakFree]

/-- Which windows are accepted, and what becomes of them: normalization takes exactly the windows
that can be used together, gives them back in order, and asks neither for the order in which they
came nor for a second time; and a calendar with windows of its own and those of a profile has no
defect of its windows exactly if the set of them all can be used together, and then holds that set
as it is normalized. -/
theorem closures_exact (windows given : List Closure) (tag : String) (s : Settings) (p : Profile) :
    ((∃ closures, Closure.normalize windows = .ok closures) ↔ Closure.Usable windows) ∧
    (∀ closures, Closure.normalize windows = .ok closures →
      closures.Perm windows ∧ Closure.Apart closures ∧
      (∀ other, other.Perm windows → Closure.normalize other = .ok closures) ∧
      Closure.normalize closures = .ok closures) ∧
    (windows.Nodup → (∀ w, w ∈ windows ↔ w ∈ given ∨ w ∈ p.closures) →
      ((∀ cause, Defect.closures cause ∉ (create given tag s (some p)).defects) ↔
        Closure.Usable windows) ∧
      ∀ closures, Closure.normalize windows = .ok closures →
        (create given tag s (some p)).closures = closures) := by
  refine ⟨Closure.normalizes_iff, fun closures h => ?_, fun nodup same => ?_⟩
  · obtain ⟨rfl, -, apart⟩ := Closure.normalize_eq_ok.1 h
    exact ⟨Closure.sort_perm windows, apart,
      fun _ reordered => Closure.normalize_reordered reordered h,
      Closure.normalize_normalized h⟩
  · have all : ∀ w, w ∈ windows ↔ w ∈ given ++ p.closures := fun w =>
      (same w).trans List.mem_append.symm
    have distinct := Closure.distinct_perm nodup all
    have accepted : (∃ closures,
        Closure.normalize (Closure.distinct (given ++ p.closures)) = .ok closures) ↔
          Closure.Usable windows :=
      Closure.normalizes_iff.trans ⟨fun h => h.perm distinct.symm, fun h => h.perm distinct⟩
    refine ⟨?_, fun closures h => ?_⟩
    · simp only [create, mem_defects_build, ← accepted]
      constructor
      · intro free
        by_contra refused
        obtain ⟨cause, left⟩ := closuresOf_refused refused
        exact free cause (by simp [left])
      · rintro ⟨closures, h⟩ cause
        simp [closuresOf_ok h]
    · have taken := closuresOf_ok (Closure.normalize_reordered distinct h)
      simp only [create, build, taken]

/-- Two days that touch, given out of order and one of them twice. -/
theorem closures_christmas :
    let first : Closure := ⟨1735084800000, 1735171200000⟩
    let second : Closure := ⟨1735171200000, 1735257600000⟩
    let p : Profile :=
      ⟨"us", "America/New_York", "17:00", "17:00", "17:00", 5, [second, first], none⟩
    [second, first].Nodup ∧ (∀ w, w ∈ [second, first] ↔ w ∈ [second] ∨ w ∈ p.closures) ∧
      Closure.normalize [second, first] = .ok [first, second] ∧
      (∀ cause, Defect.closures cause ∉ (create [second] "us" .standard (some p)).defects) ∧
      (create [second] "us" .standard (some p)).closures = [first, second] := by
  intro first second p
  have nodup : [second, first].Nodup := by decide
  have same : ∀ w, w ∈ [second, first] ↔ w ∈ [second] ∨ w ∈ p.closures := by
    intro w
    simp [p, first, second]
  have normalized : Closure.normalize [second, first] = .ok [first, second] := by rfl
  obtain ⟨usable, -, calendar⟩ :=
    closures_exact [second, first] [second] "us" .standard p
  obtain ⟨free, held⟩ := calendar nodup same
  exact ⟨nodup, same, normalized, free.2 (usable.1 ⟨_, normalized⟩), held _ normalized⟩

end Calendar

end MarketBook
