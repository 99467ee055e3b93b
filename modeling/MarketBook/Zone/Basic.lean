/-
Module: MarketBook.Zone.Basic
Purpose: Time zones as offsets that change at instants, the clock they show, and the instants at
  which that clock shows a given reading.
Main exports:
  Change, Zone, Zone.offsetAt, Zone.wallAt, Zone.showings, Zone.mem_showings_iff, Zone.readings,
  Zone.wallAt_bounds
-/
import MarketBook.Time.Instant

namespace MarketBook

/-!
A wall time is a number like an instant: the milliseconds that a clock in the zone has counted since
its own 1970-01-01.  The clock of an instant is the instant plus the offset in force.  A wall time
that lies in a gap is shown at no instant and one that is repeated at two; `showings` lists them all,
and `mem_showings_iff` says that it lists nothing else.  The first and the last dates are an
exception when a wall time is read: next to them an instant that shows it may have no date, and then
it has no reading at all.
-/

/-- From this instant on the offset is in force. -/
structure Change where
  instant : Int
  offset : Int
deriving DecidableEq

/-- An offset is shorter than a day. -/
def IsOffset (offset : Int) : Prop :=
  -Time.dayMs < offset ∧ offset < Time.dayMs

instance (offset : Int) : Decidable (IsOffset offset) :=
  inferInstanceAs (Decidable (_ ∧ _))

/-- A zone by its name, its first offset and the changes of it in the order of time. -/
structure Zone where
  name : String
  first : Int
  changes : List Change
  short : IsOffset first ∧ ∀ c ∈ changes, IsOffset c.offset
deriving DecidableEq

namespace Zone

/-- The offset in force at an instant, where `offset` was in force before the changes. -/
def offsetFrom (ts : Int) : Int → List Change → Int
  | offset, [] => offset
  | offset, c :: r => if ts < c.instant then offset else offsetFrom ts c.offset r

/-- The offset in force at an instant. -/
def offsetAt (z : Zone) (ts : Int) : Int :=
  offsetFrom ts z.first z.changes

/-- What the clock of the zone shows at an instant. -/
def wallAt (z : Zone) (ts : Int) : Int :=
  ts + z.offsetAt ts

/-- The day that the calendar of the zone shows at an instant. -/
def dayAt (z : Zone) (ts : Int) : Int :=
  z.wallAt ts / Time.dayMs

/-- The instant lies at or after the start of a span; a span without a start goes back for ever. -/
def notBefore (start : Option Int) (ts : Int) : Bool :=
  match start with
  | none => true
  | some s => s ≤ ts

/-- The instants from `start` on at which the clock shows the wall time, where `offset` is in force
at the start. -/
def showingsFrom (wall : Int) : Option Int → Int → List Change → List Int
  | start, offset, [] => if notBefore start (wall - offset) then [wall - offset] else []
  | start, offset, c :: r =>
    if notBefore start (wall - offset) && wall - offset < c.instant then
      (wall - offset) :: showingsFrom wall (some c.instant) c.offset r
    else showingsFrom wall (some c.instant) c.offset r

/-- The instants at which the clock shows the wall time, in the order of time. -/
def showings (z : Zone) (wall : Int) : List Int :=
  showingsFrom wall none z.first z.changes

/-- The instants as which a wall time is read: those at which the clock shows it, if all of them have
a date. -/
def readings (z : Zone) (wall : Int) : List Int :=
  if (z.showings wall).all Time.hasDate then z.showings wall else []

/-- The changes stand in the order of time, after the start of the span before them. -/
def Ascending : Option Int → List Change → Prop
  | _, [] => True
  | start, c :: r => notBefore start c.instant = true ∧ Ascending (some c.instant) r

theorem mem_showingsFrom_iff {wall ts : Int} {start : Option Int} {offset : Int}
    {changes : List Change} (ordered : Ascending start changes) :
    ts ∈ showingsFrom wall start offset changes ↔
      notBefore start ts = true ∧ ts + offsetFrom ts offset changes = wall := by
  induction changes generalizing start offset with
  | nil =>
    simp only [showingsFrom, offsetFrom]
    constructor
    · intro h
      split at h
      · simp only [List.mem_singleton] at h
        subst h
        exact ⟨by assumption, by omega⟩
      · simp at h
    · rintro ⟨late, reads⟩
      have : ts = wall - offset := by omega
      subst this
      simp [late]
  | cons c r ih =>
    obtain ⟨hc, hr⟩ := ordered
    have rest := @ih (some c.instant) c.offset hr
    have later : ts ∈ showingsFrom wall (some c.instant) c.offset r ↔
        c.instant ≤ ts ∧ ts + offsetFrom ts c.offset r = wall := by
      rw [rest]; simp [notBefore]
    have startBefore : c.instant ≤ ts → notBefore start ts = true := by
      intro h
      cases start with
      | none => rfl
      | some s => simp only [notBefore, decide_eq_true_eq] at hc ⊢; omega
    simp only [showingsFrom, offsetFrom]
    by_cases before : ts < c.instant
    · simp only [before, if_true]
      split
      · rename_i holds
        simp only [Bool.and_eq_true, decide_eq_true_eq] at holds
        simp only [List.mem_cons, later]
        constructor
        · rintro (rfl | ⟨h, -⟩)
          · exact ⟨holds.1, by omega⟩
          · omega
        · rintro ⟨-, h⟩
          exact .inl (by omega)
      · rename_i holds
        rw [later]
        constructor
        · rintro ⟨h, -⟩; omega
        · rintro ⟨h, reads⟩
          have : ts = wall - offset := by omega
          subst this
          simp [h, before] at holds
    · simp only [before, if_false]
      split
      · rename_i holds
        simp only [Bool.and_eq_true, decide_eq_true_eq] at holds
        simp only [List.mem_cons, later]
        constructor
        · rintro (rfl | ⟨h, reads⟩)
          · omega
          · exact ⟨startBefore h, reads⟩
        · rintro ⟨-, reads⟩
          exact .inr ⟨by omega, reads⟩
      · rw [later]
        constructor
        · rintro ⟨h, reads⟩
          exact ⟨startBefore h, reads⟩
        · rintro ⟨-, reads⟩
          exact ⟨by omega, reads⟩

/-- The showings of a wall time are exactly the instants at which the clock shows it. -/
theorem mem_showings_iff {z : Zone} (ordered : Ascending none z.changes) {wall ts : Int} :
    ts ∈ z.showings wall ↔ z.wallAt ts = wall := by
  simp [showings, wallAt, offsetAt, mem_showingsFrom_iff ordered, notBefore]

theorem offsetFrom_isOffset {ts : Int} :
    ∀ {offset : Int} {changes : List Change}, IsOffset offset → (∀ c ∈ changes, IsOffset c.offset) →
      IsOffset (offsetFrom ts offset changes)
  | _, [], first, _ => first
  | _, c :: r, first, later => by
      simp only [offsetFrom]
      split
      · exact first
      · exact offsetFrom_isOffset (later c (by simp)) fun d hd => later d (by simp [hd])

/-- The clock is less than a day away from the instant. -/
theorem wallAt_bounds (z : Zone) (ts : Int) :
    ts - Time.dayMs < z.wallAt ts ∧ z.wallAt ts < ts + Time.dayMs := by
  obtain ⟨behind, ahead⟩ : IsOffset (z.offsetAt ts) := offsetFrom_isOffset z.short.1 z.short.2
  simp only [wallAt]
  omega

end Zone

end MarketBook
