/-
Module: MarketBook.Time.Checked
Purpose: Computations with times that stop where a result leaves the range of its type.
Main exports:
  Overflow, Checked, Time.checkWall, Time.checkDay, Time.checkWord, Time.dayBefore?, Time.dayAfter?
-/
import MarketBook.Text.Numeral
import MarketBook.Time.Instant

namespace MarketBook

/-!
Instants and lengths are numbers of 64 bits; wall times and days lie within the range of the dates.
A sum that leaves its range is no fault that a caller could handle: the program stops.  A neighbour
of a day can also be asked for with care, and then a missing one is an answer.
-/

/-- What left the range of its type. -/
inductive Overflow where
  | wall
  | day
  | word
deriving DecidableEq

/-- A value, unless the program stops on the way to it. -/
abbrev Checked (α : Type) := Except Overflow α

namespace Checked

variable {α β : Type}

@[simp] theorem ok_bind (a : α) (f : α → Checked β) : (Except.ok a : Checked α) >>= f = f a := rfl

@[simp] theorem error_bind (cause : Overflow) (f : α → Checked β) :
    (Except.error cause : Checked α) >>= f = .error cause := rfl

@[simp] theorem pure_eq (a : α) : (pure a : Checked α) = .ok a := rfl

/-- Where every step gives a value, so does the list of the steps. -/
theorem mapM_eq_ok {f : α → Checked β} {g : α → β} {l : List α} (each : ∀ a ∈ l, f a = .ok (g a)) :
    l.mapM f = .ok (l.map g) := by
  induction l with
  | nil => rfl
  | cons a rest ih =>
      rw [List.mapM_cons, each a (by simp), ok_bind, ih fun b hb => each b (by simp [hb])]
      rfl

/-- Where every step answers, so does the list of the steps. -/
theorem mapM_answers {f : α → Checked β} {l : List α} (each : ∀ a ∈ l, ∃ b, f a = .ok b) :
    ∃ bs, l.mapM f = .ok bs := by
  induction l with
  | nil => exact ⟨[], rfl⟩
  | cons a rest ih =>
      obtain ⟨b, first⟩ := each a (by simp)
      obtain ⟨bs, others⟩ := ih fun other hother => each other (by simp [hother])
      exact ⟨b :: bs, by rw [List.mapM_cons, first, ok_bind, others]; rfl⟩

end Checked

namespace Time

/-- The wall time, if it is in the range of the dates. -/
def checkWall (wall : Int) : Checked Int :=
  if hasDate wall then .ok wall else .error .wall

/-- The day, if it is in the range of the dates. -/
def checkDay (day : Int) : Checked Int :=
  if hasDate (day * dayMs) then .ok day else .error .day

/-- The number, if 64 bits hold it. -/
def checkWord (n : Int) : Checked Int :=
  if Text.isSigned64 n then .ok n else .error .word

/-- The day before, if there is one. -/
def dayBefore? (day : Int) : Option Int :=
  (checkDay (day - 1)).toOption

/-- The day after, if there is one. -/
def dayAfter? (day : Int) : Option Int :=
  (checkDay (day + 1)).toOption

theorem checkWall_eq {wall : Int} (dated : hasDate wall = true) : checkWall wall = .ok wall :=
  if_pos dated

theorem checkDay_eq {day : Int} (dated : hasDate (day * dayMs) = true) : checkDay day = .ok day :=
  if_pos dated

theorem checkWord_eq {n : Int} (fits : Text.isSigned64 n = true) : checkWord n = .ok n :=
  if_pos fits

/-- An instant that has a date is far from the ends of 64 bits. -/
theorem isSigned64_of_hasDate {ts : Int} (dated : hasDate ts = true) : Text.isSigned64 ts = true := by
  rw [hasDate_iff] at dated
  rw [Text.isSigned64_iff]
  simp only [firstDated, lastDated] at dated
  omega

theorem dayBefore?_eq {day : Int} (dated : hasDate ((day - 1) * dayMs) = true) :
    dayBefore? day = some (day - 1) := by
  simp [dayBefore?, checkDay_eq dated, Except.toOption]

theorem dayAfter?_eq {day : Int} (dated : hasDate ((day + 1) * dayMs) = true) :
    dayAfter? day = some (day + 1) := by
  simp [dayAfter?, checkDay_eq dated, Except.toOption]

end Time

end MarketBook
