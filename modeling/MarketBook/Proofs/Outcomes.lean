/-
Module: MarketBook.Proofs.Outcomes
Purpose: When a chain of checks gives a value.
Main exports:
  Outcome.bind_eq_ok, Outcome.check_eq_ok, Outcome.violated_ne_ok, Outcome.misused_ne_ok,
  Outcome.unless_eq_ok, Outcome.guard_eq_ok
-/
import MarketBook.Fault

namespace MarketBook.Outcome

variable {α β : Type}

/-- A chain gives a value exactly if its first part does and the rest does with that. -/
theorem bind_eq_ok {x : Outcome α} {f : α → Outcome β} {b : β} :
    x >>= f = .ok b ↔ ∃ a, x = .ok a ∧ f a = .ok b := by
  cases x with
  | error e => simp [bind, Except.bind]
  | ok a => simp [bind, Except.bind]

/-- A check lets a chain go on exactly if it passes. -/
theorem check_eq_ok {x : Outcome Unit} {f : Unit → Outcome β} {b : β} :
    x >>= f = .ok b ↔ x = .ok () ∧ f () = .ok b := by
  rw [bind_eq_ok]
  exact ⟨fun ⟨(), h⟩ => h, fun h => ⟨(), h⟩⟩

theorem bind_congr_ok {x : Outcome α} {f g : α → Outcome β}
    (same : ∀ a, x = .ok a → f a = g a) : x >>= f = x >>= g := by
  cases x with
  | error cause => rfl
  | ok a => exact same a rfl

theorem pure_eq_ok {a b : α} : (pure a : Outcome α) = .ok b ↔ a = b := by
  simp [pure, Except.pure]

@[simp] theorem violated_ne_ok {cause : Violation} {a : α} : violated cause ≠ .ok a :=
  nofun

@[simp] theorem misused_ne_ok {cause : Misuse} {a : α} : misused cause ≠ .ok a :=
  nofun

/-- A check that ends with a fault under a condition passes exactly without it. -/
theorem unless_eq_ok {p : Prop} [Decidable p] {failure : Outcome Unit}
    (fails : failure ≠ .ok ()) :
    (if p then failure else pure ()) = .ok () ↔ ¬ p := by
  split
  case isTrue h => simp [fails, h]
  case isFalse h => simp [pure, Except.pure, h]

theorem violated_bind_ne_ok {cause : Violation} {f : α → Outcome β} {b : β} :
    (violated cause >>= f) ≠ .ok b :=
  nofun

theorem misused_bind_ne_ok {cause : Misuse} {f : α → Outcome β} {b : β} :
    (misused cause >>= f) ≠ .ok b :=
  nofun

theorem mapError_eq_ok {ε : Type} {x : Outcome α} {f : Fault → ε} {a : α} :
    x.mapError f = .ok a ↔ x = .ok a := by
  cases x with
  | error e => exact ⟨nofun, nofun⟩
  | ok b => exact ⟨fun h => by cases h; rfl, fun h => by cases h; rfl⟩

/-- A chain that ends with a fault under a condition goes on exactly without it. -/
theorem guard_eq_ok {p : Prop} [Decidable p] {failure rest : Outcome β} {b : β}
    (fails : failure ≠ .ok b) : (if p then failure else rest) = .ok b ↔ ¬ p ∧ rest = .ok b := by
  split
  case isTrue h => simp [fails, h]
  case isFalse h => simp [h]

theorem exists_of_isSome {x : Outcome α} (gives : x.toOption.isSome = true) : ∃ a, x = .ok a := by
  cases x with
  | error e => cases gives
  | ok a => exact ⟨a, rfl⟩

end MarketBook.Outcome
