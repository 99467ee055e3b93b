/-
Module: MarketBook.Proofs.Effects
Purpose: How operations on a state end: with a result and a state, part by part.
Main exports:
  Ends, Ends.bind_iff, Ends.bind_ok_iff, Device.ends_ofOutcome, Device.ends_whole, BarCache.ends_onDevice
-/
import Mathlib.Logic.Basic
import MarketBook.Cache.Store
import MarketBook.Proofs.Outcomes

namespace MarketBook

/-!
Operations are programs that change a state and end with a value or with the reason of their end.
They are taken apart here once, so that what an operation can do is read off its text: each part has
ended in some state, and the next part has gone on from there.
-/

/-- The operation, begun in one state, ends with this result and in the other state. -/
def Ends {σ α : Type} (act : ExceptT Device.Halt (StateM σ) α) (s : σ)
    (r : Except Device.Halt α) (s' : σ) : Prop :=
  act.run s = (r, s')

namespace Ends

variable {σ α β : Type} {act : ExceptT Device.Halt (StateM σ) α} {s s' : σ}
  {r : Except Device.Halt α}

/-- Every operation ends, because nothing in it runs without a bound. -/
theorem self (act : ExceptT Device.Halt (StateM σ) α) (s : σ) :
    Ends act s (act.run s).1 (act.run s).2 := rfl

theorem of_result (h : (act.run s).1 = r) : Ends act s r (act.run s).2 :=
  h ▸ self act s

theorem unique {other : Except Device.Halt α} {t : σ} (h : Ends act s r s')
    (h' : Ends act s other t) : r = other ∧ s' = t :=
  Prod.mk.inj (h.symm.trans h')

theorem pure_iff {a : α} : Ends (pure a) s r s' ↔ r = .ok a ∧ s' = s := by
  constructor
  · intro h
    cases h
    exact ⟨rfl, rfl⟩
  · rintro ⟨rfl, rfl⟩
    rfl

theorem throw_iff {e : Device.Halt} :
    Ends (throw e : ExceptT Device.Halt (StateM σ) α) s r s' ↔ r = .error e ∧ s' = s := by
  constructor
  · intro h
    cases h
    exact ⟨rfl, rfl⟩
  · rintro ⟨rfl, rfl⟩
    rfl

/-- A part ends with a value and the rest goes on from there, or the part ends it all. -/
theorem bind_iff {f : α → ExceptT Device.Halt (StateM σ) β} {r : Except Device.Halt β} :
    Ends (act >>= f) s r s' ↔
      (∃ a t, Ends act s (.ok a) t ∧ Ends (f a) t r s') ∨
        ∃ e, Ends act s (.error e) s' ∧ r = .error e := by
  have step : (act >>= f).run s = match act.run s with
      | (.ok a, t) => (f a).run t
      | (.error e, t) => (.error e, t) := by
    simp only [ExceptT.run, bind, ExceptT.bind, ExceptT.mk, StateT.bind]
    rcases act s with ⟨r | a, t⟩ <;> rfl
  unfold Ends
  rw [step]
  rcases act.run s with ⟨e | a, t⟩
  · constructor
    · intro h
      cases h
      exact Or.inr ⟨e, rfl, rfl⟩
    · rintro (⟨a, t', h, -⟩ | ⟨e', h, rfl⟩)
      · cases h
      · cases h
        rfl
  · constructor
    · intro h
      exact Or.inl ⟨a, t, rfl, h⟩
    · rintro (⟨a', t', h, h'⟩ | ⟨e', h, -⟩)
      · cases h
        exact h'
      · cases h

/-- Both parts of an operation that ends with a value have ended with one. -/
theorem bind_ok_iff {f : α → ExceptT Device.Halt (StateM σ) β} {b : β} :
    Ends (act >>= f) s (.ok b) s' ↔ ∃ a t, Ends act s (.ok a) t ∧ Ends (f a) t (.ok b) s' := by
  rw [bind_iff]
  refine ⟨fun h => ?_, Or.inl⟩
  rcases h with both | ⟨e, -, bad⟩
  · exact both
  · cases bad

/-- A value is as it was, or the reason of an end is dealt with where it arose. -/
theorem tryCatch_iff {handle : Device.Halt → ExceptT Device.Halt (StateM σ) α} :
    Ends (tryCatch act handle) s r s' ↔
      (∃ a, Ends act s (.ok a) s' ∧ r = .ok a) ∨
        ∃ e t, Ends act s (.error e) t ∧ Ends (handle e) t r s' := by
  have step : (tryCatch act handle : ExceptT Device.Halt (StateM σ) α).run s =
      match act.run s with
      | (.ok a, t) => (.ok a, t)
      | (.error e, t) => (handle e).run t := by
    simp only [tryCatch, tryCatchThe, MonadExceptOf.tryCatch, ExceptT.tryCatch, ExceptT.run,
      ExceptT.mk, bind, StateT.bind]
    rcases act s with ⟨r | a, t⟩ <;> rfl
  unfold Ends
  rw [step]
  rcases act.run s with ⟨e | a, t⟩
  · constructor
    · intro h
      exact Or.inr ⟨e, t, rfl, h⟩
    · rintro (⟨a, h, -⟩ | ⟨e', t', h, h'⟩)
      · cases h
      · cases h
        exact h'
  · constructor
    · intro h
      cases h
      exact Or.inl ⟨a, rfl, rfl⟩
    · rintro (⟨a', h, rfl⟩ | ⟨e', t', h, -⟩)
      · cases h
        rfl
      · cases h

/-- Behind a part that is known to end with a value, the rest decides. -/
theorem bind_of {f : α → ExceptT Device.Halt (StateM σ) β} {r : Except Device.Halt β} {a : α} {t : σ}
    (part : Ends act s (.ok a) t) : Ends (act >>= f) s r s' ↔ Ends (f a) t r s' := by
  rw [bind_iff]
  constructor
  · rintro (⟨a', t', h, rest⟩ | ⟨e, h, -⟩)
    · obtain ⟨same, rfl⟩ := part.unique h
      cases same
      exact rest
    · cases (part.unique h).1
  · exact fun rest => Or.inl ⟨a, t, part, rest⟩

variable {f : σ → ExceptT Device.Halt (StateM σ) β} {next : Unit → ExceptT Device.Halt (StateM σ) β}
  {q : Except Device.Halt β}

theorem get_bind_iff : Ends (get >>= f) s q s' ↔ Ends (f s) s q s' :=
  bind_of rfl

theorem set_bind_iff {t : σ} : Ends (set t >>= next) s q s' ↔ Ends (next ()) t q s' :=
  bind_of rfl

theorem modify_bind_iff {change : σ → σ} :
    Ends (modify change >>= next) s q s' ↔ Ends (next ()) (change s) q s' :=
  bind_of rfl

theorem modify_iff {change : σ → σ} {r : Except Device.Halt Unit} :
    Ends (modify change : ExceptT Device.Halt (StateM σ) Unit) s r s' ↔
      r = .ok () ∧ s' = change s := by
  constructor
  · intro h
    cases h
    exact ⟨rfl, rfl⟩
  · rintro ⟨rfl, rfl⟩
    rfl

/-- An operation whose value is dropped ends alike and leaves the same state. -/
theorem discard_iff {r : Except Device.Halt Unit} :
    Ends (act >>= fun _ => pure ()) s r s' ↔
      ∃ found, Ends act s found s' ∧ r = found.map fun _ => () := by
  constructor
  · intro h
    rcases bind_iff.1 h with ⟨a, t, ended, rest⟩ | ⟨e, ended, rfl⟩
    · obtain ⟨rfl, rfl⟩ := pure_iff.1 rest
      exact ⟨_, ended, rfl⟩
    · exact ⟨_, ended, rfl⟩
  · rintro ⟨found, ended, rfl⟩
    cases found with
    | ok a => exact (bind_of ended).2 (pure_iff.2 ⟨rfl, rfl⟩)
    | error e => exact bind_iff.2 (Or.inr ⟨e, ended, rfl⟩)

theorem of_discard {r : Except Device.Halt Unit} (h : Ends (act >>= fun _ => pure ()) s r s') :
    ∃ found, Ends act s found s' :=
  (discard_iff.1 h).imp fun _ ended => ended.1

/-- A part that cannot end early hands on its value. -/
theorem lift_bind_iff {part : StateM σ α} {f : α → ExceptT Device.Halt (StateM σ) β} :
    Ends (liftM part >>= f) s q s' ↔ Ends (f (part s).1) (part s).2 q s' :=
  bind_of rfl

end Ends

namespace Device

open Text

variable {α : Type} {v v' : Device} {r : Except Halt α}

/-- The fate of the next operation. -/
def nextOf (v : Device) : Fate :=
  v.fates.headD .works

/-- The device behind the next operation's fate. -/
def later (v : Device) : Device :=
  { v with fates := v.fates.tail }

theorem nextFate_eq (v : Device) : nextFate v = (v.nextOf, v.later) := by
  obtain ⟨disk, process, fates⟩ := v
  cases fates <;> rfl

theorem nextOf_sound (d : Disk) (process : Nat) : (sound d process).nextOf = .works := rfl

theorem ends_fail {cause : Fault} :
    Ends (fail cause : Act α) v r v' ↔ r = .error (.fault cause) ∧ v' = v :=
  Ends.throw_iff

theorem ends_ofOutcome {x : Outcome α} :
    Ends (ofOutcome x) v r v' ↔ r = x.mapError Halt.fault ∧ v' = v := by
  cases x with
  | ok a => exact Ends.pure_iff
  | error cause => exact Ends.throw_iff

theorem ends_ofOutcome_ok {x : Outcome α} {a : α} :
    Ends (ofOutcome x) v (.ok a) v' ↔ x = .ok a ∧ v' = v := by
  rw [ends_ofOutcome, @eq_comm _ (Except.ok a), Outcome.mapError_eq_ok]

/-- An operation fails, or the machine stops, or it is done as the disk allows. -/
theorem ends_whole {run : Disk → Except Disk.Refusal (α × Disk)}
    {onRefusal : Disk.Refusal → Outcome α} :
    Ends (whole run onRefusal) v r v' ↔
      (∃ kept, v.nextOf = .fails kept ∧ r = .error (.fault .io) ∧ v' = v.later) ∨
      (∃ kept, v.nextOf = .stops kept ∧ r = .error .stopped ∧ v' = v.later) ∨
      v.nextOf = .works ∧
        ((∃ a d, run v.disk = .ok (a, d) ∧ r = .ok a ∧ v' = { v.later with disk := d }) ∨
          ∃ e, run v.disk = .error e ∧ r = (onRefusal e).mapError Halt.fault ∧ v' = v.later) := by
  unfold whole
  rw [Ends.lift_bind_iff, nextFate_eq]
  cases v.nextOf with
  | fails kept => simp [ends_fail]
  | stops kept => simp [Ends.throw_iff]
  | works =>
      simp only [Ends.get_bind_iff]
      have sameDisk : v.later.disk = v.disk := rfl
      rw [sameDisk]
      cases run v.disk with
      | ok found =>
          obtain ⟨a, d⟩ := found
          simp only [Ends.set_bind_iff, Ends.pure_iff]
          simp [and_assoc]
      | error e => simp [ends_ofOutcome]

/-- A part of a device's operation that only reads leaves the disk and the process alone. -/
theorem ends_look {f : Disk → Except Disk.Refusal α} :
    Ends (look f) v r v' ↔
      v' = v ∧ ((∃ a, f v.disk = .ok a ∧ r = .ok a) ∨
        ∃ e, f v.disk = .error e ∧ r = .error (.fault .io)) := by
  unfold look
  rw [Ends.get_bind_iff]
  cases f v.disk with
  | ok a => simp [Ends.pure_iff, and_comm]
  | error e => simp [ends_fail, and_comm]

/-- A write that works puts the whole content in its place, and any other a beginning of it. -/
theorem ends_writeFile {p : Disk.Path} {content : Octets} {r : Except Halt Unit} :
    Ends (writeFile p content) v r v' ↔
      (v.nextOf = .works ∧ r = .ok () ∧
        v' = { v.later with disk := v.disk.set p (.file content) }) ∨
      ∃ kept, v' = { v.later with disk := v.disk.set p (.file (content.take kept)) } ∧
        ((v.nextOf = .fails kept ∧ r = .error (.fault .io)) ∨
          (v.nextOf = .stops kept ∧ r = .error .stopped)) := by
  have sameDisk : v.later.disk = v.disk := rfl
  unfold writeFile
  rw [Ends.lift_bind_iff, nextFate_eq]
  cases v.nextOf with
  | works => simp [Ends.modify_iff, sameDisk]
  | fails kept =>
      simp only [Ends.modify_bind_iff, ends_fail, sameDisk]
      simp [and_assoc, and_comm]
  | stops kept =>
      simp only [Ends.modify_bind_iff, Ends.throw_iff, sameDisk]
      simp [and_assoc, and_comm]

/-- Whatever fault an operation ends with, the caller's own stands in its place. -/
theorem ends_withFault {cause : Fault} {act : Act α} :
    Ends (withFault cause act) v r v' ↔
      (∃ a, Ends act v (.ok a) v' ∧ r = .ok a) ∨
      (Ends act v (.error .stopped) v' ∧ r = .error .stopped) ∨
      ∃ found, Ends act v (.error (.fault found)) v' ∧ r = .error (.fault cause) := by
  unfold withFault
  rw [Ends.tryCatch_iff]
  apply or_congr_right
  constructor
  · rintro ⟨e, t, ended, handled⟩
    cases e with
    | stopped =>
        obtain ⟨rfl, rfl⟩ := Ends.throw_iff.1 handled
        exact Or.inl ⟨ended, rfl⟩
    | fault found =>
        obtain ⟨rfl, rfl⟩ := ends_fail.1 handled
        exact Or.inr ⟨found, ended, rfl⟩
  · rintro (⟨ended, rfl⟩ | ⟨found, ended, rfl⟩)
    · exact ⟨_, _, ended, Ends.throw_iff.2 ⟨rfl, rfl⟩⟩
    · exact ⟨_, _, ended, ends_fail.2 ⟨rfl, rfl⟩⟩

end Device

namespace BarCache

variable {α β : Type} {s s' : Session} {r : Except Device.Halt α}

theorem self_bind_iff {f : BarCache → Op β} {q : Except Device.Halt β} :
    Ends (self >>= f) s q s' ↔ Ends (f s.cache) s q s' :=
  Ends.bind_of rfl

theorem change_bind_iff {f : BarCache → BarCache} {next : Unit → Op β} {q : Except Device.Halt β} :
    Ends (change f >>= next) s q s' ↔ Ends (next ()) { s with cache := f s.cache } q s' :=
  Ends.bind_of rfl

theorem ends_change {f : BarCache → BarCache} {q : Except Device.Halt Unit} :
    Ends (change f) s q s' ↔ q = .ok () ∧ s' = { s with cache := f s.cache } :=
  Ends.modify_iff

/-- An operation of the device leaves the cache alone. -/
theorem ends_onDevice {act : Device.Act α} :
    Ends (onDevice act) s r s' ↔ ∃ v, Ends act s.device r v ∧ s' = { s with device := v } := by
  constructor
  · intro h
    cases h
    exact ⟨(act.run s.device).2, rfl, rfl⟩
  · rintro ⟨v, ended, rfl⟩
    change ((act.run s.device).1, { s with device := (act.run s.device).2 }) = _
    rw [show act.run s.device = (r, v) from ended]

theorem ends_require {x : Outcome α} :
    Ends (require x) s r s' ↔ r = x.mapError Device.Halt.fault ∧ s' = s := by
  unfold require
  rw [ends_onDevice]
  constructor
  · rintro ⟨v, ended, rfl⟩
    obtain ⟨rfl, rfl⟩ := Device.ends_ofOutcome.1 ended
    exact ⟨rfl, rfl⟩
  · rintro ⟨rfl, rfl⟩
    exact ⟨_, Device.ends_ofOutcome.2 ⟨rfl, rfl⟩, rfl⟩

end BarCache

end MarketBook
