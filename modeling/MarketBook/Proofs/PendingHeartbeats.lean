/-
Module: MarketBook.Proofs.PendingHeartbeats
Purpose: Until when a heartbeat that was set is still on its way to the file of metadata.
Main exports:
  BarCache.Owes, Action.Forgets, Action.owes_after, Session.Waiting,
  Session.Waiting.saves_heartbeat, reload_loses_heartbeat
-/
import MarketBook.Proofs.WorkingCaches

namespace MarketBook

open BarCache Device Text

/-!
A heartbeat that was set waits for a save, and loads leave it alone.  A save takes it over into the
metadata in memory before anything is written, so after a save that failed it stands there only, and
every further attempt writes it; but a load now takes the metadata of the file instead.
-/

variable {c : BarCache} {s s' : Session} {h now : Int}

/-! ### What the next save writes -/

/-- The next save will write the heartbeat: it is waiting, or a save has taken it over. -/
def BarCache.Owes (h : Int) (c : BarCache) : Prop :=
  c.heartbeat = some h ∨ c.heartbeat = none ∧ c.metadata.heartbeat = h ∧ c.isLoaded = true

namespace BarCache

theorem Owes.metaToSave (owes : c.Owes h) (now : Int) : (c.metaToSave now).heartbeat = h := by
  unfold BarCache.metaToSave
  rcases owes with waiting | ⟨taken, same, -⟩
  · simp [waiting]
  · simp [taken, same]

/-- However a save ends, the heartbeat stands in the metadata in memory unless it is still waiting. -/
theorem Owes.saved (owes : s.cache.Owes h) {r : Except Halt Unit} (ended : Ends (save now) s r s') :
    s'.cache.Owes h := by
  rcases save_cases ended with ⟨-, -, rfl⟩ | ⟨loaded, same, -⟩
  · exact owes
  · rw [same]
    exact Or.inr ⟨rfl, owes.metaToSave now, loaded⟩

/-- A save that works writes the heartbeat. -/
theorem Owes.written (owes : s.cache.Owes h) (ended : Ends (save now) s (.ok ()) s') :
    s'.cache.metadata.heartbeat = h ∧
      s'.device.disk.node? s.cache.metaPath = some (.file (encode s'.cache.metadata.write)) := by
  obtain ⟨-, same, left⟩ := save_leaves ended
  rw [same]
  exact ⟨owes.metaToSave now, left.metadata⟩

theorem load_heartbeat {r : Except Halt Unit} (ended : Ends load s r s') :
    s'.cache.heartbeat = s.cache.heartbeat := by
  obtain ⟨-, ⟨-, m, rows, -, -, same⟩ | ⟨-, same⟩⟩ := load_cases ended
  · rw [same]
    rfl
  · rw [same]

/-- A load leaves a waiting heartbeat alone, and one that a save has taken over only if it fails. -/
theorem Owes.loaded (owes : s.cache.Owes h) {r : Except Halt Unit} (ended : Ends load s r s')
    (remembers : s.cache.heartbeat = none → r ≠ .ok ()) : s'.cache.Owes h := by
  rcases owes with waiting | ⟨taken, owed⟩
  · exact Or.inl ((load_heartbeat ended).trans waiting)
  · obtain ⟨-, ⟨works, -⟩ | ⟨-, same⟩⟩ := load_cases ended
    · exact absurd works (remembers taken)
    · rw [same]
      exact Or.inr ⟨taken, owed⟩

theorem load_metaPath {r : Except Halt Unit} (ended : Ends load s r s') :
    s'.cache.metaPath = s.cache.metaPath := by
  rw [metaPath, metaPath, (InMemory.of_load (a := .load) ended).changes.setup.metaPlace]

end BarCache

/-! ### Steps -/

/-- The steps that end with a save. -/
def Action.Saves : Action → Prop
  | .save _ | .appendStream _ _ | .markPublished _ _ => True
  | _ => False

/-- The steps that begin with a load. -/
def Action.Loads : Action → Prop
  | .load | .appendStream _ _ => True
  | _ => False

/-- The step reads a heartbeat from the files that a save has already taken over. -/
def Action.Forgets (a : Action) (s : Session) : Prop :=
  a.Loads ∧ s.cache.heartbeat = none ∧ (load.run s).1 = .ok ()

/-- The step sets a heartbeat. -/
def Action.Beats : Action → Prop
  | .setHeartbeat _ => True
  | _ => False

theorem Action.Forgets.of_load {a : Action} {r : Except Halt Unit} (remembers : ¬ a.Forgets s)
    (loads : a.Loads) (ended : Ends BarCache.load s r s') : s.cache.heartbeat = none → r ≠ .ok () := by
  rintro taken rfl
  exact remembers ⟨loads, taken, congrArg Prod.fst ended⟩

/-- However a step ends, the heartbeat is still owed when it comes to its save; and a step that has
not come to a save has not saved. -/
theorem Action.owes_phases (a : Action) (silent : ¬ a.Beats) (remembers : ¬ a.Forgets s)
    (owes : s.cache.Owes h) :
    (a.after s).cache.Owes h ∧ (a.Saves → (a.run.run s).1 ≠ .ok ()) ∨
      ∃ s₁ now, s₁.cache.Owes h ∧ s₁.cache.metaPath = s.cache.metaPath ∧
        Ends (BarCache.save now) s₁ (a.run.run s).1 (a.after s) := by
  have ended := a.ended s
  generalize (a.run.run s).1 = r at ended ⊢
  cases a with
  | load => exact Or.inl ⟨owes.loaded ended (Forgets.of_load remembers trivial ended), nofun⟩
  | loadWarmup =>
      obtain ⟨_, ended⟩ := Ends.of_discard ended
      rw [(loadWarmup_cases ended).2]
      exact Or.inl ⟨owes, nofun⟩
  | append incoming =>
      obtain ⟨_, ended⟩ := Ends.of_discard ended
      rcases append_cases ended with ⟨bars, -, -, same⟩ | ⟨-, same⟩
      · rw [same]
        exact Or.inl ⟨owes, nofun⟩
      · rw [same]
        exact Or.inl ⟨owes, nofun⟩
  | mergeAndTrim limit =>
      obtain ⟨_, ended⟩ := Ends.of_discard ended
      rw [(ends_mergeAndTrim.1 ended).2]
      exact Or.inl ⟨owes, nofun⟩
  | save now => exact Or.inr ⟨s, now, owes, rfl, ended⟩
  | appendStream incoming now =>
      obtain ⟨found, streamed, rfl⟩ := Ends.discard_iff.1 ended
      rcases appendStream_cases streamed with
        ⟨⟨e, rfl⟩, failed⟩ | ⟨s₁, loaded, ⟨⟨e, rfl⟩, same⟩ | ⟨bars, -, merged, rfl, saved⟩⟩
      · exact Or.inl ⟨owes.loaded failed nofun, nofun⟩
      · rw [same]
        exact Or.inl ⟨owes.loaded loaded (Forgets.of_load remembers trivial loaded), nofun⟩
      · have waiting : s.cache.heartbeat = some h := by
          rcases owes with waiting | ⟨taken, -⟩
          · exact waiting
          · exact absurd rfl (Forgets.of_load remembers trivial loaded taken)
        have samePath := load_metaPath loaded
        refine Or.inr ⟨_, now, Or.inl ?_, ?_, saved⟩
        · simp [withHeartbeat, load_heartbeat loaded, waiting]
        · exact samePath
  | markPublished opened now =>
      rcases markPublished_cases ended with
        ⟨⟨e, rfl⟩, same | ⟨-, failed⟩⟩ | ⟨s₁, rfl | ⟨unloaded, loaded⟩, -, saved⟩
      · rw [same]
        exact Or.inl ⟨owes, nofun⟩
      · exact Or.inl ⟨owes.loaded failed nofun, nofun⟩
      · refine Or.inr ⟨_, now, ?_, ?_, saved⟩
        · exact owes
        · rfl
      · have waiting : s.cache.heartbeat = some h := by
          rcases owes with waiting | ⟨-, -, alreadyLoaded⟩
          · exact waiting
          · rw [unloaded] at alreadyLoaded
            cases alreadyLoaded
        have samePath := load_metaPath loaded
        refine Or.inr ⟨_, now, Or.inl ?_, ?_, saved⟩
        · exact (load_heartbeat loaded).trans waiting
        · exact samePath
  | setHeartbeat ms => exact absurd trivial silent
  | tamper device => exact Or.inl ⟨owes, nofun⟩

/-- A step keeps the heartbeat owed, whether it saves or not. -/
theorem Action.owes_after (a : Action) (silent : ¬ a.Beats) (remembers : ¬ a.Forgets s)
    (owes : s.cache.Owes h) : (a.after s).cache.Owes h := by
  rcases a.owes_phases silent remembers owes with ⟨kept, -⟩ | ⟨s₁, now, owes₁, -, saved⟩
  · exact kept
  · exact owes₁.saved saved

/-! ### Runs -/

/-- The sessions behind the setting of a heartbeat, with any device: no step sets another one, and
none reads one from the files once a save has taken this one over. -/
inductive Session.Waiting (h : Int) : Session → Prop where
  | set (s : Session) : Waiting h ((Action.setHeartbeat h).after s)
  | step {s : Session} (a : Action) (silent : ¬ a.Beats) (remembers : ¬ a.Forgets s)
      (before : Waiting h s) : Waiting h (a.after s)

theorem Session.Waiting.owes (waiting : s.Waiting h) : s.cache.Owes h := by
  induction waiting with
  | set s => exact Or.inl rfl
  | step a silent remembers _ ih => exact a.owes_after silent remembers ih

/-- A heartbeat that was set is written by the first save that works, alone or at the end of another
operation, however many loads, refused batches and failed saves lie in between; unless a save has
failed and a load has worked after it. -/
theorem Session.Waiting.saves_heartbeat (waiting : s.Waiting h) (a : Action) (saves : a.Saves)
    (remembers : ¬ a.Forgets s) (works : (a.run.run s).1 = .ok ()) :
    (a.after s).cache.metadata.heartbeat = h ∧
      (a.after s).device.disk.node? s.cache.metaPath =
        some (.file (encode (a.after s).cache.metadata.write)) := by
  have silent : ¬ a.Beats := by
    cases a with
    | setHeartbeat ms => exact absurd saves id
    | _ => exact id
  rcases a.owes_phases silent remembers waiting.owes with
    ⟨-, unsaved⟩ | ⟨s₁, now, owes, samePath, saved⟩
  · exact absurd works (unsaved saves)
  · rw [works] at saved
    rw [← samePath]
    exact owes.written saved

/-- A cache with a heartbeat to write, on a device that fails after two operations. -/
def metalBeating : Session :=
  (Action.setHeartbeat 1700000040005).after
    (load.run ⟨metalCache, ⟨Disk.empty, 1, [.works, .works, .fails 0]⟩⟩).2

/-- The same cache after a save that fails. -/
def metalUnsaved : Session :=
  (Action.save 1700000100000).after metalBeating

theorem metalUnsaved_failed :
    Ends (save 1700000100000) metalBeating (.error (.fault .io)) metalUnsaved := by
  have ended : Ends (save 1700000100000) metalBeating
      ((save 1700000100000).run metalBeating).1 metalUnsaved :=
    (Action.save 1700000100000).ended metalBeating
  rw [show ((save 1700000100000).run metalBeating).1 = .error (.fault .io) by decide +kernel]
    at ended
  exact ended

/-- A second save writes the heartbeat. -/
theorem metalUnsaved_saves_heartbeat :
    ((Action.save 1700000160000).after metalUnsaved).cache.metadata.heartbeat = 1700000040005 ∧
      ((Action.save 1700000160000).after metalUnsaved).device.disk.node?
          metalUnsaved.cache.metaPath =
        some (.file (encode
          ((Action.save 1700000160000).after metalUnsaved).cache.metadata.write)) := by
  have waiting : metalUnsaved.Waiting 1700000040005 :=
    .step _ id (fun forgets => forgets.1) (.set _)
  exact waiting.saves_heartbeat (.save 1700000160000) trivial (fun forgets => forgets.1)
    (by decide +kernel)

/-- A load before it takes the heartbeat of the files instead, which have none. -/
theorem reload_loses_heartbeat :
    metalBeating.cache.heartbeat = some 1700000040005 ∧
      Ends (save 1700000100000) metalBeating (.error (.fault .io)) metalUnsaved ∧
      ∃ reloaded s', Ends load metalUnsaved (.ok ()) reloaded ∧
        Ends (save 1700000160000) reloaded (.ok ()) s' ∧ s'.cache.metadata.heartbeat = 0 ∧
        s'.device.disk.node? s'.cache.metaPath =
          some (.file (encode s'.cache.metadata.write)) := by
  have loads := Ends.self load metalUnsaved
  rw [show (load.run metalUnsaved).1 = .ok () by decide +kernel] at loads
  have saves := Ends.self (save 1700000160000) (load.run metalUnsaved).2
  rw [show ((save 1700000160000).run (load.run metalUnsaved).2).1 = .ok () by decide +kernel] at saves
  obtain ⟨-, same, left⟩ := save_leaves saves
  refine ⟨by decide +kernel, metalUnsaved_failed, _, _, loads, saves, ?_⟩
  rw [same]
  exact ⟨by decide +kernel, left.metadata⟩

end MarketBook
