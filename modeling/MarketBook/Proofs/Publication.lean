/-
Module: MarketBook.Proofs.Publication
Purpose: What replacing a file as a whole leaves behind, whether it works or breaks off anywhere.
Main exports:
  Device.Touches, Device.stage_touches, Device.orDiscard_error, Device.Published,
  Device.publish_phases, Device.publish_cases, Device.Ready, Device.publish_works
-/
import MarketBook.Proofs.DiskPaths
import MarketBook.Proofs.Effects

namespace MarketBook.Device

open Text

/-!
All that happens before the rename happens at the staging file, or makes a directory.  So whatever
breaks off, the target holds what it held; and once the rename has worked, it holds the new content
in full.  What one publication needed of the disk is still there for the next one.
-/

/-- Nothing but one file of the disk may differ, and no directory is lost. -/
structure Touches (p : Disk.Path) (v v' : Device) : Prop where
  process : v'.process = v.process
  others : ∀ q, q ≠ p → v'.disk.node? q = v.disk.node? q
  keepsDirs : v.disk.KeepsDirs v'.disk

variable {p q staging : Disk.Path} {v v' w : Device} {r : Except Halt Unit}

theorem Touches.trans (first : Touches p v v') (second : Touches p v' w) : Touches p v w where
  process := second.process.trans first.process
  others := fun q h => (second.others q h).trans (first.others q h)
  keepsDirs := first.keepsDirs.trans second.keepsDirs

/-- A step that leaves the disk alone. -/
theorem Touches.of_disk_eq (process : v'.process = v.process) (same : v'.disk = v.disk) :
    Touches p v v' where
  process := process
  others := fun q _ => by rw [same]
  keepsDirs := by
    rw [same]
    exact .refl _

theorem Touches.later (p : Disk.Path) (v : Device) : Touches p v v.later :=
  .of_disk_eq rfl rfl

theorem Touches.set {n : Disk.Node} (noDirectory : v.disk.node? p ≠ some .directory) :
    Touches p v { v.later with disk := v.disk.set p n } where
  process := rfl
  others := fun _ h => Disk.node?_set_other h
  keepsDirs := Disk.set_keepsDirs noDirectory

/-! ### The parts of a publication -/

theorem createFile_touches (h : Ends (createFile p) v r v') :
    Touches p v v' ∧ (r = .ok () → v'.disk.node? p ≠ some .directory) := by
  rcases ends_whole.1 h with ⟨kept, -, rfl, rfl⟩ | ⟨kept, -, rfl, rfl⟩ | ⟨-, made⟩
  · exact ⟨.later p v, nofun⟩
  · exact ⟨.later p v, nofun⟩
  · rcases made with ⟨⟨⟩, d, made, rfl, rfl⟩ | ⟨e, -, rfl, rfl⟩
    · cases created : v.disk.create p with
      | error e =>
          rw [created] at made
          cases made
      | ok d' =>
          rw [created] at made
          cases made
          obtain ⟨rfl, noDirectory⟩ := Disk.create_eq_ok created
          refine ⟨.set noDirectory, fun _ there => ?_⟩
          by_cases root : p = []
          · subst root
            exact noDirectory rfl
          · rw [show _ = some (Disk.Node.file []) from Disk.node?_set_self root] at there
            cases there
    · exact ⟨.later p v, nofun⟩

theorem writeFile_touches {content : Octets} (noDirectory : v.disk.node? p ≠ some .directory)
    (h : Ends (writeFile p content) v r v') :
    Touches p v v' ∧ (r = .ok () → v'.disk.node? p = some (.file content)) := by
  rcases ends_writeFile.1 h with ⟨-, rfl, rfl⟩ | ⟨kept, rfl, ⟨-, rfl⟩ | ⟨-, rfl⟩⟩
  · refine ⟨.set noDirectory, fun _ => Disk.node?_set_self ?_⟩
    rintro rfl
    exact noDirectory rfl
  · exact ⟨.set noDirectory, nofun⟩
  · exact ⟨.set noDirectory, nofun⟩

/-- Waiting for a file leaves the disk alone, whether it works or not. -/
theorem syncFile_disk (h : Ends (syncFile p) v r v') : v'.process = v.process ∧ v'.disk = v.disk := by
  rcases ends_whole.1 h with ⟨kept, -, -, rfl⟩ | ⟨kept, -, -, rfl⟩ | ⟨-, made⟩
  · exact ⟨rfl, rfl⟩
  · exact ⟨rfl, rfl⟩
  · rcases made with ⟨a, d, made, -, rfl⟩ | ⟨e, made, -⟩
    · cases made
      exact ⟨rfl, rfl⟩
    · cases made

theorem removeFile_touches (h : Ends (removeFile p) v r v') : Touches p v v' := by
  rcases ends_whole.1 h with ⟨kept, -, -, rfl⟩ | ⟨kept, -, -, rfl⟩ | ⟨-, made⟩
  · exact .later p v
  · exact .later p v
  · rcases made with ⟨⟨⟩, d, made, -, rfl⟩ | ⟨e, -, -, rfl⟩
    · cases removed : v.disk.remove p with
      | error e =>
          rw [removed] at made
          cases made
      | ok d' =>
          rw [removed] at made
          cases made
          obtain ⟨rfl, noDirectory⟩ := Disk.remove_eq_ok removed
          exact ⟨rfl, fun q h => Disk.node?_erase_other h, Disk.erase_keepsDirs noDirectory⟩
    · exact .later p v

/-- Staging touches the staging file alone, and if it works the whole content stands there. -/
theorem stage_touches {draft : Draft} (h : Ends (stage staging draft) v r v') :
    Touches staging v v' ∧
      (r = .ok () → draft.fault = none ∧ v'.disk.node? staging = some (.file draft.content)) := by
  rcases Ends.bind_iff.1 h with ⟨⟨⟩, v₁, created, h⟩ | ⟨e, created, rfl⟩
  · obtain ⟨touched, noDirectory⟩ := createFile_touches created
    rcases Ends.bind_iff.1 h with ⟨⟨⟩, v₂, written, h⟩ | ⟨e, written, rfl⟩
    · obtain ⟨touched₂, whole⟩ := writeFile_touches (noDirectory rfl) written
      have sofar := touched.trans touched₂
      cases fault : draft.fault with
      | some cause =>
          rw [fault] at h
          obtain ⟨rfl, rfl⟩ := ends_fail.1 h
          exact ⟨sofar, nofun⟩
      | none =>
          rw [fault] at h
          obtain ⟨process, same⟩ := syncFile_disk h
          refine ⟨sofar.trans (.of_disk_eq process same), fun _ => ⟨rfl, ?_⟩⟩
          rw [same]
          exact whole rfl
    · exact ⟨touched.trans (writeFile_touches (noDirectory rfl) written).1, nofun⟩
  · exact ⟨(createFile_touches created).1, nofun⟩

/-- An operation under which the staging file is discarded works exactly as it does without. -/
theorem orDiscard_ok {act : Act Unit} :
    Ends (orDiscard staging act) v (.ok ()) v' ↔ Ends act v (.ok ()) v' := by
  unfold orDiscard
  rw [Ends.tryCatch_iff]
  constructor
  · rintro (⟨⟨⟩, ended, -⟩ | ⟨e, t, -, handled⟩)
    · exact ended
    · cases e with
      | stopped => cases (Ends.throw_iff.1 handled).1
      | fault cause =>
          rcases Ends.bind_iff.1 handled with ⟨⟨⟩, w, -, failed⟩ | ⟨e, -, impossible⟩
          · cases (ends_fail.1 failed).1
          · cases impossible
  · exact fun ended => Or.inl ⟨(), ended, rfl⟩

/-- The removal of the staging file ends somehow, and what is made of a failure leaves the device
alone. -/
theorem removal_touches
    (h : Ends (tryCatch (removeFile staging) fun
      | .stopped => throw .stopped
      | .fault _ => pure ()) v r v') : Touches staging v v' := by
  rcases Ends.tryCatch_iff.1 h with ⟨_, removed, -⟩ | ⟨e, w, removed, handled⟩
  · exact removeFile_touches removed
  · cases e with
    | stopped =>
        obtain ⟨-, rfl⟩ := Ends.throw_iff.1 handled
        exact removeFile_touches removed
    | fault cause =>
        obtain ⟨-, rfl⟩ := Ends.pure_iff.1 handled
        exact removeFile_touches removed

/-- If the operation ends early, at most the removal of the staging file comes after it. -/
theorem orDiscard_error {act : Act Unit} {e : Halt}
    (h : Ends (orDiscard staging act) v (.error e) v') :
    ∃ e' w, Ends act v (.error e') w ∧ Touches staging w v' := by
  unfold orDiscard at h
  rcases Ends.tryCatch_iff.1 h with ⟨a, -, impossible⟩ | ⟨e', w, ended, handled⟩
  · cases impossible
  · refine ⟨e', w, ended, ?_⟩
    cases e' with
    | stopped =>
        obtain ⟨-, rfl⟩ := Ends.throw_iff.1 handled
        exact .of_disk_eq rfl rfl
    | fault cause =>
        rcases Ends.bind_iff.1 handled with ⟨⟨⟩, u, removed, failed⟩ | ⟨e, removed, -⟩
        · obtain ⟨-, rfl⟩ := ends_fail.1 failed
          exact removal_touches removed
        · exact removal_touches removed

/-- A rename moves what stands at the source to the target, or leaves the disk alone. -/
theorem renameFile_cases {target : Place} (h : Ends (renameFile p target) v r v') :
    v'.process = v.process ∧
      ((∃ e, r = .error e) ∧ v'.disk = v.disk ∨
        r = .ok () ∧ v.disk.locateFile target = .ok target.path ∧
          ∃ n, v.disk.node? p = some n ∧ v.disk.node? target.path ≠ some .directory ∧
            v'.disk = (v.disk.erase p).set target.path n) := by
  rcases ends_whole.1 h with ⟨kept, -, rfl, rfl⟩ | ⟨kept, -, rfl, rfl⟩ | ⟨-, moved⟩
  · exact ⟨rfl, Or.inl ⟨⟨_, rfl⟩, rfl⟩⟩
  · exact ⟨rfl, Or.inl ⟨⟨_, rfl⟩, rfl⟩⟩
  · rcases moved with ⟨⟨⟩, d, moved, rfl, rfl⟩ | ⟨e, -, rfl, rfl⟩
    · refine ⟨rfl, Or.inr ⟨rfl, ?_⟩⟩
      cases located : v.disk.locateFile target with
      | error e =>
          rw [located] at moved
          cases moved
      | ok path =>
          obtain ⟨rfl, -⟩ := Disk.locateFile_path located
          rw [located] at moved
          cases renamed : v.disk.rename p target.path with
          | error e =>
              simp only [bind, Except.bind, renamed] at moved
              cases moved
          | ok d' =>
              simp only [bind, Except.bind, renamed] at moved
              cases moved
              exact ⟨rfl, Disk.rename_eq_ok renamed⟩
    · exact ⟨rfl, Or.inl ⟨⟨_, rfl⟩, rfl⟩⟩

/-- Making directories works, or it leaves the disk as it was or with those that could be made. -/
theorem makeDirs_phases {place : Place} (h : Ends (makeDirs place) v r v') :
    v'.process = v.process ∧
      ((∃ e, r = .error e) ∧
          (v'.disk = v.disk ∨ v'.disk = (v.disk.makeDirs place).1) ∨
        r = .ok () ∧ v.nextOf = .works ∧ v'.fates = v.fates.tail ∧
          v.disk.makeDirs place = (v'.disk, .ok ())) := by
  rcases Ends.bind_iff.1 h with ⟨made, v₁, ended, h⟩ | ⟨e, ended, rfl⟩
  · rcases ends_whole.1 ended with ⟨-, -, impossible, -⟩ | ⟨-, -, impossible, -⟩ | ⟨works, made⟩
    · cases impossible
    · cases impossible
    · rcases made with ⟨a, d, made, same, rfl⟩ | ⟨e, impossible, -⟩
      · cases same
        simp only [Except.ok.injEq, Prod.mk.injEq] at made
        obtain ⟨rfl, rfl⟩ := made
        cases result : (v.disk.makeDirs place).2 with
        | ok a =>
            rw [result] at h
            obtain ⟨rfl, rfl⟩ := Ends.pure_iff.1 h
            exact ⟨rfl, Or.inr ⟨rfl, works, rfl, Prod.ext rfl result⟩⟩
        | error e =>
            rw [result] at h
            obtain ⟨rfl, rfl⟩ := ends_fail.1 h
            exact ⟨rfl, Or.inl ⟨⟨_, rfl⟩, Or.inr rfl⟩⟩
      · cases impossible
  · rcases ends_whole.1 ended with ⟨-, -, -, rfl⟩ | ⟨-, -, -, rfl⟩ | ⟨-, made⟩
    · exact ⟨rfl, Or.inl ⟨⟨e, rfl⟩, Or.inl rfl⟩⟩
    · exact ⟨rfl, Or.inl ⟨⟨e, rfl⟩, Or.inl rfl⟩⟩
    · rcases made with ⟨_, _, -, impossible, -⟩ | ⟨_, impossible, -⟩
      · cases impossible
      · cases impossible

/-! ### The publication -/

/-- The path of the staging file of a process for a target. -/
def stagingPath (process : Nat) (target : Place) : Disk.Path :=
  (stagingPlace process target).path

/-- What a publication that worked leaves behind.  Between the disk before and the disk after lies
the one on which all directories were made. -/
structure Published (target : Place) (content : Octets) (v v' : Device) : Prop where
  process : v'.process = v.process
  made : ∃ d, v.disk.makeDirs target.parent = (d, .ok ()) ∧ d.KeepsDirs v'.disk ∧
    d.locateFile (stagingPlace v.process target) = .ok (stagingPath v.process target) ∧
    ∀ q, q ≠ stagingPath v.process target → q ≠ target.path → v'.disk.node? q = d.node? q
  stagingFree : v'.disk.node? (stagingPath v.process target) ≠ some .directory
  located : v'.disk.locateFile target = .ok target.path
  content : v'.disk.node? target.path = some (.file content)

/-- Once its staging file has a path, a publication works and leaves the new content, or it breaks
off and touches the staging file alone. -/
theorem replace_cases {target : Place} {draft : Draft}
    (h : Ends (do
      orDiscard staging (stage staging draft)
      orDiscard staging (renameFile staging target)) v r v') :
    (r = .ok () ∧ draft.fault = none ∧ v'.process = v.process ∧ v.disk.KeepsDirs v'.disk ∧
        v'.disk.node? staging ≠ some .directory ∧ v'.disk.locateFile target = .ok target.path ∧
        v'.disk.node? target.path = some (.file draft.content) ∧
        ∀ q, q ≠ staging → q ≠ target.path → v'.disk.node? q = v.disk.node? q) ∨
      (∃ e, r = .error e) ∧ Touches staging v v' := by
  rcases Ends.bind_iff.1 h with ⟨⟨⟩, v₁, staged, h⟩ | ⟨e, failed, rfl⟩
  · obtain ⟨touched, whole⟩ := stage_touches (orDiscard_ok.1 staged)
    obtain ⟨noFault, there⟩ := whole rfl
    cases r with
    | error e =>
        obtain ⟨e', w, ended, discarded⟩ := orDiscard_error h
        obtain ⟨process, ⟨-, same⟩ | ⟨impossible, -⟩⟩ := renameFile_cases ended
        · exact Or.inr ⟨⟨e, rfl⟩, (touched.trans (.of_disk_eq process same)).trans discarded⟩
        · cases impossible
    | ok _ =>
        obtain ⟨process, ⟨⟨e, impossible⟩, -⟩ | ⟨-, located, n, moved, noDirectory, after⟩⟩ :=
          renameFile_cases (orDiscard_ok.1 h)
        · cases impossible
        · rw [there] at moved
          cases moved
          obtain ⟨keeps, stagingFree, atTarget, others⟩ := Disk.move_spec there noDirectory
          rw [← after] at keeps stagingFree atTarget others
          refine Or.inl ⟨rfl, noFault, process.trans touched.process, touched.keepsDirs.trans keeps,
            stagingFree, Disk.locateFile_keepsDirs keeps located, atTarget, ?_⟩
          intro q notStaging notTarget
          rw [others q notStaging notTarget]
          exact touched.others q notStaging
  · obtain ⟨e', w, ended, discarded⟩ := orDiscard_error failed
    exact Or.inr ⟨⟨e, rfl⟩, (stage_touches ended).1.trans discarded⟩

/-- A publication breaks off before it has a staging file, or it goes on with the directory made. -/
theorem publish_phases {target : Place} {draft : Draft} (h : Ends (publish target draft) v r v') :
    ((∃ e, r = .error e) ∧ v'.process = v.process ∧
        (v'.disk = v.disk ∨ v'.disk = (v.disk.makeDirs target.parent).1)) ∨
      ∃ v₁ : Device, v.nextOf = .works ∧ v₁.process = v.process ∧ v₁.fates = v.fates.tail ∧
        v.disk.makeDirs target.parent = (v₁.disk, .ok ()) ∧
        v₁.disk.locateFile (stagingPlace v.process target) =
          .ok (stagingPath v.process target) ∧
        Ends (do
          orDiscard (stagingPath v.process target) (stage (stagingPath v.process target) draft)
          orDiscard (stagingPath v.process target)
            (renameFile (stagingPath v.process target) target)) v₁ r v' := by
  rcases Ends.bind_iff.1 h with ⟨⟨⟩, v₁, made, h⟩ | ⟨e, failed, rfl⟩
  · obtain ⟨process, ⟨⟨e, impossible⟩, -⟩ | ⟨-, works, fates, made⟩⟩ := makeDirs_phases made
    · cases impossible
    · rw [Ends.get_bind_iff, process] at h
      rcases Ends.bind_iff.1 h with ⟨staging, v₂, looked, h⟩ | ⟨e, looked, rfl⟩
      · obtain ⟨rfl, ⟨staging', located, same⟩ | ⟨e, -, impossible⟩⟩ := ends_look.1 looked
        · cases same
          obtain ⟨rfl, -⟩ := Disk.locateFile_path located
          exact Or.inr ⟨v₂, works, process, fates, made, located, h⟩
        · cases impossible
      · obtain ⟨rfl, -⟩ := ends_look.1 looked
        refine Or.inl ⟨⟨e, rfl⟩, process, Or.inr ?_⟩
        rw [made]
  · obtain ⟨process, ⟨-, disk⟩ | ⟨impossible, -⟩⟩ := makeDirs_phases failed
    · exact Or.inl ⟨⟨e, rfl⟩, process, disk⟩
    · cases impossible

/-- A publication works and leaves what it should, or it breaks off and leaves every path but the
staging file as it was, directories apart. -/
theorem publish_cases {target : Place} {draft : Draft} (h : Ends (publish target draft) v r v') :
    (r = .ok () ∧ draft.fault = none ∧ Published target draft.content v v') ∨
      ((∃ e, r = .error e) ∧ v'.process = v.process ∧
        ∀ q, q ≠ stagingPath v.process target → v'.disk.node? q = v.disk.node? q ∨
          (v.disk.node? q = none ∧ v'.disk.node? q = some .directory)) := by
  have grows := Disk.makeDirs_grows target.parent v.disk
  rcases publish_phases h with
    ⟨failed, process, same | made⟩ | ⟨v₁, -, process, -, made, located, replaced⟩
  · refine Or.inr ⟨failed, process, fun q _ => Or.inl ?_⟩
    rw [same]
  · refine Or.inr ⟨failed, process, fun q _ => ?_⟩
    rw [made]
    exact grows q
  · rcases replace_cases replaced with
      ⟨rfl, noFault, process', keeps, stagingFree, targetLocated, there, others⟩ |
        ⟨failed, touched⟩
    · exact Or.inl ⟨rfl, noFault, process'.trans process,
        ⟨_, made, keeps, located, others⟩, stagingFree, targetLocated, there⟩
    · refine Or.inr ⟨failed, touched.process.trans process, fun q notStaging => ?_⟩
      rw [touched.others q notStaging]
      rw [made] at grows
      exact grows q

/-- Elsewhere a publication at most makes directories. -/
theorem Published.others {target : Place} {content : Octets}
    (published : Published target content v v') (notStaging : q ≠ stagingPath v.process target)
    (notTarget : q ≠ target.path) :
    v'.disk.node? q = v.disk.node? q ∨
      (v.disk.node? q = none ∧ v'.disk.node? q = some .directory) := by
  obtain ⟨d, made, -, -, others⟩ := published.made
  have grows := Disk.makeDirs_grows target.parent v.disk
  rw [made] at grows
  rw [others q notStaging notTarget]
  exact grows q

/-- However a publication of a content ends, a file anywhere but at the staging path is one that
stood there before, or it is the new content at the target. -/
theorem publishContent_file {target : Place} {content found : Octets}
    (h : Ends (publishContent target content) v r v') (apart : q ≠ stagingPath v.process target)
    (there : v'.disk.node? q = some (.file found)) :
    v.disk.node? q = some (.file found) ∨ (q = target.path ∧ found = content) := by
  have kept : v'.disk.node? q = v.disk.node? q ∨
      (v.disk.node? q = none ∧ v'.disk.node? q = some .directory) →
      v.disk.node? q = some (.file found) := by
    intro grown
    rcases grown with same | ⟨-, made⟩
    · rw [← same]
      exact there
    · rw [made] at there
      cases there
  rcases publish_cases h with ⟨-, -, published⟩ | ⟨-, -, others⟩
  · by_cases isTarget : q = target.path
    · subst isTarget
      rw [published.content] at there
      cases there
      exact Or.inr ⟨rfl, rfl⟩
    · exact Or.inl (kept (published.others apart isTarget))
  · exact Or.inl (kept (others q apart))

theorem publish_process {target : Place} {draft : Draft} (h : Ends (publish target draft) v r v') :
    v'.process = v.process := by
  rcases publish_cases h with ⟨-, -, published⟩ | ⟨-, process, -⟩
  · exact published.process
  · exact process

/-! ### Publishing again -/

/-- Everything that a publication needs of the disk is there already. -/
structure Ready (target : Place) (process : Nat) (d : Disk) : Prop where
  dirs : d.makeDirs target.parent = (d, .ok ())
  staging : d.locateFile (stagingPlace process target) = .ok (stagingPath process target)
  stagingFree : d.node? (stagingPath process target) ≠ some .directory
  located : d.locateFile target = .ok target.path
  free : d.node? target.path ≠ some .directory

/-- What a publication needs stays ready while directories stay and no other one takes its paths. -/
theorem Ready.keepsDirs {target : Place} {process : Nat} {d d' : Disk}
    (ready : Ready target process d) (keeps : d.KeepsDirs d')
    (stagingFree : d'.node? (stagingPath process target) ≠ some .directory)
    (free : d'.node? target.path ≠ some .directory) : Ready target process d' where
  dirs := Disk.makeDirs_again keeps rfl ready.dirs
  staging := Disk.locateFile_keepsDirs keeps ready.staging
  stagingFree := stagingFree
  located := Disk.locateFile_keepsDirs keeps ready.located
  free := free

/-- After a publication everything is ready for the next one. -/
theorem Published.ready {target : Place} {content : Octets}
    (published : Published target content v v') : Ready target v.process v'.disk := by
  obtain ⟨d, made, keeps, located, -⟩ := published.made
  refine ⟨Disk.makeDirs_again keeps rfl made, Disk.locateFile_keepsDirs keeps located,
    published.stagingFree, published.located, ?_⟩
  rw [published.content]
  nofun

/-- Where the directories are there already, a publication changes its own two files alone. -/
theorem Published.elsewhere {target : Place} {content : Octets}
    (published : Published target content v v')
    (dirs : v.disk.makeDirs target.parent = (v.disk, .ok ())) :
    v.disk.KeepsDirs v'.disk ∧
      ∀ q, q ≠ stagingPath v.process target → q ≠ target.path →
        v'.disk.node? q = v.disk.node? q := by
  obtain ⟨d, made, keeps, -, others⟩ := published.made
  rw [dirs] at made
  cases made
  exact ⟨keeps, others⟩

section Sound

variable {d d' : Disk} {process : Nat}

/-- On a device that works, an operation does what the disk allows. -/
theorem whole_sound {α : Type} {run : Disk → Except Disk.Refusal (α × Disk)}
    {onRefusal : Disk.Refusal → Outcome α} {a : α} (done : run d = .ok (a, d')) :
    Ends (whole run onRefusal) (sound d process) (.ok a) (sound d' process) :=
  ends_whole.2 (Or.inr (Or.inr ⟨nextOf_sound d process, Or.inl ⟨a, d', done, rfl, rfl⟩⟩))

theorem makeDirs_sound {place : Place} (made : d.makeDirs place = (d', .ok ())) :
    Ends (makeDirs place) (sound d process) (.ok ()) (sound d' process) := by
  refine (Ends.bind_of (whole_sound (a := .ok ()) ?_)).2 (Ends.pure_iff.2 ⟨rfl, rfl⟩)
  simp [made]

theorem stage_sound {content : Octets} (free : d.node? staging ≠ some .directory) :
    Ends (stage staging ⟨content, none⟩) (sound d process) (.ok ())
      (sound ((d.set staging (.file [])).set staging (.file content)) process) := by
  have created : d.create staging = .ok (d.set staging (.file [])) := by
    unfold Disk.create
    split
    case h_1 there => exact absurd there free
    case h_2 => rfl
  have made : Ends (createFile staging) (sound d process) (.ok ())
      (sound (d.set staging (.file [])) process) := by
    apply whole_sound
    rw [created]
    rfl
  have written : Ends (writeFile staging content) (sound (d.set staging (.file [])) process) (.ok ())
      (sound ((d.set staging (.file [])).set staging (.file content)) process) :=
    ends_writeFile.2 (Or.inl ⟨nextOf_sound _ _, rfl, rfl⟩)
  apply (Ends.bind_of made).2
  exact (Ends.bind_of written).2 (whole_sound rfl)

theorem renameFile_sound {target : Place} {n : Disk.Node}
    (located : d.locateFile target = .ok target.path) (there : d.node? staging = some n)
    (free : d.node? target.path ≠ some .directory) :
    Ends (renameFile staging target) (sound d process) (.ok ())
      (sound ((d.erase staging).set target.path n) process) := by
  apply whole_sound
  simp [located, Disk.rename_of there free, bind, Except.bind, pure, Except.pure]

/-- Where everything is ready and the device works, a publication works. -/
theorem publish_works {target : Place} {content : Octets} (ready : Ready target process d) :
    ∃ d', Ends (publishContent target content) (sound d process) (.ok ()) (sound d' process) := by
  obtain ⟨dirs, locatedStaging, stagingFree, located, free⟩ := ready
  have notRoot : stagingPath process target ≠ [] := by
    intro root
    rw [root] at stagingFree
    exact stagingFree rfl
  have keeps : d.KeepsDirs ((d.set (stagingPath process target) (.file [])).set
      (stagingPath process target) (.file content)) := by
    refine (Disk.set_keepsDirs stagingFree).trans (Disk.set_keepsDirs ?_)
    rw [Disk.node?_set_self notRoot]
    nofun
  have stillFree : ((d.set (stagingPath process target) (.file [])).set
      (stagingPath process target) (.file content)).node? target.path ≠ some .directory := by
    by_cases same : target.path = stagingPath process target
    · rw [same, Disk.node?_set_self notRoot]
      nofun
    · rw [Disk.node?_set_other same, Disk.node?_set_other same]
      exact free
  obtain ⟨after, renamed⟩ : ∃ after, Ends (renameFile (stagingPath process target) target)
      (sound ((d.set (stagingPath process target) (.file [])).set (stagingPath process target)
        (.file content)) process) (.ok ()) (sound after process) :=
    ⟨_, renameFile_sound (Disk.locateFile_keepsDirs keeps located) (Disk.node?_set_self notRoot)
      stillFree⟩
  have looked : Ends (look (·.locateFile (stagingPlace process target))) (sound d process)
      (.ok (stagingPath process target)) (sound d process) :=
    ends_look.2 ⟨rfl, Or.inl ⟨_, locatedStaging, rfl⟩⟩
  refine ⟨after, (Ends.bind_of (makeDirs_sound dirs)).2 ?_⟩
  rw [Ends.get_bind_iff]
  apply (Ends.bind_of looked).2
  apply (Ends.bind_of (orDiscard_ok.2 (stage_sound stagingFree))).2
  exact orDiscard_ok.2 renamed

end Sound

end MarketBook.Device
