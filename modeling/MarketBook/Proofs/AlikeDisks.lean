/-
Module: MarketBook.Proofs.AlikeDisks
Purpose: A cache does the same on two disks that differ only outside of its own files.
Main exports:
  BarCache.Alike, BarCache.Prepared, BarCache.Alike.publishContent, Lockstep, Session.InStep,
  Action.Reply, Action.answer, Action.lockstep
-/
import MarketBook.Proofs.BrokenSaves
import MarketBook.Proofs.FileNames

namespace MarketBook

open BarCache Device Text

/-!
All that a cache finds out from a disk is whether its directory can be made, what readers find at its
two files, and what stands at the four paths of its saves once the directory is there.  Two disks
that are alike in this are so after every operation that a cache carries out on both of them, and
whatever one operation gives back the other one does.
-/

variable {c held : BarCache} {root target : Place} {process : Nat} {d d' e e' f : Disk}

/-! ### Disks that are alike -/

namespace BarCache

/-- To a cache the disks are alike. -/
structure Alike (c : BarCache) (process : Nat) (d e : Disk) : Prop where
  outcome : (d.makeDirs c.tablePlace.parent).2 = (e.makeDirs c.tablePlace.parent).2
  nodes : ∀ path ∈ c.savePaths process,
    (d.makeDirs c.tablePlace.parent).1.node? path = (e.makeDirs c.tablePlace.parent).1.node? path
  contents : ∀ place ∈ [c.tablePlace, c.metaPlace], d.contentAt place = e.contentAt place
  unseen : c.DirectoryUnseen d
  unseen' : c.DirectoryUnseen e

namespace Alike

theorem refl (process : Nat) (unseen : c.DirectoryUnseen d) : c.Alike process d d :=
  ⟨rfl, fun _ _ => rfl, fun _ _ => rfl, unseen, unseen⟩

theorem symm (alike : c.Alike process d e) : c.Alike process e d where
  outcome := alike.outcome.symm
  nodes := fun path there => (alike.nodes path there).symm
  contents := fun place there => (alike.contents place there).symm
  unseen := alike.unseen'
  unseen' := alike.unseen

theorem trans (first : c.Alike process d e) (second : c.Alike process e f) :
    c.Alike process d f where
  outcome := first.outcome.trans second.outcome
  nodes := fun path there => (first.nodes path there).trans (second.nodes path there)
  contents := fun place there => (first.contents place there).trans (second.contents place there)
  unseen := first.unseen
  unseen' := second.unseen'

/-- The making of the directory leaves a disk as it was to the cache. -/
theorem of_made (process : Nat) (unseen : c.DirectoryUnseen d) :
    c.Alike process d (d.makeDirs c.tablePlace.parent).1 := by
  have settled : (d.makeDirs c.tablePlace.parent).1.makeDirs c.tablePlace.parent =
      d.makeDirs c.tablePlace.parent := Disk.makeDirs_settled rfl d
  refine ⟨?_, ?_, fun place there => (unseen place there).symm, unseen, ?_⟩
  · rw [settled]
  · intro path _
    rw [settled]
  · intro place _
    rw [settled]

/-- Disks that are alike are so behind the making of the directory. -/
theorem made (alike : c.Alike process d e) :
    c.Alike process (d.makeDirs c.tablePlace.parent).1 (e.makeDirs c.tablePlace.parent).1 :=
  ((of_made process alike.unseen).symm.trans alike).trans (of_made process alike.unseen')

theorem metaOn (alike : c.Alike process d e) : c.metaOn d = c.metaOn e :=
  metaOn_congr (alike.contents _ (by simp))

theorem rowsOn (alike : c.Alike process d e) : c.rowsOn d = c.rowsOn e :=
  rowsOn_congr (alike.contents _ (by simp))

end Alike

/-- On both disks the directory is there, and the same stands at the paths of the cache. -/
structure Prepared (c : BarCache) (process : Nat) (d e : Disk) : Prop where
  dirs : d.makeDirs c.tablePlace.parent = (d, .ok ())
  dirs' : e.makeDirs c.tablePlace.parent = (e, .ok ())
  nodes : ∀ path ∈ c.savePaths process, d.node? path = e.node? path

/-- What a cache needs to know of a file that it replaces. -/
structure Replaces (c : BarCache) (process : Nat) (target : Place) : Prop where
  parent : target.parent = c.tablePlace.parent
  sibling : Disk.Sibling c.tablePlace target
  staging : Disk.Sibling c.tablePlace (stagingPlace process target)
  path : target.path ∈ c.savePaths process
  stagingPath : stagingPath process target ∈ c.savePaths process

theorem stagingPlace_sibling (directory : Place) (name : String) {other : String}
    (isName : other ≠ Place.up) :
    Disk.Sibling (directory.child name) (stagingPlace process (directory.child other)) where
  steps := by
    refine ⟨stagingName process other, stagingName_ne_up _ _, ?_⟩
    have named := directory.name?_child isName
    simp only [stagingPlace, Place.beside, named, Option.isSome_some, if_true, Option.getD_some]
    simp [Place.child, Place.parent]
  ending := rfl

theorem replaces_table (c : BarCache) (process : Nat) : c.Replaces process c.tablePlace where
  parent := rfl
  sibling := Place.child_sibling _ _ (tableName_ne_up _)
  staging := stagingPlace_sibling _ _ (tableName_ne_up _)
  path := by simp [savePaths, tablePath]
  stagingPath := by simp [savePaths]

theorem LiesIn.replaces_meta (lies : c.LiesIn root) (process : Nat) :
    c.Replaces process c.metaPlace where
  parent := (lies.parents lies).2
  sibling := Place.child_sibling _ _ (metaName_ne_up _)
  staging := stagingPlace_sibling _ _ (metaName_ne_up _)
  path := by simp [savePaths, metaPath]
  stagingPath := by simp [savePaths]

namespace Prepared

theorem alike (prepared : c.Prepared process d e) : c.Alike process d e where
  outcome := by rw [prepared.dirs, prepared.dirs']
  nodes := by
    rw [prepared.dirs, prepared.dirs']
    exact prepared.nodes
  contents := by
    intro place there
    simp only [List.mem_cons, List.not_mem_nil, or_false] at there
    rcases there with rfl | rfl
    · exact Disk.contentAt_congr ((Place.child_sibling _ _ (tableName_ne_up _)).locate
        prepared.dirs' prepared.dirs) (prepared.nodes _ (by simp [savePaths, tablePath]))
    · exact Disk.contentAt_congr ((Place.child_sibling _ _ (metaName_ne_up _)).locate
        prepared.dirs' prepared.dirs) (prepared.nodes _ (by simp [savePaths, metaPath]))
  unseen := directoryUnseen_of_there prepared.dirs
  unseen' := directoryUnseen_of_there prepared.dirs'

/-- Disks whose directories stay and on which the same stands at the paths again. -/
theorem keepsDirs (prepared : c.Prepared process d e) (keeps : d.KeepsDirs d')
    (keeps' : e.KeepsDirs e') (nodes : ∀ path ∈ c.savePaths process, d'.node? path = e'.node? path) :
    c.Prepared process d' e' where
  dirs := Disk.makeDirs_again keeps rfl prepared.dirs
  dirs' := Disk.makeDirs_again keeps' rfl prepared.dirs'
  nodes := nodes

end Prepared

end BarCache

/-! ### Publications -/

/-- The disk without a file, if one stands at the path and can be removed. -/
def Disk.without (d : Disk) (path : Disk.Path) : Disk :=
  (d.remove path).toOption.getD d

namespace Device

variable {staging : Disk.Path} {content : Octets} {draft : Draft} {v : Device} {cause : Fault}

theorem whole_refused {α : Type} {run : Disk → Except Disk.Refusal (α × Disk)} {e : Disk.Refusal}
    (refused : run d = .error e) :
    Ends (whole run anyRefusal) (sound d process) (.error (.fault .io)) (sound d process) :=
  ends_whole.2 (Or.inr (Or.inr ⟨nextOf_sound d process, Or.inr ⟨e, refused, rfl, rfl⟩⟩))

theorem makeDirs_refused {place : Place} {e : Disk.Refusal}
    (refused : (d.makeDirs place).2 = .error e) :
    Ends (makeDirs place) (sound d process) (.error (.fault .io))
      (sound (d.makeDirs place).1 process) := by
  refine (Ends.bind_of (a := .error e) (t := sound (d.makeDirs place).1 process) ?_).2 ?_
  · rw [← refused]
    exact whole_sound rfl
  · exact ends_fail.2 ⟨rfl, rfl⟩

/-- A staging file cannot be made in place of a directory. -/
theorem stage_refused (directory : d.node? staging = some .directory) :
    Ends (stage staging draft) (sound d process) (.error (.fault .io)) (sound d process) := by
  have refused : d.create staging = .error .refused := by simp [Disk.create, directory]
  exact Ends.bind_iff.2 (Or.inr ⟨_, whole_refused (by rw [refused]; rfl), rfl⟩)

/-- Behind a fault, whatever can be removed of the staging file is. -/
theorem orDiscard_fault_sound {act : Act Unit}
    (failed : Ends act v (.error (.fault cause)) (sound d process)) :
    Ends (orDiscard staging act) v (.error (.fault cause)) (sound (d.without staging) process) := by
  refine Ends.tryCatch_iff.2 (Or.inr ⟨_, _, failed, ?_⟩)
  refine (Ends.bind_of (a := ()) (t := sound (d.without staging) process) ?_).2
    (ends_fail.2 ⟨rfl, rfl⟩)
  unfold Disk.without
  cases gone : d.remove staging with
  | ok d' =>
      exact Ends.tryCatch_iff.2 (Or.inl ⟨(), whole_sound (by rw [gone]; rfl), rfl⟩)
  | error e =>
      exact Ends.tryCatch_iff.2 (Or.inr ⟨_, _, whole_refused (by rw [gone]; rfl),
        Ends.pure_iff.2 ⟨rfl, rfl⟩⟩)

theorem renameFile_refused {e : Disk.Refusal} (refused : d.locateFile target = .error e) :
    Ends (renameFile staging target) (sound d process) (.error (.fault .io)) (sound d process) :=
  whole_refused (e := e) (by simp [refused, bind, Except.bind])

/-- A file is not moved over a directory. -/
theorem renameFile_blocked (located : d.locateFile target = .ok target.path)
    (there : d.node? staging = some (.file content))
    (blocked : d.node? target.path = some .directory) :
    Ends (renameFile staging target) (sound d process) (.error (.fault .io)) (sound d process) :=
  whole_refused (e := .refused)
    (by simp [located, Disk.rename, there, blocked, bind, Except.bind])

/-- The disk behind the staging of a content. -/
def staged (d : Disk) (staging : Disk.Path) (content : Octets) : Disk :=
  (d.set staging (.file [])).set staging (.file content)

/-- The part of a publication that has a path for its staging file. -/
def replace (staging : Disk.Path) (target : Place) (content : Octets) : Act Unit := do
  orDiscard staging (stage staging ⟨content, none⟩)
  orDiscard staging (renameFile staging target)

theorem replace_blocked (blocked : d.node? staging = some .directory) :
    Ends (replace staging target content) (sound d process) (.error (.fault .io))
      (sound (d.without staging) process) :=
  Ends.bind_iff.2 (Or.inr ⟨_, orDiscard_fault_sound (stage_refused blocked), rfl⟩)

/-- Behind the staging, the rename decides. -/
theorem replace_staged {r : Except Halt Unit} {v' : Device}
    (free : d.node? staging ≠ some .directory) :
    Ends (replace staging target content) (sound d process) r v' ↔
      Ends (orDiscard staging (renameFile staging target))
        (sound (staged d staging content) process) r v' :=
  Ends.bind_of (orDiscard_ok.2 (stage_sound free))

/-- On working devices with either disk an operation ends alike, and related disks are left. -/
def EndsAlike {α : Type} (process : Nat) (related : Disk → Disk → Prop) (act : Act α)
    (d e : Disk) : Prop :=
  ∃ r d' e', Ends act (sound d process) r (sound d' process) ∧
    Ends act (sound e process) r (sound e' process) ∧ related d' e'

end Device

namespace BarCache

variable {staging : Disk.Path} {content : Octets}

theorem Prepared.set {n : Disk.Node} {path : Disk.Path} (prepared : c.Prepared process d e)
    (own : path ∈ c.savePaths process) (free : d.node? path ≠ some .directory) :
    c.Prepared process (d.set path n) (e.set path n) := by
  have free' : e.node? path ≠ some .directory := prepared.nodes path own ▸ free
  refine prepared.keepsDirs (Disk.set_keepsDirs free) (Disk.set_keepsDirs free') fun q there => ?_
  by_cases same : q = path
  · rw [same, Disk.node?_set_self (Disk.ne_root_of_noDirectory free),
      Disk.node?_set_self (Disk.ne_root_of_noDirectory free)]
  · rw [Disk.node?_set_other same, Disk.node?_set_other same]
    exact prepared.nodes q there

theorem Prepared.erase {path : Disk.Path} (prepared : c.Prepared process d e)
    (own : path ∈ c.savePaths process) (free : d.node? path ≠ some .directory) :
    c.Prepared process (d.erase path) (e.erase path) := by
  have free' : e.node? path ≠ some .directory := prepared.nodes path own ▸ free
  refine prepared.keepsDirs (Disk.erase_keepsDirs free) (Disk.erase_keepsDirs free')
    fun q there => ?_
  by_cases same : q = path
  · rw [same, Disk.node?_erase_self (Disk.ne_root_of_noDirectory free),
      Disk.node?_erase_self (Disk.ne_root_of_noDirectory free)]
  · rw [Disk.node?_erase_other same, Disk.node?_erase_other same]
    exact prepared.nodes q there

theorem Prepared.without {path : Disk.Path} (prepared : c.Prepared process d e)
    (own : path ∈ c.savePaths process) :
    c.Prepared process (d.without path) (e.without path) := by
  unfold Disk.without Disk.remove
  rw [← prepared.nodes path own]
  cases found : d.node? path with
  | none => exact prepared
  | some n =>
      cases n with
      | directory => exact prepared
      | file content => exact prepared.erase own (by rw [found]; nofun)
      | ledger table => exact prepared.erase own (by rw [found]; nofun)

/-- Beside a directory that is there, files are found alike on both disks. -/
theorem Prepared.locateFile {place : Place} (prepared : c.Prepared process d e)
    (sibling : Disk.Sibling c.tablePlace place) : d.locateFile place = e.locateFile place := by
  rw [Disk.locateFile, Disk.locateFile, sibling.locate prepared.dirs' prepared.dirs]

theorem Prepared.staged {path : Disk.Path} (prepared : c.Prepared process d e)
    (own : path ∈ c.savePaths process) (free : d.node? path ≠ some .directory) (content : Octets) :
    c.Prepared process (staged d path content) (staged e path content) := by
  refine (prepared.set own free).set own ?_
  rw [Disk.node?_set_self (Disk.ne_root_of_noDirectory free)]
  nofun

/-- Where a file is staged on both disks, it is moved to its target alike, or it is removed. -/
theorem Prepared.rename (prepared : c.Prepared process d e) (replaces : c.Replaces process target)
    (there : d.node? (stagingPath process target) = some (.file content)) :
    EndsAlike process (c.Prepared process) (orDiscard (stagingPath process target)
      (renameFile (stagingPath process target) target)) d e := by
  have own := replaces.stagingPath
  have there' : e.node? (stagingPath process target) = some (.file content) :=
    prepared.nodes _ own ▸ there
  have failed : (Ends (renameFile (stagingPath process target) target) (sound d process)
        (.error (.fault .io)) (sound d process)) →
      (Ends (renameFile (stagingPath process target) target) (sound e process)
        (.error (.fault .io)) (sound e process)) →
      EndsAlike process (c.Prepared process) (orDiscard (stagingPath process target)
        (renameFile (stagingPath process target) target)) d e := fun first second =>
    ⟨_, _, _, orDiscard_fault_sound first, orDiscard_fault_sound second, prepared.without own⟩
  have found := prepared.locateFile replaces.sibling
  have node := prepared.nodes _ replaces.path
  cases located : d.locateFile target with
  | error cause =>
      rw [located] at found
      exact failed (renameFile_refused located) (renameFile_refused found.symm)
  | ok path =>
      obtain ⟨rfl, -⟩ := Disk.locateFile_path located
      rw [located] at found
      by_cases blocked : d.node? target.path = some .directory
      · exact failed (renameFile_blocked located there blocked)
          (renameFile_blocked found.symm there' (node ▸ blocked))
      · have free' : e.node? target.path ≠ some .directory := node ▸ blocked
        refine ⟨_, _, _, orDiscard_ok.2 (renameFile_sound located there blocked),
          orDiscard_ok.2 (renameFile_sound found.symm there' free'), ?_⟩
        have isFile : d.node? (stagingPath process target) ≠ some .directory := by
          rw [there]
          nofun
        exact (prepared.erase own isFile).set replaces.path (Disk.erase_free blocked)

/-- Where the directory is there, a target is replaced alike on both disks, or it is not. -/
theorem Prepared.replace (prepared : c.Prepared process d e) (replaces : c.Replaces process target)
    (content : Octets) :
    EndsAlike process (c.Prepared process)
      (Device.replace (stagingPath process target) target content) d e := by
  have own := replaces.stagingPath
  have node := prepared.nodes _ own
  by_cases blocked : d.node? (stagingPath process target) = some .directory
  · exact ⟨_, _, _, replace_blocked blocked, replace_blocked (node ▸ blocked),
      prepared.without own⟩
  · have free' : e.node? (stagingPath process target) ≠ some .directory := node ▸ blocked
    have there : (Device.staged d (stagingPath process target) content).node?
        (stagingPath process target) = some (.file content) :=
      Disk.node?_set_self (Disk.ne_root_of_noDirectory blocked)
    obtain ⟨r, d', e', ended, ended', after⟩ :=
      (prepared.staged own blocked content).rename replaces there
    exact ⟨r, d', e', (replace_staged blocked).2 ended, (replace_staged free').2 ended', after⟩

/-- Where the directory is there, a path is found for the staging file alike, or none is. -/
theorem Prepared.reach (prepared : c.Prepared process d e) (replaces : c.Replaces process target)
    (content : Octets) :
    EndsAlike process (c.Prepared process) (do
      let staging ← look (·.locateFile (stagingPlace process target))
      Device.replace staging target content) d e := by
  have found := prepared.locateFile replaces.staging
  cases located : d.locateFile (stagingPlace process target) with
  | error cause =>
      rw [located] at found
      exact ⟨_, _, _,
        Ends.bind_iff.2 (Or.inr ⟨_, ends_look.2 ⟨rfl, Or.inr ⟨_, located, rfl⟩⟩, rfl⟩),
        Ends.bind_iff.2 (Or.inr ⟨_, ends_look.2 ⟨rfl, Or.inr ⟨_, found.symm, rfl⟩⟩, rfl⟩), prepared⟩
  | ok staging =>
      obtain ⟨rfl, -⟩ := Disk.locateFile_path located
      rw [located] at found
      obtain ⟨r, d', e', ended, ended', after⟩ := prepared.replace replaces content
      exact ⟨r, d', e', (Ends.bind_of (ends_look.2 ⟨rfl, Or.inl ⟨_, located, rfl⟩⟩)).2 ended,
        (Ends.bind_of (ends_look.2 ⟨rfl, Or.inl ⟨_, found.symm, rfl⟩⟩)).2 ended', after⟩

/-- Behind the making of the directory, disks that were alike are prepared. -/
theorem Alike.prepared (alike : c.Alike process d e)
    (made : d.makeDirs c.tablePlace.parent = (d', .ok ()))
    (made' : e.makeDirs c.tablePlace.parent = (e', .ok ())) : c.Prepared process d' e' := by
  have nodes := alike.nodes
  rw [made, made'] at nodes
  exact ⟨Disk.makeDirs_again (.refl _) rfl made, Disk.makeDirs_again (.refl _) rfl made', nodes⟩

/-- Whether its directory can be made or not, a target is published alike on disks that are alike. -/
theorem Alike.publishContent (alike : c.Alike process d e) (replaces : c.Replaces process target)
    (content : Octets) :
    EndsAlike process (c.Alike process) (publishContent target content) d e := by
  have behind := alike.made
  have outcome := alike.outcome
  rw [← replaces.parent] at behind outcome
  cases made : (d.makeDirs target.parent).2 with
  | error cause =>
      rw [made] at outcome
      exact ⟨_, _, _, Ends.bind_iff.2 (Or.inr ⟨_, makeDirs_refused made, rfl⟩),
        Ends.bind_iff.2 (Or.inr ⟨_, makeDirs_refused outcome.symm, rfl⟩), behind⟩
  | ok _ =>
      rw [made] at outcome
      have madeHere : d.makeDirs target.parent = ((d.makeDirs target.parent).1, .ok ()) :=
        Prod.ext rfl made
      have madeThere : e.makeDirs target.parent = ((e.makeDirs target.parent).1, .ok ()) :=
        Prod.ext rfl outcome.symm
      have prepared := alike.prepared (replaces.parent ▸ madeHere) (replaces.parent ▸ madeThere)
      obtain ⟨r, d', e', ended, ended', after⟩ := prepared.reach replaces content
      rw [← replaces.parent] at ended ended'
      exact ⟨r, d', e', (Ends.bind_of (makeDirs_sound madeHere)).2 (Ends.get_bind_iff.2 ended),
        (Ends.bind_of (makeDirs_sound madeThere)).2 (Ends.get_bind_iff.2 ended'), after.alike⟩

end BarCache

/-! ### Operations on two sessions -/

/-- Begun in related states, an operation ends alike in both of them, and in related states again. -/
def Lockstep {σ α : Type} (related : σ → σ → Prop) (act : ExceptT Halt (StateM σ) α) : Prop :=
  ∀ ⦃s t : σ⦄, related s t → ∃ r s' t', Ends act s r s' ∧ Ends act t r t' ∧ related s' t'

namespace Lockstep

variable {σ α β : Type} {related : σ → σ → Prop} {act : ExceptT Halt (StateM σ) α}

theorem pure (a : α) : Lockstep related (pure a : ExceptT Halt (StateM σ) α) :=
  fun _ _ holds => ⟨_, _, _, Ends.pure_iff.2 ⟨rfl, rfl⟩, Ends.pure_iff.2 ⟨rfl, rfl⟩, holds⟩

theorem bind {f : α → ExceptT Halt (StateM σ) β} (first : Lockstep related act)
    (rest : ∀ a, Lockstep related (f a)) : Lockstep related (act >>= f) := by
  intro s t holds
  obtain ⟨r, s₁, t₁, ended, ended', holds₁⟩ := first holds
  cases r with
  | error e =>
      exact ⟨.error e, s₁, t₁, Ends.bind_iff.2 (Or.inr ⟨e, ended, rfl⟩),
        Ends.bind_iff.2 (Or.inr ⟨e, ended', rfl⟩), holds₁⟩
  | ok a =>
      obtain ⟨r, s', t', h, h', holds'⟩ := rest a holds₁
      exact ⟨r, s', t', (Ends.bind_of ended).2 h, (Ends.bind_of ended').2 h', holds'⟩

end Lockstep

/-- The same is held in memory beside disks that are alike to a cache of the same setup. -/
inductive Session.InStep (c : BarCache) (process : Nat) : Session → Session → Prop where
  | of {held : BarCache} {d e : Disk} (setup : SameSetup c held) (alike : c.Alike process d e) :
      InStep c process ⟨held, sound d process⟩ ⟨held, sound e process⟩

namespace Session

theorem InStep.of_working {v w : Device} (setup : SameSetup c held) (working : v.Working process)
    (working' : w.Working process) (alike : c.Alike process v.disk w.disk) :
    InStep c process ⟨held, v⟩ ⟨held, w⟩ := by
  rw [working.eq_sound, working'.eq_sound]
  exact .of setup alike

theorem InStep.parts {s t : Session} (inStep : InStep c process s t) :
    SameSetup c s.cache ∧ t.cache = s.cache ∧ s.device.Working process ∧
      t.device.Working process ∧ c.Alike process s.device.disk t.device.disk := by
  obtain ⟨setup, alike⟩ := inStep
  exact ⟨setup, rfl, working_sound _ _, working_sound _ _, alike⟩

end Session

namespace BarCache

open Session (InStep)

variable {α β : Type} {now : Int}

theorem self_lockstep {f : BarCache → Op β}
    (rest : ∀ held, SameSetup c held → Lockstep (InStep c process) (f held)) :
    Lockstep (InStep c process) (self >>= f) := by
  rintro _ _ ⟨setup, alike⟩
  obtain ⟨r, s', t', ended, ended', after⟩ := rest _ setup (.of setup alike)
  exact ⟨r, s', t', self_bind_iff.2 ended, self_bind_iff.2 ended', after⟩

theorem change_lockstep {f : BarCache → BarCache} (keeps : ∀ held, SameSetup held (f held)) :
    Lockstep (InStep c process) (change f) := by
  rintro _ _ ⟨setup, alike⟩
  exact ⟨_, _, _, ends_change.2 ⟨rfl, rfl⟩, ends_change.2 ⟨rfl, rfl⟩,
    .of (setup.trans (keeps _)) alike⟩

theorem onDevice_lockstep {act : Act α}
    (same : ∀ d e, c.Alike process d e → EndsAlike process (c.Alike process) act d e) :
    Lockstep (InStep c process) (onDevice act) := by
  rintro _ _ ⟨setup, alike⟩
  obtain ⟨r, d', e', ended, ended', after⟩ := same _ _ alike
  exact ⟨r, _, _, ends_onDevice.2 ⟨_, ended, rfl⟩, ends_onDevice.2 ⟨_, ended', rfl⟩,
    .of setup after⟩

theorem require_lockstep (x : Outcome α) : Lockstep (InStep c process) (require x) := by
  rintro _ _ ⟨setup, alike⟩
  exact ⟨_, _, _, ends_require.2 ⟨rfl, rfl⟩, ends_require.2 ⟨rfl, rfl⟩, .of setup alike⟩

theorem readMeta_lockstep (setup : SameSetup c held) :
    Lockstep (InStep c process) (onDevice held.readMeta) := by
  refine onDevice_lockstep fun d e alike => ?_
  have there := held.readMeta_sound e process
  rw [setup.metaOn, ← alike.metaOn, ← setup.metaOn] at there
  exact ⟨_, d, e, held.readMeta_sound d process, there, alike⟩

theorem readRows_lockstep (setup : SameSetup c held) :
    Lockstep (InStep c process) (onDevice held.readRows) := by
  refine onDevice_lockstep fun d e alike => ?_
  have there := held.readRows_sound e process
  rw [setup.rowsOn, ← alike.rowsOn, ← setup.rowsOn] at there
  exact ⟨_, d, e, held.readRows_sound d process, there, alike⟩

theorem load_lockstep : Lockstep (InStep c process) load :=
  self_lockstep fun _ setup => .bind (readMeta_lockstep setup) fun _ =>
    .bind (readRows_lockstep setup) fun _ => change_lockstep fun _ => ⟨rfl, rfl, rfl, rfl⟩

theorem loadWarmup_lockstep : Lockstep (InStep c process) loadWarmup :=
  self_lockstep fun _ setup => .bind (readRows_lockstep setup) fun _ => .pure _

theorem append_lockstep (incoming : List Json) : Lockstep (InStep c process) (append incoming) :=
  self_lockstep fun _ _ => .bind (require_lockstep _) fun _ =>
    .bind (change_lockstep fun _ => ⟨rfl, rfl, rfl, rfl⟩) fun _ => .pure _

theorem mergeAndTrim_lockstep (limit : Option Nat) :
    Lockstep (InStep c process) (mergeAndTrim limit) := by
  rintro _ _ ⟨setup, alike⟩
  exact ⟨_, _, _, ends_mergeAndTrim.2 ⟨rfl, rfl⟩, ends_mergeAndTrim.2 ⟨rfl, rfl⟩,
    .of (setup.trans ⟨rfl, rfl, rfl, rfl⟩) alike⟩

theorem publish_lockstep (replaces : c.Replaces process target) (content : Octets) :
    Lockstep (InStep c process) (onDevice (publishContent target content)) :=
  onDevice_lockstep fun _ _ alike => alike.publishContent replaces content

theorem save_lockstep (lies : c.LiesIn root) (now : Int) :
    Lockstep (InStep c process) (save now) := by
  refine self_lockstep fun held setup => ?_
  have rest : Lockstep (InStep c process) (do
      change fun c' => { c' with metadata := held.metaToSave now, heartbeat := none }
      onDevice (publishContent held.tablePlace (Table.write held.rows))
      onDevice (publishContent held.metaPlace (encode (held.metaToSave now).write))) := by
    rw [setup.tablePlace, setup.metaPlace]
    exact .bind (change_lockstep fun _ => ⟨rfl, rfl, rfl, rfl⟩) fun _ =>
      .bind (publish_lockstep (c.replaces_table process) _) fun _ =>
        publish_lockstep (lies.replaces_meta process) _
  dsimp only
  split
  · exact .bind (require_lockstep _) fun _ => rest
  · exact rest

theorem appendStream_lockstep (lies : c.LiesIn root) (incoming : List Json) (now : Int) :
    Lockstep (InStep c process) (appendStream incoming now) :=
  .bind load_lockstep fun _ => .bind (append_lockstep _) fun _ => .bind (mergeAndTrim_lockstep _)
    fun _ => .bind (change_lockstep fun _ => ⟨rfl, rfl, rfl, rfl⟩) fun _ =>
      .bind (save_lockstep lies now) fun _ => .pure _

theorem markPublished_lockstep (lies : c.LiesIn root) (opened now : Int) :
    Lockstep (InStep c process) (markPublished opened now) := by
  have rest : Lockstep (InStep c process) (do
      change fun c => { c with metadata := { c.metadata with watermark := opened } }
      save now) :=
    .bind (change_lockstep fun _ => ⟨rfl, rfl, rfl, rfl⟩) fun _ => save_lockstep lies now
  refine .bind (require_lockstep _) fun _ => self_lockstep fun held _ => ?_
  dsimp only
  split
  · exact .bind load_lockstep fun _ => rest
  · exact rest

end BarCache

/-! ### Answers -/

/-- What an operation gives back. -/
inductive Action.Reply where
  | done
  | rows (rows : List Bar)
  | count (n : Nat)
  | report (report : BarCache.Report)
deriving DecidableEq

/-- The step as an operation, with what it gives back. -/
def Action.answer : Action → Op Action.Reply
  | .load => do
    BarCache.load
    return .rows (← self).rows
  | .loadWarmup => return .rows (← BarCache.loadWarmup)
  | .append incoming => return .count (← BarCache.append incoming)
  | .mergeAndTrim limit => return .report (← BarCache.mergeAndTrim limit)
  | .save now => do
    BarCache.save now
    return .done
  | .appendStream incoming now => return .report (← BarCache.appendStream incoming now)
  | .markPublished opened now => do
    BarCache.markPublished opened now
    return .done
  | .setHeartbeat ms => do
    BarCache.setHeartbeat ms
    return .done
  | .tamper device => do
    modify fun s => { s with device := device }
    return .done

/-- What is given back behind an operation leaves the session as the operation has left it. -/
theorem Ends.state_bind {σ α β : Type} {act : ExceptT Halt (StateM σ) α}
    {f : α → ExceptT Halt (StateM σ) β} (quiet : ∀ a t, ((f a).run t).2 = t) (s : σ) :
    ((act >>= f).run s).2 = (act.run s).2 := by
  rcases bind_iff.1 (self (act >>= f) s) with ⟨a, t, ended, rest⟩ | ⟨e, ended, -⟩
  · rw [show (act.run s).2 = t from congrArg Prod.snd ended, ← quiet a t]
    exact congrArg Prod.snd rest.symm
  · exact (congrArg Prod.snd ended).symm

theorem Action.answer_after (a : Action) (s : Session) : (a.answer.run s).2 = a.after s := by
  have dropped : ∀ {α β : Type} (act : Op α) (f : α → Op β), (∀ a t, ((f a).run t).2 = t) →
      ((act >>= f).run s).2 = ((act >>= fun _ => pure ()).run s).2 := fun act f quiet => by
    rw [Ends.state_bind quiet, Ends.state_bind fun _ _ => rfl]
  cases a with
  | load => exact Ends.state_bind (fun _ _ => rfl) s
  | loadWarmup => exact dropped _ _ fun _ _ => rfl
  | append incoming => exact dropped _ _ fun _ _ => rfl
  | mergeAndTrim limit => exact dropped _ _ fun _ _ => rfl
  | save now => exact Ends.state_bind (fun _ _ => rfl) s
  | appendStream incoming now => exact dropped _ _ fun _ _ => rfl
  | markPublished opened now => exact Ends.state_bind (fun _ _ => rfl) s
  | setHeartbeat ms => exact Ends.state_bind (fun _ _ => rfl) s
  | tamper device => exact Ends.state_bind (fun _ _ => rfl) s

/-- Every operation of a cache ends alike and gives back the same on disks that are alike. -/
theorem Action.lockstep (a : Action) (own : a.IsOwn) (lies : c.LiesIn root) :
    Lockstep (Session.InStep c process) a.answer := by
  cases a with
  | load => exact .bind load_lockstep fun _ => self_lockstep fun _ _ => .pure _
  | loadWarmup => exact .bind loadWarmup_lockstep fun _ => .pure _
  | append incoming => exact .bind (append_lockstep incoming) fun _ => .pure _
  | mergeAndTrim limit => exact .bind (mergeAndTrim_lockstep limit) fun _ => .pure _
  | save now => exact .bind (save_lockstep lies now) fun _ => .pure _
  | appendStream incoming now =>
      exact .bind (appendStream_lockstep lies incoming now) fun _ => .pure _
  | markPublished opened now =>
      exact .bind (markPublished_lockstep lies opened now) fun _ => .pure _
  | setHeartbeat ms =>
      exact .bind (change_lockstep fun _ => ⟨rfl, rfl, rfl, rfl⟩) fun _ => .pure _
  | tamper device => exact own.elim

end MarketBook
