/-
Module: MarketBook.Proofs.SharedDirectories
Purpose: Caches in one directory do not disturb each other, in whatever order they are at work.
Main exports:
  Gathering, Gathering.run, Gathering.InDirectory, Action.aside, Gathering.undisturbed
-/
import MarketBook.Proofs.AlikeDisks

namespace MarketBook

open BarCache Device Text

/-!
A cache that saves makes the directory of its files and touches nothing else but their four paths.
To its neighbours in the directory the disk stays what it was, so whatever they do next they would
have done without it.  Only the directory itself they have in common: where its name leads back out
of a directory that is still missing, its making opens a way to files that were there all along.
-/

variable {c : BarCache} {root target : Place} {process : Nat} {s s' : Session}

/-! ### Neighbours -/

/-- A publication of other files leaves the disk as it was to a cache in the same directory. -/
theorem Device.publish_aside {draft : Draft} {v v' : Device} {r : Except Halt Unit}
    (ended : Ends (publish target draft) v r v') (parent : target.parent = c.tablePlace.parent)
    (others : ∀ path ∈ c.savePaths process,
      path ≠ stagingPath v.process target ∧ path ≠ target.path)
    (unseen : c.DirectoryUnseen v.disk) : c.Alike process v.disk v'.disk := by
  have toMade := Alike.of_made process unseen
  rw [← parent] at toMade
  rcases publish_phases ended with ⟨-, -, same | made⟩ | ⟨v₁, -, -, -, made, -, replaced⟩
  · rw [same]
    exact .refl process unseen
  · rw [made]
    exact toMade
  · -- From the made directory on, only the two paths of the target may differ.
    rw [made] at toMade
    refine toMade.trans ?_
    rw [parent] at made
    have there := Disk.makeDirs_again (.refl _) rfl made
    have settled : c.Prepared process v₁.disk v₁.disk := ⟨there, there, fun _ _ => rfl⟩
    rcases replace_cases replaced with ⟨-, -, -, keeps, -, -, -, same⟩ | ⟨-, touched⟩
    · exact (settled.keepsDirs (.refl _) keeps fun path own =>
        (same path (others path own).1 (others path own).2).symm).alike
    · exact (settled.keepsDirs (.refl _) touched.keepsDirs fun path own =>
        (touched.others path (others path own).1).symm).alike

/-- The paths of a neighbour are not those that a cache replaces. -/
theorem BarCache.others_of_apart (sameDirectory : c.directory = s.cache.directory)
    (differ : c.binding ≠ s.cache.binding) (replaces : s.cache.Replaces process target) :
    ∀ path ∈ c.savePaths process, path ≠ stagingPath process target ∧ path ≠ target.path := by
  have distinct : (c.savePaths process ++ s.cache.savePaths process).Nodup :=
    savePaths_apart sameDirectory differ
  have apart := (List.nodup_append.1 distinct).2.2
  exact fun path own => ⟨apart path own _ replaces.stagingPath, apart path own _ replaces.path⟩

/-- However a save ends, to a neighbour the disk is as it was. -/
theorem BarCache.save_aside {now : Int} {r : Except Halt Unit} (ended : Ends (save now) s r s')
    (lies : c.LiesIn root) (lies' : s.cache.LiesIn root) (differ : c.binding ≠ s.cache.binding)
    (unseen : c.DirectoryUnseen s.device.disk) :
    c.Alike s.device.process s.device.disk s'.device.disk := by
  have sameDirectory := lies.directory.trans lies'.directory.symm
  obtain ⟨tableParent, metaParent⟩ := lies.parents lies'
  have table := others_of_apart sameDirectory differ (s.cache.replaces_table s.device.process)
  have metadata := others_of_apart sameDirectory differ (lies'.replaces_meta s.device.process)
  rcases save_cases ended with ⟨-, -, rfl⟩ | ⟨-, -, ⟨e, -, failed⟩ | ⟨v, published, metaEnded⟩⟩
  · exact .refl _ unseen
  · exact publish_aside failed tableParent table unseen
  · have first : c.Alike s.device.process s.device.disk v.disk :=
      publish_aside published tableParent table unseen
    have process := publish_process published
    refine first.trans (publish_aside metaEnded metaParent ?_ first.unseen')
    rw [process]
    exact metadata

/-- Whatever a cache does and however it ends, to a neighbour the disk is as it was. -/
theorem Action.aside (a : Action) (own : a.IsOwn) (lies : c.LiesIn root)
    (lies' : s.cache.LiesIn root) (differ : c.binding ≠ s.cache.binding)
    (unseen : c.DirectoryUnseen s.device.disk) :
    c.Alike s.device.process s.device.disk (a.after s).device.disk := by
  obtain ⟨s₁, work, same | ⟨now, r, saved⟩⟩ := a.phases own s
  · rw [same, work.disk]
    exact .refl _ unseen
  · have setup := work.changes.setup
    rw [← work.disk, ← work.process]
    rw [← work.disk] at unseen
    refine save_aside saved lies ⟨?_, ?_⟩ ?_ unseen
    · rw [setup.directory, lies'.directory]
    · rw [setup.binding]
      exact lies'.accepted
    · rw [setup.binding]
      exact differ

theorem BarCache.liesIn_of_create {symbol : String} {tf : Timeframe} {maxBars warmupBars : Nat}
    (created : create root symbol tf maxBars warmupBars = .ok c) : c.LiesIn root := by
  obtain ⟨-, normal, normalized, rfl⟩ := create_eq_ok created
  exact ⟨rfl, symbol, normalized⟩

/-! ### Gatherings -/

/-- Several caches at work on one device. -/
structure Gathering (ι : Type) where
  caches : ι → BarCache
  device : Device

namespace Gathering

variable {ι : Type} [DecidableEq ι] {g h : Gathering ι} {i j k : ι} {a : Action}

/-- One of the caches at work. -/
def session (g : Gathering ι) (i : ι) : Session :=
  ⟨g.caches i, g.device⟩

/-- The gathering behind the work of one of the caches. -/
def leave (g : Gathering ι) (i : ι) (s : Session) : Gathering ι :=
  ⟨Function.update g.caches i s.cache, s.device⟩

/-- An operation of one of the caches, with what it gives back. -/
def step (g : Gathering ι) (i : ι) (a : Action) : Except Halt Action.Reply × Gathering ι :=
  let ended := a.answer.run (g.session i)
  (ended.1, g.leave i ended.2)

/-- Operations of the caches in the order in which they come, with what each of them gives back to
whom. -/
def run (g : Gathering ι) : List (ι × Action) → List (ι × Except Halt Action.Reply) × Gathering ι
  | [] => ([], g)
  | (i, a) :: rest =>
    let ended := g.step i a
    let others := ended.2.run rest
    ((i, ended.1) :: others.1, others.2)

/-- All caches have their files in one directory, and no two of them have a binding in common. -/
structure InDirectory (root : Place) (g : Gathering ι) : Prop where
  lies : ∀ i, (g.caches i).LiesIn root
  apart : ∀ i j, i ≠ j → (g.caches i).binding ≠ (g.caches j).binding

theorem session_leave_self (g : Gathering ι) (i : ι) (s : Session) :
    (g.leave i s).session i = s := by
  simp [leave, session]

theorem caches_leave_self (g : Gathering ι) (i : ι) (s : Session) :
    (g.leave i s).caches i = s.cache := by
  simp [leave]

theorem caches_leave_other (s : Session) (apart : j ≠ i) :
    (g.leave i s).caches j = g.caches j := by
  simp [leave, Function.update_of_ne apart]

theorem step_state (g : Gathering ι) (i : ι) (a : Action) :
    (g.step i a).2 = g.leave i (a.after (g.session i)) :=
  congrArg (g.leave i) (a.answer_after _)

theorem step_setup (g : Gathering ι) (i : ι) (a : Action) (j : ι) :
    SameSetup (g.caches j) ((g.step i a).2.caches j) := by
  rw [step_state]
  by_cases same : j = i
  · subst same
    rw [caches_leave_self]
    exact (a.changes (g.session j)).setup
  · rw [caches_leave_other _ same]
    exact .refl _

/-- Nobody moves to another directory or takes another binding. -/
theorem InDirectory.step (gathered : g.InDirectory root) (i : ι) (a : Action) :
    (g.step i a).2.InDirectory root where
  lies := fun j => by
    have setup := g.step_setup i a j
    obtain ⟨directory, accepted⟩ := gathered.lies j
    refine ⟨setup.directory.trans directory, ?_⟩
    rw [setup.binding]
    exact accepted
  apart := fun j k differ => by
    rw [(g.step_setup i a j).binding, (g.step_setup i a k).binding]
    exact gathered.apart j k differ

/-- A cache gives back the same in two gatherings between which it sees no difference, and it sees
none afterwards. -/
theorem step_own (lies : c.LiesIn root) (inStep : Session.InStep c process (g.session i) (h.session i))
    (own : a.IsOwn) :
    (g.step i a).1 = (h.step i a).1 ∧
      Session.InStep c process ((g.step i a).2.session i) ((h.step i a).2.session i) := by
  obtain ⟨r, s', t', ended, ended', after⟩ := a.lockstep own lies inStep
  unfold Ends at ended ended'
  simp only [step, ended, ended', session_leave_self, true_and]
  exact after

/-- What another cache of the directory does makes no difference to it. -/
theorem step_other (gathered : g.InDirectory root) (lies : c.LiesIn root) (differ : j ≠ i)
    (inStep : Session.InStep c process (g.session i) (h.session i)) (own : a.IsOwn) :
    Session.InStep c process ((g.step j a).2.session i) (h.session i) := by
  obtain ⟨setup, same, working, working', alike⟩ := inStep.parts
  have bindings : c.binding ≠ (g.caches j).binding := by
    rw [← setup.binding]
    exact gathered.apart i j differ.symm
  have aside := a.aside (s := g.session j) own lies (gathered.lies j) bindings alike.unseen
  rw [show (g.session j).device.process = process from working.process] at aside
  have here : (g.step j a).2.session i = ⟨g.caches i, (a.after (g.session j)).device⟩ := by
    rw [step_state, session, caches_leave_other _ differ.symm]
    rfl
  have there : h.session i = ⟨g.caches i, h.device⟩ := by
    rw [session, show h.caches i = g.caches i from same]
  rw [here, there]
  exact .of_working setup (a.working own working) working' (aside.symm.trans alike)

/-- So a run with all of them and a run of the one alone keep in step. -/
theorem run_inStep (lies : c.LiesIn root) (steps : List (ι × Action)) :
    ∀ {g h : Gathering ι}, g.InDirectory root →
      Session.InStep c process (g.session i) (h.session i) → (∀ x ∈ steps, x.2.IsOwn) →
      (g.run steps).1.filter (·.1 = i) = (h.run (steps.filter (·.1 = i))).1 ∧
        Session.InStep c process ((g.run steps).2.session i)
          ((h.run (steps.filter (·.1 = i))).2.session i) := by
  -- Both gatherings stay general: an own step moves both of them on, a step of another only the first.
  induction steps with
  | nil => exact fun _ inStep _ => ⟨rfl, inStep⟩
  | cons x rest ih =>
      intro g h gathered inStep own
      obtain ⟨j, a⟩ := x
      obtain ⟨ownStep, ownRest⟩ := List.forall_mem_cons.1 own
      by_cases same : j = i
      · subst same
        obtain ⟨reply, after⟩ := step_own lies inStep ownStep
        obtain ⟨replies, final⟩ := ih (gathered.step j a) after ownRest
        simp [run, reply, replies, final]
      · have after := step_other gathered lies same inStep ownStep
        obtain ⟨replies, final⟩ := ih (gathered.step j a) after ownRest
        simp [run, same, replies, final]

/-- Whatever the symbols of caches in one directory hold, the files and the staging files of any two
of them have eight paths, and all lead directly into the directory.  So where nothing fails, and the
making of the directory is not seen in the files of one of them, this one gives back the same in a
run of all as if the others did nothing, and afterwards it holds the same and has the same in its
files.  A directory that is there need not be made. -/
theorem undisturbed (gathered : g.InDirectory root) (i : ι) :
    (∀ j, j ≠ i → ∀ process,
      ((g.caches i).savePaths process ++ (g.caches j).savePaths process).Nodup) ∧
    (∀ process, ∀ path ∈ (g.caches i).savePaths process,
      ∃ name, '/' ∉ name.toList ∧ path = root.path ++ [name]) ∧
    (g.device.fates = [] → (g.caches i).DirectoryUnseen g.device.disk →
      ∀ steps : List (ι × Action), (∀ x ∈ steps, x.2.IsOwn) →
        let all := g.run steps
        let alone := g.run (steps.filter (·.1 = i))
        all.1.filter (·.1 = i) = alone.1 ∧ all.2.caches i = alone.2.caches i ∧
          ∀ place ∈ [(g.caches i).tablePlace, (g.caches i).metaPlace],
            all.2.device.disk.contentAt place = alone.2.device.disk.contentAt place) := by
  have lies := gathered.lies i
  refine ⟨fun j differ process => ?_, fun process path there => lies.mem_savePaths there, ?_⟩
  · exact savePaths_apart (lies.directory.trans (gathered.lies j).directory.symm)
      (gathered.apart i j differ.symm)
  · intro sound unseen steps own all alone
    have working : g.device.Working g.device.process := ⟨rfl, sound⟩
    have start : Session.InStep (g.caches i) g.device.process (g.session i) (g.session i) :=
      .of_working (.refl _) working working (.refl _ unseen)
    obtain ⟨replies, final⟩ := run_inStep lies steps gathered start own
    obtain ⟨-, same, -, -, alike⟩ := final.parts
    exact ⟨replies, same.symm, alike.contents⟩

/-- A new cache of minutes. -/
def minuteCache (root : Place) (symbol : String) : BarCache :=
  { metalCache with directory := root, binding := ⟨symbol, .m1⟩ }

/-- Two caches, one of them under a symbol that looks like the name of a file of the other. -/
def metals : Gathering Bool :=
  ⟨fun odd => minuteCache (.ofText [] "/data") (if odd then "XAUUSD_1M.CSV" else "XAUUSD"),
    sound Disk.empty 1⟩

/-- Loads and saves of both in turn. -/
def metalTurns : List (Bool × Action) :=
  [(false, .load), (true, .load), (true, .setHeartbeat 1700000040005),
    (false, .save 1700000100000), (true, .save 1700000160000)]

theorem metals_inDirectory : metals.InDirectory (.ofText [] "/data") where
  lies := by
    have gold : BarCache.create (.ofText [] "/data") "xau/usd" .m1 10 0 = .ok (metals.caches false) :=
      metalCache_created
    have odd : BarCache.create (.ofText [] "/data") "xau/usd_1m.csv" .m1 10 0 =
        .ok (metals.caches true) := by decide +kernel
    intro i
    cases i with
    | false => exact liesIn_of_create gold
    | true => exact liesIn_of_create odd
  apart := by decide +kernel

theorem metals_undisturbed :
    (metals.run metalTurns).1 = [(false, .ok (.rows [])), (true, .ok (.rows [])), (true, .ok .done),
      (false, .ok .done), (true, .ok .done)] ∧
    ((metals.caches false).savePaths 1 ++ (metals.caches true).savePaths 1).Nodup ∧
    let all := metals.run metalTurns
    let alone := metals.run [(false, .load), (false, .save 1700000100000)]
    all.1.filter (·.1 = false) = alone.1 ∧ all.2.caches false = alone.2.caches false ∧
      ∀ place ∈ [(metals.caches false).tablePlace, (metals.caches false).metaPlace],
        all.2.device.disk.contentAt place = alone.2.device.disk.contentAt place := by
  obtain ⟨distinct, -, runs⟩ := undisturbed metals_inDirectory false
  have unseen : (metals.caches false).DirectoryUnseen metals.device.disk := by
    unfold DirectoryUnseen
    decide +kernel
  have own : ∀ x ∈ metalTurns, x.2.IsOwn := by
    simp [metalTurns, Action.IsOwn]
  exact ⟨by decide +kernel, distinct true (by decide) 1, runs rfl unseen metalTurns own⟩

/-- Two caches whose directory is named by way of another one, which is missing, beside the metadata
of one of them. -/
def gateway : Gathering Bool :=
  ⟨fun gold => minuteCache (.ofText [] "GATE_1m.csv/..") (if gold then "XAUUSD" else "EURUSD"),
    sound ⟨[(["XAUUSD_1m.meta.json"],
      .file (encode "\x7b\"version\": 1, \"last_stream_heartbeat\": 5\x7d"))]⟩ 1⟩

theorem gateway_inDirectory : gateway.InDirectory (.ofText [] "GATE_1m.csv/..") where
  lies := by
    have euro : BarCache.create (.ofText [] "GATE_1m.csv/..") "eurusd" .m1 10 0 =
        .ok (gateway.caches false) := by decide +kernel
    have gold : BarCache.create (.ofText [] "GATE_1m.csv/..") "xauusd" .m1 10 0 =
        .ok (gateway.caches true) := by decide +kernel
    intro i
    cases i with
    | false => exact liesIn_of_create euro
    | true => exact liesIn_of_create gold
  apart := by decide +kernel

/-- Where the making of the directory is seen, a cache is disturbed though nothing fails: alone it
does not reach its files, and behind a save of the other one it does. -/
theorem gateway_disturbs :
    gateway.InDirectory (.ofText [] "GATE_1m.csv/..") ∧ gateway.device.fates = [] ∧
    let all := gateway.run [(false, .load), (false, .save 1700000100000), (true, .load)]
    let alone := gateway.run [(true, .load)]
    all.1 = [(false, .ok (.rows [])), (false, .ok .done), (true, .ok (.rows []))] ∧
      alone.1 = [(true, .ok (.rows []))] ∧
      (all.2.caches true).metadata.heartbeat = 5 ∧
      (alone.2.caches true).metadata.heartbeat = 0 := by
  refine ⟨gateway_inDirectory, rfl, ?_⟩
  decide +kernel

end Gathering

end MarketBook
