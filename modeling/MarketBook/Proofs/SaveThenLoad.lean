/-
Module: MarketBook.Proofs.SaveThenLoad
Purpose: What a cache has saved, a new cache loads, and saving it again changes neither file.
Main exports:
  BarCache.load_works, BarCache.SavedOn, BarCache.save_leaves, BarCache.save_works,
  Reachable.load_saved
-/
import MarketBook.Proofs.CacheNumbers

namespace MarketBook

open BarCache Device Text

/-!
A save that works leaves both files in full, and leaves the disk as the next save needs it.  Both
files read back as what they were written from, because every row and every number of a reachable
cache is one that the readers let pass.  Metadata take in the heartbeat that was waiting, so a second
save finds none and writes the same again.
-/

/-! ### Reading on a device that works -/

theorem Disk.contentAt_file {d : Disk} {p : Place} {content : Octets}
    (located : d.locateFile p = .ok p.path) (there : d.node? p.path = some (.file content)) :
    d.contentAt p = .ok (some content) := by
  obtain ⟨-, -, located⟩ := locateFile_eq_ok.1 located
  simp [contentAt, read, located, there, bind, Except.bind]

variable {d : Disk} {process : Nat} {p : Place} {c c' : BarCache}

/-- On a device that works, readers get what the disk holds, or its refusal. -/
theorem Device.readFile?_sound (p : Place) (d : Disk) (process : Nat) :
    Ends (readFile? p) (sound d process) ((d.contentAt p).mapError Halt.fault)
      (sound d process) := by
  unfold Disk.contentAt
  cases read : d.read p with
  | ok content => exact whole_sound (by rw [read]; rfl)
  | error e =>
      refine ends_whole.2 (Or.inr (Or.inr ⟨nextOf_sound d process, Or.inr ⟨e, ?_, ?_, rfl⟩⟩))
      · change (d.read p).map _ = _
        rw [read]
        rfl
      · cases e <;> rfl

theorem Device.readText?_sound (p : Place) (d : Disk) (process : Nat) :
    Ends (readText? p) (sound d process) ((d.textAt p).mapError Halt.fault)
      (sound d process) := by
  have file := readFile?_sound p d process
  unfold Disk.textAt
  cases held : d.contentAt p with
  | error cause =>
      rw [held] at file
      exact Ends.bind_iff.2 (Or.inr ⟨_, file, rfl⟩)
  | ok found =>
      rw [held] at file
      refine (Ends.bind_of file).2 ?_
      cases found with
      | none => exact Ends.pure_iff.2 ⟨rfl, rfl⟩
      | some content =>
          cases spelled : Text.decode? content with
          | none =>
              simp only [spelled]
              exact ends_fail.2 ⟨rfl, rfl⟩
          | some text =>
              simp only [spelled]
              exact Ends.pure_iff.2 ⟨rfl, rfl⟩

theorem Device.readText?_works {found : Option String} (there : d.textAt p = .ok found) :
    Ends (readText? p) (sound d process) (.ok found) (sound d process) := by
  have ended := readText?_sound p d process
  rw [there] at ended
  exact ended

theorem Device.readTextOr_works {text : String} {cause : Fault}
    (there : d.textAt p = .ok (some text)) :
    Ends (readTextOr cause p) (sound d process) (.ok text) (sound d process) :=
  (Ends.bind_of (ends_withFault.2 (.inl ⟨some text, readText?_works there, rfl⟩))).2
    (Ends.pure_iff.2 ⟨rfl, rfl⟩)

theorem BarCache.readMeta_sound (c : BarCache) (d : Disk) (process : Nat) :
    Ends c.readMeta (sound d process) ((c.metaOn d).mapError Halt.fault) (sound d process) := by
  have read := readText?_sound c.metaPlace d process
  unfold metaOn
  cases held : d.textAt c.metaPlace with
  | error cause =>
      rw [held] at read
      exact Ends.bind_iff.2 (Or.inr ⟨_, read, rfl⟩)
  | ok found =>
      rw [held] at read
      refine (Ends.bind_of read).2 ?_
      cases found with
      | none => exact Ends.pure_iff.2 ⟨rfl, rfl⟩
      | some text => exact ends_ofOutcome.2 ⟨rfl, rfl⟩

theorem BarCache.readRows_sound (c : BarCache) (d : Disk) (process : Nat) :
    Ends c.readRows (sound d process) ((c.rowsOn d).mapError Halt.fault) (sound d process) := by
  have read := readFile?_sound c.tablePlace d process
  unfold rowsOn
  cases held : d.contentAt c.tablePlace with
  | error cause =>
      rw [held] at read
      exact Ends.bind_iff.2
        (Or.inr ⟨_, ends_withFault.2 (Or.inr (Or.inr ⟨cause, read, rfl⟩)), rfl⟩)
  | ok found =>
      rw [held] at read
      refine (Ends.bind_of (ends_withFault.2 (Or.inl ⟨found, read, rfl⟩))).2 ?_
      cases found with
      | none => exact Ends.pure_iff.2 ⟨rfl, rfl⟩
      | some content => exact ends_ofOutcome.2 ⟨rfl, rfl⟩

/-- On a device that works a load takes both files as the disk holds them. -/
theorem BarCache.load_works {m : CacheMeta} {rows : List Bar} (metaHeld : c.metaOn d = .ok m)
    (rowsHeld : c.rowsOn d = .ok rows) :
    Ends load ⟨c, sound d process⟩ (.ok ()) ⟨c.withFiles m rows, sound d process⟩ := by
  have readM := c.readMeta_sound d process
  have readR := c.readRows_sound d process
  rw [metaHeld] at readM
  rw [rowsHeld] at readR
  unfold load
  rw [self_bind_iff]
  refine (Ends.bind_of (ends_onDevice.2 ⟨_, readM, rfl⟩)).2 ?_
  refine (Ends.bind_of (ends_onDevice.2 ⟨_, readR, rfl⟩)).2 ?_
  exact ends_change.2 ⟨rfl, rfl⟩

/-! ### What a save leaves -/

/-- Both files of a cache stand on a disk, and everything is ready for the next save. -/
structure BarCache.SavedOn (c : BarCache) (rows : List Bar) (m : CacheMeta) (process : Nat)
    (d : Disk) : Prop where
  tableReady : Ready c.tablePlace process d
  metaReady : Ready c.metaPlace process d
  table : d.node? c.tablePath = some (.file (Table.write rows))
  metadata : d.node? c.metaPath = some (.file (encode m.write))

/-- Where both directories could be made, and the first is there, so is the second. -/
theorem Disk.makeDirs_steps {d₁ : Disk} {p q : Place} (steps : q.steps = p.steps)
    (plain : p.ending = .none ∧ q.ending = .none) (there : d.makeDirs p = (d, .ok ()))
    (made : d.makeDirs q = (d₁, .ok ())) : d.makeDirs q = (d, .ok ()) := by
  unfold makeDirs at there made ⊢
  split at there
  · cases there
  · split at made
    · cases made
    case isFalse fits =>
      rw [if_neg fits]
      rw [if_neg (by simp [plain.1])] at there
      rw [if_neg (by simp [plain.2]), steps]
      exact there

theorem BarCache.parent_steps (c : BarCache) :
    c.metaPlace.parent.steps = c.tablePlace.parent.steps := by
  simp [metaPlace, tablePlace, Place.parent, Place.child]

variable {s s' : Session} {now : Int}

/-- After the rows were published, the metadata are published beside them; that touches nothing
that the rows need. -/
theorem BarCache.savedOn_published {rows : List Bar} {m : CacheMeta} {v v' w : Device}
    (first : Published c.tablePlace (Table.write rows) v v')
    (second : Published c.metaPlace (encode m.write) v' w) : c.SavedOn rows m v.process w.disk := by
  have dirs : v'.disk.makeDirs c.metaPlace.parent = (v'.disk, .ok ()) := by
    obtain ⟨d, made, -⟩ := second.made
    exact Disk.makeDirs_steps c.parent_steps ⟨rfl, rfl⟩ first.ready.dirs made
  obtain ⟨keeps, others⟩ := second.elsewhere dirs
  have metaReady := second.ready
  rw [first.process] at others metaReady
  have apart := paths_apart c v.process
  have table : w.disk.node? c.tablePath = some (.file (Table.write rows)) := by
    rw [others _ apart.tableMetaStaging apart.files]
    exact first.content
  refine ⟨first.ready.keepsDirs keeps ?_ ?_, metaReady, table, second.content⟩
  · rw [others _ apart.stagings apart.metaTableStaging.symm]
    exact first.stagingFree
  · rw [show w.disk.node? c.tablePlace.path = _ from table]
    nofun

theorem publishContent_published {target : Place} {content : Octets} {v v' : Device}
    (h : Ends (publishContent target content) v (.ok ()) v') : Published target content v v' := by
  rcases publish_cases h with ⟨-, -, published⟩ | ⟨⟨e, impossible⟩, -⟩
  · exact published
  · cases impossible

/-- A save that works leaves both files in full. -/
theorem BarCache.save_leaves (h : Ends (save now) s (.ok ()) s') :
    s.cache.isLoaded = true ∧ s'.cache = s.cache.savedAt now ∧
      s.cache.SavedOn s.cache.rows (s.cache.metaToSave now) s.device.process s'.device.disk := by
  rcases save_cases h with
    ⟨-, ⟨e, impossible⟩, -⟩ | ⟨loaded, same, ⟨e, impossible, -⟩ | ⟨v, published, metaEnded⟩⟩
  · cases impossible
  · cases impossible
  · exact ⟨loaded, same, savedOn_published (publishContent_published published)
      (publishContent_published metaEnded)⟩

/-- A loaded cache is saved if both publications work. -/
theorem BarCache.save_of {v w : Device} (loaded : s.cache.isLoaded = true)
    (tableEnded : Ends (publishContent s.cache.tablePlace (Table.write s.cache.rows)) s.device
      (.ok ()) v)
    (metaEnded : Ends (publishContent s.cache.metaPlace (encode (s.cache.metaToSave now).write)) v
      (.ok ()) w) :
    Ends (save now) s (.ok ()) ⟨s.cache.savedAt now, w⟩ := by
  unfold save
  rw [self_bind_iff]
  dsimp only
  rw [if_neg (by simp [loaded]), change_bind_iff]
  refine (Ends.bind_of (a := ()) (t := ⟨s.cache.savedAt now, v⟩) ?_).2 ?_
  · exact ends_onDevice.2 ⟨v, tableEnded, rfl⟩
  · exact ends_onDevice.2 ⟨w, metaEnded, rfl⟩

/-- Where everything is ready and the device works, a save works. -/
theorem BarCache.save_works (loaded : c.isLoaded = true)
    (tableReady : Ready c.tablePlace process d) (metaReady : Ready c.metaPlace process d) :
    ∃ s', Ends (save now) ⟨c, sound d process⟩ (.ok ()) s' := by
  obtain ⟨d₁, tableEnded⟩ : ∃ d₁, Ends (publishContent c.tablePlace (Table.write c.rows))
      (sound d process) (.ok ()) (sound d₁ process) := publish_works tableReady
  have published := publishContent_published tableEnded
  obtain ⟨keeps, others⟩ := published.elsewhere tableReady.dirs
  have apart := paths_apart c process
  have stagingSame : d₁.node? (stagingPath process c.metaPlace) =
      d.node? (stagingPath process c.metaPlace) :=
    others _ apart.stagings.symm apart.tableMetaStaging.symm
  have metaSame : d₁.node? c.metaPlace.path = d.node? c.metaPlace.path :=
    others _ apart.metaTableStaging apart.files.symm
  have metaReady₁ : Ready c.metaPlace process d₁ := by
    refine metaReady.keepsDirs keeps ?_ ?_
    · rw [stagingSame]
      exact metaReady.stagingFree
    · rw [metaSame]
      exact metaReady.free
  obtain ⟨d₂, metaEnded⟩ : ∃ d₂,
      Ends (publishContent c.metaPlace (encode (c.metaToSave now).write)) (sound d₁ process)
        (.ok ()) (sound d₂ process) := publish_works metaReady₁
  exact ⟨_, save_of loaded tableEnded metaEnded⟩

/-! ### The round trip -/

/-- A cache that has just been saved, or just been loaded, writes the same metadata again. -/
theorem BarCache.metaToSave_again (rows : c'.rows = c.rows) (binding : c'.binding = c.binding)
    (waiting : c'.heartbeat = none) (metadata : c'.metadata = c.metaToSave now) :
    c'.metaToSave now = c.metaToSave now := by
  unfold metaToSave at metadata ⊢
  rw [rows, binding, waiting, metadata]
  rfl

/-- The metadata that a reachable cache writes can be read. -/
theorem Reachable.metaOn_written (reachable : Reachable Action.Fits s)
    (there : d.contentAt s.cache.metaPlace = .ok (some (encode (s.cache.metaToSave now).write))) :
    s.cache.metaOn d = .ok (s.cache.metaToSave now) := by
  have text : d.textAt s.cache.metaPlace = .ok (some (s.cache.metaToSave now).write) := by
    simp only [Disk.textAt, there, decode?_encode]
  simp only [metaOn, text]
  exact CacheMeta.read_write (metaToSave_fits reachable now)

/-- The rows that a reachable cache writes can be read. -/
theorem Reachable.rowsOn_written (reachable : Reachable Action.Fits s)
    (there : d.contentAt s.cache.tablePlace = .ok (some (Table.write s.cache.rows))) :
    s.cache.rowsOn d = .ok s.cache.rows := by
  simp only [rowsOn, there]
  exact Table.read_write reachable.storable.ascending reachable.storable.rows

/-- What a reachable cache has saved reads back as what it holds in memory. -/
theorem Reachable.held (reachable : Reachable Action.Fits s)
    (saved : s.cache.SavedOn s.cache.rows (s.cache.metaToSave now) process d) :
    s.cache.metaOn d = .ok (s.cache.metaToSave now) ∧ s.cache.rowsOn d = .ok s.cache.rows :=
  ⟨reachable.metaOn_written (Disk.contentAt_file saved.metaReady.located saved.metadata),
    reachable.rowsOn_written (Disk.contentAt_file saved.tableReady.located saved.table)⟩

/-- A cache that agrees with the saved one in everything a save writes leaves the files as they
are. -/
theorem BarCache.SavedOn.save_again (saved : c.SavedOn c.rows (c.metaToSave now) process d)
    (directory : c'.directory = c.directory) (binding : c'.binding = c.binding)
    (rows : c'.rows = c.rows) (metadata : c'.metadata = c.metaToSave now)
    (waiting : c'.heartbeat = none) (loaded : c'.isLoaded = true) :
    ∃ again, Ends (save now) ⟨c', sound d process⟩ (.ok ()) again ∧
      again.device.disk.node? c.tablePath = some (.file (Table.write c.rows)) ∧
      again.device.disk.node? c.metaPath = some (.file (encode (c.metaToSave now).write)) := by
  have tablePlace : c'.tablePlace = c.tablePlace := by
    unfold BarCache.tablePlace
    rw [directory, binding]
  have metaPlace : c'.metaPlace = c.metaPlace := by
    unfold BarCache.metaPlace
    rw [directory, binding]
  have tableReady := saved.tableReady
  have metaReady := saved.metaReady
  rw [← tablePlace] at tableReady
  rw [← metaPlace] at metaReady
  obtain ⟨again, ended⟩ := @save_works _ _ _ now loaded tableReady metaReady
  obtain ⟨-, -, left⟩ := save_leaves ended
  refine ⟨again, ended, ?_, ?_⟩
  · rw [← rows, BarCache.tablePath, ← tablePlace]
    exact left.table
  · rw [← metaToSave_again rows binding waiting metadata, BarCache.metaPath, ← metaPlace]
    exact left.metadata

/-- After a save that worked, a new cache of the same directory, symbol and timeframe loads the rows
and the metadata of the one that saved, and the metadata agree with the rows.  Saving either of them
again at the same instant works and leaves both files as they are. -/
theorem Reachable.load_saved (reachable : Reachable Action.Fits s)
    (saved : Ends (save now) s (.ok ()) s') {symbol : String} {maxBars warmupBars : Nat}
    {fresh : BarCache} (created : BarCache.create s.cache.directory symbol s.cache.binding.tf maxBars
      warmupBars = .ok fresh) (same : fresh.binding = s.cache.binding) (process : Nat) :
    ∃ loaded,
      Ends load ⟨fresh, sound s'.device.disk process⟩ (.ok ())
        ⟨loaded, sound s'.device.disk process⟩ ∧
      loaded.rows = s'.cache.rows ∧ loaded.metadata = s'.cache.metadata ∧
      loaded.metadata.rows = loaded.rows.length ∧
      loaded.metadata.lastCloseTime = (loaded.rows.getLast?.map (·.closeTime)).getD 0 ∧
      ∃ table metadata, s'.device.disk.node? s.cache.tablePath = some (.file table) ∧
        s'.device.disk.node? s.cache.metaPath = some (.file metadata) ∧
        ∀ c ∈ [s'.cache, loaded], ∃ again,
          Ends (save now) ⟨c, sound s'.device.disk s.device.process⟩ (.ok ()) again ∧
            again.device.disk.node? s.cache.tablePath = some (.file table) ∧
            again.device.disk.node? s.cache.metaPath = some (.file metadata) := by
  obtain ⟨isLoaded, after, left⟩ := save_leaves saved
  obtain ⟨metaHeld, rowsHeld⟩ := reachable.held left
  obtain ⟨-, normal, -, rfl⟩ := create_eq_ok created
  have binding : s.cache.binding = ⟨normal, s.cache.binding.tf⟩ := same.symm
  set fresh : BarCache := ⟨s.cache.directory, ⟨normal, s.cache.binding.tf⟩, maxBars, warmupBars, [],
    [], .blank, none, false⟩
  have metaHeld' : fresh.metaOn s'.device.disk = .ok (s.cache.metaToSave now) := by
    unfold metaOn metaPlace at metaHeld ⊢
    rw [← metaHeld, same]
  have rowsHeld' : fresh.rowsOn s'.device.disk = .ok s.cache.rows := by
    unfold rowsOn tablePlace at rowsHeld ⊢
    rw [← rowsHeld, same]
  refine ⟨_, load_works metaHeld' rowsHeld', ?_, ?_, rfl, rfl, _, _, left.table, left.metadata, ?_⟩
  · rw [after]
    rfl
  · rw [after]
    rfl
  · intro c hc
    rcases List.mem_cons.1 hc with rfl | hc
    · rw [after]
      exact left.save_again rfl rfl rfl rfl rfl isLoaded
    · rw [List.mem_singleton.1 hc]
      exact left.save_again rfl same rfl rfl rfl rfl

/-- The cache behind the arrival of one bar is saved a minute later, and loaded by another. -/
theorem metalSession_load_saved :
    ∃ s' loaded, Ends (save 1700000160000) metalSession (.ok ()) s' ∧
      Ends load ⟨metalCache, sound s'.device.disk 2⟩ (.ok ()) ⟨loaded, sound s'.device.disk 2⟩ ∧
      loaded.rows.map (·.openTime) = [1700000040000] ∧ loaded.metadata.rows = 1 := by
  have reachable : Reachable Action.Fits metalSession :=
    .step metalArrival metalArrival_fits (.start metalCache_created _)
  have directory : metalSession.cache.directory = metalCache.directory := by decide +kernel
  have binding : metalSession.cache.binding = metalCache.binding := by decide +kernel
  have ended : ((save 1700000160000).run metalSession).1 = .ok () := by decide +kernel
  have rows : ((save 1700000160000).run metalSession).2.cache.rows.map (·.openTime) =
      [1700000040000] := by
    decide +kernel
  have saved : Ends (save 1700000160000) metalSession (.ok ())
      ((save 1700000160000).run metalSession).2 :=
    Prod.ext ended rfl
  have created : BarCache.create metalSession.cache.directory "xau/usd"
      metalSession.cache.binding.tf 10 0 = .ok metalCache := by
    rw [directory, binding]
    exact metalCache_created
  obtain ⟨loaded, loads, same, -, counted, -⟩ :=
    Reachable.load_saved reachable saved created binding.symm 2
  rw [← same] at rows
  refine ⟨_, loaded, saved, loads, rows, ?_⟩
  rw [counted, ← List.length_map (·.openTime), rows]
  rfl

end MarketBook
