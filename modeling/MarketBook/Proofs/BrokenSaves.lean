/-
Module: MarketBook.Proofs.BrokenSaves
Purpose: Wherever a save breaks off, each file is the old one or the new one in full, and another
  instance can load them.
Main exports:
  BarCache.DirectoryUnseen, BarCache.Leaves, BarCache.leaves_of_save, BarCache.save_clean,
  BarCache.held_of_load, Reachable.loads_behind_save, Reachable.save_behind_load,
  Reachable.save_consistent
-/
import MarketBook.Proofs.BrokenPublications
import MarketBook.Proofs.WorkingCaches

namespace MarketBook

open BarCache Device Text

/-!
A save is two publications, the rows before the metadata.  Whichever of them breaks off, what stands
on the disk is the state before the save, that between the two, or that after both.  Readers accept
each of these, because neither file is checked against the other.
-/

variable {c : BarCache} {s s' : Session} {d d' : Disk} {now : Int} {r : Except Halt Unit}
  {process : Nat}

/-! ### The files in their directory -/

theorem Place.child_sibling (directory : Place) (name : String) {other : String}
    (isName : other ≠ Place.up) :
    Disk.Sibling (directory.child name) (directory.child other) where
  steps := ⟨other, isName, by simp [Place.parent, Place.child]⟩
  ending := rfl

theorem Place.shown_child (directory : Place) {name : String} (notEmpty : name ≠ "") :
    (directory.child name).shown ≠ "" := by
  unfold Place.child
  dsimp only
  split
  · exact fun empty => notEmpty (String.append_eq_empty_iff.1 empty).2
  · exact fun empty => notEmpty (String.append_eq_empty_iff.1 empty).2

/-- Behind the making of its directory, a file that readers do not fail on stands there or can be put
there. -/
theorem Place.child_located {directory : Place} {name : String} {found : Option Octets}
    (isName : name ≠ Place.up) (notEmpty : name ≠ "")
    (made : d.makeDirs (directory.child name).parent = (d', .ok ()))
    (read : d'.contentAt (directory.child name) = .ok found) :
    d'.locateFile (directory.child name) = .ok (directory.child name).path ∧
      d'.node? (directory.child name).path ≠ some .directory :=
  (child_sibling directory name isName).located (Disk.makeDirs_again (.refl _) rfl made)
    (Option.isSome_of_eq_some (name?_child _ isName)) (shown_child _ notEmpty) read

namespace BarCache

theorem tableName_ne_empty (b : Binding) : b.tableName ≠ "" :=
  ne_of_toList_ne (by rw [tableName_toList]; simp)

theorem metaName_ne_empty (b : Binding) : b.metaName ≠ "" :=
  ne_of_toList_ne (by rw [metaName_toList]; simp)

theorem metaPath_ne_staging (c : BarCache) (process : Nat) :
    c.metaPath ≠ stagingPath process c.metaPlace := by
  have distinct := (savePaths_nodup c process).of_cons
  simp only [List.nodup_cons, List.mem_cons, List.not_mem_nil, or_false, not_or] at distinct
  exact distinct.1.2

/-- To the readers of both files the disk is a map from places to contents: the making of their
directory changes nothing that they find. -/
def DirectoryUnseen (c : BarCache) (d : Disk) : Prop :=
  ∀ p ∈ [c.tablePlace, c.metaPlace],
    (d.makeDirs c.tablePlace.parent).1.contentAt p = d.contentAt p

/-- A directory that is there need not be made. -/
theorem directoryUnseen_of_there (there : d.makeDirs c.tablePlace.parent = (d, .ok ())) :
    c.DirectoryUnseen d := by
  intro p _
  rw [there]

/-- Nor is it seen on a tree, where the directory is written without a way back and no name is too
long. -/
theorem directoryUnseen_of_tree (tree : d.IsTree)
    (plain : ∀ step ∈ c.directory.steps, step ≠ Place.up ∧ Disk.isShort step = true)
    (tableShort : Disk.isShort c.binding.tableName = true)
    (metaShort : Disk.isShort c.binding.metaName = true) : c.DirectoryUnseen d := by
  have above : c.tablePlace.parent.steps = c.directory.steps := by
    simp [tablePlace, Place.parent, Place.child]
  rw [← above] at plain
  intro p hp
  simp only [List.mem_cons, List.not_mem_nil, or_false] at hp
  rcases hp with rfl | rfl
  · exact tree.contentAt_made (Place.child_sibling _ _ (tableName_ne_up _)) plain
      (by simpa [tablePlace, Place.child] using tableShort)
  · exact tree.contentAt_made (Place.child_sibling _ _ (metaName_ne_up _)) plain
      (by simpa [metaPlace, Place.child] using metaShort)

theorem contentAt_of_metaOn {m : CacheMeta} (held : c.metaOn d = .ok m) :
    ∃ found, d.contentAt c.metaPlace = .ok found := by
  cases read : d.contentAt c.metaPlace with
  | ok found => exact ⟨found, rfl⟩
  | error cause =>
      simp only [metaOn, Disk.textAt, read] at held
      cases held

theorem contentAt_of_rowsOn {rows : List Bar} (held : c.rowsOn d = .ok rows) :
    ∃ found, d.contentAt c.tablePlace = .ok found := by
  cases read : d.contentAt c.tablePlace with
  | ok found => exact ⟨found, rfl⟩
  | error cause =>
      simp only [rowsOn, read] at held
      cases held

theorem metaOn_congr (same : d'.contentAt c.metaPlace = d.contentAt c.metaPlace) :
    c.metaOn d' = c.metaOn d := by
  rw [metaOn, metaOn, Disk.textAt, Disk.textAt, same]

theorem rowsOn_congr (same : d'.contentAt c.tablePlace = d.contentAt c.tablePlace) :
    c.rowsOn d' = c.rowsOn d := by
  rw [rowsOn, rowsOn, same]

/-! ### What a save leaves -/

/-- What a save may leave of the files on a disk: both as they were, the new rows beside the old
metadata, or both new. -/
inductive Leaves (c : BarCache) (now : Int) (d d' : Disk) : Prop where
  | neither (table : d'.contentAt c.tablePlace = d.contentAt c.tablePlace)
      (metadata : d'.contentAt c.metaPlace = d.contentAt c.metaPlace)
  | table (table : d'.contentAt c.tablePlace = .ok (some (Table.write c.rows)))
      (metadata : d'.contentAt c.metaPlace = d.contentAt c.metaPlace)
  | both (table : d'.contentAt c.tablePlace = .ok (some (Table.write c.rows)))
      (metadata : d'.contentAt c.metaPlace = .ok (some (encode (c.metaToSave now).write)))

/-- Between the publications: the rows are new, and the metadata are old. -/
structure Between (c : BarCache) (v w : Device) : Prop where
  process : w.process = v.process
  table : w.disk.contentAt c.tablePlace = .ok (some (Table.write c.rows))
  metadata : w.disk.contentAt c.metaPlace = v.disk.contentAt c.metaPlace
  dirs : (w.disk.makeDirs c.metaPlace.parent).1 = w.disk

theorem between_of_published {v w : Device} (unseen : c.DirectoryUnseen v.disk)
    (ended : Ends (publishContent c.tablePlace (Table.write c.rows)) v (.ok ()) w) :
    c.Between v w := by
  have published := publishContent_published ended
  have apart := paths_apart c v.process
  refine ⟨published.process, Disk.contentAt_file published.located published.content, ?_, ?_⟩
  · exact publish_contentAt ended (Place.child_sibling _ _ (metaName_ne_up _))
      apart.metaTableStaging (unseen _ (by simp)) fun _ => apart.files.symm
  · have there := published.ready.dirs
    unfold Disk.makeDirs at there ⊢
    split
    · rfl
    · split at there
      · cases there
      · rw [if_neg (by simp [Place.parent])] at there ⊢
        rw [c.parent_steps, there]

/-- Readers find in the files what one of the three states holds, wherever a save breaks off. -/
theorem leaves_of_save (unseen : s.cache.DirectoryUnseen s.device.disk)
    (ended : Ends (save now) s r s') : s.cache.Leaves now s.device.disk s'.device.disk := by
  have apart := paths_apart s.cache s.device.process
  rcases save_cases ended with ⟨-, -, rfl⟩ | ⟨-, -, ⟨e, -, failed⟩ | ⟨v, published, metaEnded⟩⟩
  · exact .neither rfl rfl
  · refine .neither ?_ ?_
    · exact publish_contentAt failed (Place.child_sibling _ _ (tableName_ne_up _))
        apart.tableStaging (unseen _ (by simp)) nofun
    · exact publish_contentAt failed (Place.child_sibling _ _ (metaName_ne_up _))
        apart.metaTableStaging (unseen _ (by simp)) nofun
  · have between := between_of_published unseen published
    have table : s'.device.disk.contentAt s.cache.tablePlace =
        .ok (some (Table.write s.cache.rows)) := by
      rw [← between.table]
      refine publish_contentAt metaEnded (Place.child_sibling _ _ (tableName_ne_up _)) ?_ ?_
        fun _ => apart.files
      · rw [between.process]
        exact apart.tableMetaStaging
      · rw [between.dirs]
    cases r with
    | ok _ =>
        have done := publishContent_published metaEnded
        exact .both table (Disk.contentAt_file done.located done.content)
    | error e =>
        refine .table table ?_
        rw [← between.metadata]
        refine publish_contentAt metaEnded (Place.child_sibling _ _ (metaName_ne_up _)) ?_ ?_ nofun
        · rw [between.process]
          exact metaPath_ne_staging s.cache s.device.process
        · rw [between.dirs]

/-! ### Staging files -/

/-- Neither staging file of a cache stands on the disk. -/
def NoStaging (c : BarCache) (process : Nat) (d : Disk) : Prop :=
  d.NoFile (stagingPath process c.tablePlace) ∧ d.NoFile (stagingPath process c.metaPlace)

/-- A save that ends with a fault leaves no staging file, if none was there and removals work. -/
theorem save_clean {cause : Fault} (unseen : s.cache.DirectoryUnseen s.device.disk)
    (metaRead : ∃ found, s.device.disk.contentAt s.cache.metaPlace = .ok found)
    (tableRead : ∃ found, s.device.disk.contentAt s.cache.tablePlace = .ok found)
    (ended : Ends (save now) s (.error (.fault cause)) s') (recovers : Recovers s.device.fates)
    (clear : s.cache.NoStaging s.device.process s.device.disk) :
    s.cache.NoStaging s.device.process s'.device.disk := by
  obtain ⟨tableClear, metaClear⟩ := clear
  have apart := paths_apart s.cache s.device.process
  have reachTable : ∀ d, s.device.disk.makeDirs s.cache.tablePlace.parent = (d, .ok ()) →
      d.locateFile s.cache.tablePlace = .ok s.cache.tablePlace.path ∧
        d.node? s.cache.tablePlace.path ≠ some .directory := by
    intro d made
    obtain ⟨found, read⟩ := tableRead
    have same := unseen s.cache.tablePlace (by simp)
    rw [made, read] at same
    exact Place.child_located (tableName_ne_up _) (tableName_ne_empty _) made same
  rcases save_cases ended with ⟨-, -, rfl⟩ | ⟨-, -, ⟨e, same, failed⟩ | ⟨v, published, metaEnded⟩⟩
  · exact ⟨tableClear, metaClear⟩
  · cases same
    refine ⟨(publish_clean failed recovers tableClear reachTable apart.tableStaging.symm).2 cause rfl, ?_⟩
    rcases publish_cases failed with ⟨impossible, -⟩ | ⟨-, -, others⟩
    · cases impossible
    · exact metaClear.of_same_or_made (others _ apart.stagings.symm)
  · have between := between_of_published unseen published
    obtain ⟨recovers', tableClear'⟩ :=
      (publish_clean published recovers tableClear reachTable
        apart.tableStaging.symm).1 rfl
    have metaClear' : v.disk.NoFile (stagingPath s.device.process s.cache.metaPlace) :=
      metaClear.of_same_or_made
        ((publishContent_published published).others apart.stagings.symm apart.tableMetaStaging.symm)
    have reachMeta : ∀ d, v.disk.makeDirs s.cache.metaPlace.parent = (d, .ok ()) →
        d.locateFile s.cache.metaPlace = .ok s.cache.metaPlace.path ∧
          d.node? s.cache.metaPlace.path ≠ some .directory := by
      intro d made
      obtain ⟨found, read⟩ := metaRead
      have same : d = v.disk := by
        rw [← between.dirs, made]
      rw [← between.metadata, ← same] at read
      exact Place.child_located (metaName_ne_up _) (metaName_ne_empty _) made read
    rw [← between.process] at metaClear' tableClear' ⊢
    have apart' := paths_apart s.cache v.process
    refine ⟨?_, (publish_clean metaEnded recovers' metaClear' reachMeta
      (metaPath_ne_staging s.cache v.process).symm).2 cause rfl⟩
    rcases publish_cases metaEnded with ⟨impossible, -⟩ | ⟨-, -, others⟩
    · cases impossible
    · exact tableClear'.of_same_or_made (others _ apart'.stagings)

end BarCache

/-! ### The next instance -/

/-- What a cache has loaded is what its files hold. -/
theorem BarCache.held_of_load (ended : Ends load s (.ok ()) s') :
    (∃ m, s'.cache.metaOn s'.device.disk = .ok m) ∧
      s'.cache.rowsOn s'.device.disk = .ok s'.cache.rows := by
  obtain ⟨sameDisk, ⟨-, m, rows, metaHeld, rowsHeld, same⟩ | ⟨⟨e, impossible⟩, -⟩⟩ :=
    load_cases ended
  · rw [sameDisk.disk, same]
    exact ⟨⟨m, metaHeld⟩, rowsHeld⟩
  · cases impossible

/-- Whatever a save leaves, a new instance for the files loads the old rows or the new ones, if the
files held what can be loaded. -/
theorem Reachable.loads_behind_save (reachable : Reachable Action.Fits s) {m : CacheMeta}
    {rows : List Bar} (metaHeld : s.cache.metaOn s.device.disk = .ok m)
    (rowsHeld : s.cache.rowsOn s.device.disk = .ok rows) {d : Disk}
    (leaves : s.cache.Leaves now s.device.disk d) {symbol : String} {maxBars warmupBars : Nat}
    {fresh : BarCache}
    (created : BarCache.create s.cache.directory symbol s.cache.binding.tf maxBars warmupBars =
      .ok fresh)
    (same : fresh.binding = s.cache.binding) (process : Nat) :
    ∃ loaded, Ends load ⟨fresh, sound d process⟩ (.ok ()) ⟨loaded, sound d process⟩ ∧
      (loaded.rows = rows ∨ loaded.rows = s.cache.rows) := by
  rw [create_reopened created same]
  have loads : ∀ {m : CacheMeta} {rows : List Bar}, s.cache.metaOn d = .ok m →
      s.cache.rowsOn d = .ok rows → ∃ loaded,
        Ends load ⟨s.cache.reopened maxBars warmupBars, sound d process⟩ (.ok ())
          ⟨loaded, sound d process⟩ ∧ loaded.rows = rows :=
    fun metaHeld rowsHeld => ⟨_, load_works (c := s.cache.reopened _ _) metaHeld rowsHeld, rfl⟩
  cases leaves with
  | neither table metadata =>
      obtain ⟨loaded, ended, found⟩ := loads ((metaOn_congr metadata).trans metaHeld)
        ((rowsOn_congr table).trans rowsHeld)
      exact ⟨loaded, ended, Or.inl found⟩
  | table table metadata =>
      obtain ⟨loaded, ended, found⟩ := loads ((metaOn_congr metadata).trans metaHeld)
        (reachable.rowsOn_written table)
      exact ⟨loaded, ended, Or.inr found⟩
  | both table metadata =>
      obtain ⟨loaded, ended, found⟩ := loads (reachable.metaOn_written metadata)
        (reachable.rowsOn_written table)
      exact ⟨loaded, ended, Or.inr found⟩

/-- Right behind a load no save can lose a row: however it ends, a new instance for the files loads
the same rows again. -/
theorem Reachable.save_behind_load (reachable : Reachable Action.Fits s) {s₁ : Session}
    (loads : Ends load s (.ok ()) s₁) (unseen : s₁.cache.DirectoryUnseen s₁.device.disk)
    (ended : Ends (save now) s₁ r s') {symbol : String} {maxBars warmupBars : Nat} {fresh : BarCache}
    (created : BarCache.create s₁.cache.directory symbol s₁.cache.binding.tf maxBars warmupBars =
      .ok fresh)
    (same : fresh.binding = s₁.cache.binding) (process : Nat) :
    ∃ loaded, Ends load ⟨fresh, sound s'.device.disk process⟩ (.ok ())
        ⟨loaded, sound s'.device.disk process⟩ ∧ loaded.rows = s₁.cache.rows := by
  have reachable₁ : Reachable Action.Fits s₁ :=
    Action.after_eq (a := .load) loads ▸ .step .load ⟨nofun, nofun⟩ reachable
  obtain ⟨⟨m, metaHeld⟩, rowsHeld⟩ := held_of_load loads
  obtain ⟨loaded, again, found⟩ := reachable₁.loads_behind_save metaHeld rowsHeld
    (leaves_of_save unseen ended) created same process
  exact ⟨loaded, again, found.elim id id⟩

/-- A save of a reachable cache may break off anywhere, if its files hold what can be loaded, as they
do after a load and after a save, and the making of their directory is not seen.  Then each file is
the old one or the new one in full, and the metadata are new only beside new rows; both are new if
the save worked; a new instance for the files loads the old rows or the new ones; and if the save
ended with a fault, none of its staging files is left where none was before and removals work. -/
theorem Reachable.save_consistent (reachable : Reachable Action.Fits s) {m : CacheMeta}
    {rows : List Bar} (metaHeld : s.cache.metaOn s.device.disk = .ok m)
    (rowsHeld : s.cache.rowsOn s.device.disk = .ok rows)
    (unseen : s.cache.DirectoryUnseen s.device.disk) (ended : Ends (save now) s r s') :
    s.cache.Leaves now s.device.disk s'.device.disk ∧
      (r = .ok () →
        s.cache.SavedOn s.cache.rows (s.cache.metaToSave now) s.device.process s'.device.disk) ∧
      (∀ {symbol : String} {maxBars warmupBars : Nat} {fresh : BarCache},
        BarCache.create s.cache.directory symbol s.cache.binding.tf maxBars warmupBars = .ok fresh →
        fresh.binding = s.cache.binding → ∀ process, ∃ loaded,
          Ends load ⟨fresh, sound s'.device.disk process⟩ (.ok ())
            ⟨loaded, sound s'.device.disk process⟩ ∧
          (loaded.rows = rows ∨ loaded.rows = s.cache.rows)) ∧
      ∀ cause, r = .error (.fault cause) → Recovers s.device.fates →
        s.cache.NoStaging s.device.process s.device.disk →
        s.cache.NoStaging s.device.process s'.device.disk := by
  have leaves := leaves_of_save unseen ended
  refine ⟨leaves, ?_, ?_, ?_⟩
  · rintro rfl
    exact (save_leaves ended).2.2
  · intro symbol maxBars warmupBars fresh created same process
    exact reachable.loads_behind_save metaHeld rowsHeld leaves created same process
  · rintro cause rfl recovers clear
    exact save_clean unseen (contentAt_of_metaOn metaHeld) (contentAt_of_rowsOn rowsHeld) ended
      recovers clear

/-- The cache behind the arrival of one bar with another bar in memory, on a device that fails in
the middle of the metadata. -/
def metalBroken : Session :=
  (Action.tamper { metalSession.device with
    fates := [.works, .works, .works, .works, .works, .works, .works, .fails 3] }).after
    ((Action.mergeAndTrim none).after
      ((Action.append [metalBar 1700000100000 3]).after metalSession))

theorem metalBroken_save_consistent :
    ∃ s' loaded, Ends (save 1700000160000) metalBroken (.error (.fault .io)) s' ∧
      metalBroken.cache.Leaves 1700000160000 metalBroken.device.disk s'.device.disk ∧
      Ends load ⟨metalCache, sound s'.device.disk 2⟩ (.ok ()) ⟨loaded, sound s'.device.disk 2⟩ ∧
      metalBroken.cache.NoStaging metalBroken.device.process s'.device.disk := by
  have reachable : Reachable Action.Fits metalBroken := by
    refine .step _ ⟨nofun, nofun⟩ (.step _ ⟨nofun, nofun⟩ (.step _ ⟨?_, nofun⟩
      (.step metalArrival metalArrival_fits (.start metalCache_created _))))
    simp [Action.incoming, metalBar_fits, isSigned64, limit63]
  obtain ⟨bars, accepted⟩ : ∃ bars,
      acceptAll metalCache.binding metalArrival.incoming = .ok bars :=
    Outcome.exists_of_isSome (by decide +kernel)
  obtain ⟨report, s₁, arrived, serves, -⟩ := metalCache_serves.appended accepted metalArrival_fits
  have same : metalSession = s₁ :=
    Action.after_eq ((Ends.bind_of arrived).2 (Ends.pure_iff.2 ⟨rfl, rfl⟩))
  rw [← same] at serves
  have setup : SameSetup metalSession.cache metalBroken.cache :=
    ((Action.changes _ _).setup.trans (Action.changes _ _).setup).trans (Action.changes _ _).setup
  have disk : metalBroken.device.disk = metalSession.device.disk := rfl
  obtain ⟨m, metaHeld⟩ := serves.metadata
  have rowsHeld := serves.rows
  rw [← setup.metaOn, ← disk] at metaHeld
  rw [← setup.rowsOn, ← disk] at rowsHeld
  have there : metalBroken.device.disk.makeDirs metalBroken.cache.tablePlace.parent =
      (metalBroken.device.disk, .ok ()) := by
    have fits : metalBroken.cache.tablePlace.parent.fits = true := by decide +kernel
    have steps : metalBroken.cache.tablePlace.parent.steps = ["data"] := by decide +kernel
    have made : metalBroken.device.disk.node? ["data"] = some .directory := by decide +kernel
    have plain : "data" ≠ Place.up ∧ Disk.isShort "data" = true := by decide +kernel
    unfold Disk.makeDirs
    rw [if_neg (by simp [fits]), if_neg (by simp [Place.parent]), steps]
    simp [Disk.makeDirsFrom, plain, made]
  have unseen := directoryUnseen_of_there there
  have failed : ((save 1700000160000).run metalBroken).1 = .error (.fault .io) := by decide +kernel
  have ended : Ends (save 1700000160000) metalBroken (.error (.fault .io))
      ((save 1700000160000).run metalBroken).2 :=
    Prod.ext failed rfl
  obtain ⟨leaves, -, loads, cleans⟩ :=
    Reachable.save_consistent reachable metaHeld rowsHeld unseen ended
  have directory : metalBroken.cache.directory = metalCache.directory := by decide +kernel
  have binding : metalBroken.cache.binding = metalCache.binding := by decide +kernel
  have created : BarCache.create metalBroken.cache.directory "xau/usd"
      metalBroken.cache.binding.tf 10 0 = .ok metalCache := by
    rw [directory, binding]
    exact metalCache_created
  obtain ⟨loaded, loads, -⟩ := loads created binding.symm 2
  exact ⟨_, loaded, ended, leaves, loads,
    cleans _ rfl (Or.inr rfl) ⟨Or.inl (by decide +kernel), Or.inl (by decide +kernel)⟩⟩

end MarketBook
