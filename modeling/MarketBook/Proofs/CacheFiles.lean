/-
Module: MarketBook.Proofs.CacheFiles
Purpose: The paths of the files of a cache, and what a save can leave at them.
Main exports:
  BarCache.tablePath, BarCache.metaPath, BarCache.paths_apart, BarCache.save_table
-/
import Mathlib.Data.List.Nodup
import MarketBook.Proofs.CacheOperations

namespace MarketBook

/-!
Both files and both staging files of a cache stand in one directory under names that start with the
same stem and go on differently.  So a save of one file never touches the other.
-/

namespace BarCache

open Device Text

/-- The path of the file of rows. -/
def tablePath (c : BarCache) : Disk.Path :=
  c.tablePlace.path

/-- The path of the file of metadata. -/
def metaPath (c : BarCache) : Disk.Path :=
  c.metaPlace.path

variable {c : BarCache}

theorem tableName_toList (b : Binding) :
    b.tableName.toList = b.stem.toList ++ ['.', 'c', 's', 'v'] := by
  simp [Binding.tableName]

theorem metaName_toList (b : Binding) :
    b.metaName.toList = b.stem.toList ++ ['.', 'm', 'e', 't', 'a', '.', 'j', 's', 'o', 'n'] := by
  simp [Binding.metaName]

theorem stagingName_toList (process : Nat) (name : String) :
    (stagingName process name).toList =
      name.toList ++ (['.', 't', 'm', 'p', '.'] ++ (toString process).toList) := by
  simp [stagingName]

/-- A name of more than two characters is no step upwards. -/
theorem ne_up_of_length {name : String} (long : 2 < name.toList.length) : name ≠ Place.up := by
  rintro rfl
  simp [Place.up] at long

theorem tableName_ne_up (b : Binding) : b.tableName ≠ Place.up :=
  ne_up_of_length (by rw [tableName_toList]; simp)

theorem metaName_ne_up (b : Binding) : b.metaName ≠ Place.up :=
  ne_up_of_length (by rw [metaName_toList]; simp)

theorem stagingName_ne_up (process : Nat) (name : String) : stagingName process name ≠ Place.up :=
  ne_up_of_length (by rw [stagingName_toList]; simp; omega)

theorem tablePath_eq (c : BarCache) : c.tablePath = c.directory.path ++ [c.binding.tableName] :=
  Place.path_child _ (tableName_ne_up _)

theorem metaPath_eq (c : BarCache) : c.metaPath = c.directory.path ++ [c.binding.metaName] :=
  Place.path_child _ (metaName_ne_up _)

theorem stagingPath_child {directory : Place} {name : String} (isName : name ≠ Place.up)
    (process : Nat) :
    stagingPath process (directory.child name) = directory.path ++ [stagingName process name] := by
  unfold stagingPath stagingPlace
  rw [Place.path_beside_child _ isName (stagingName_ne_up _ _), Place.name?_child _ isName]
  rfl

/-- The path of the staging file for the rows. -/
theorem stagingPath_table (c : BarCache) (process : Nat) :
    stagingPath process c.tablePlace =
      c.directory.path ++ [stagingName process c.binding.tableName] :=
  stagingPath_child (tableName_ne_up _) process

/-- The path of the staging file for the metadata. -/
theorem stagingPath_meta (c : BarCache) (process : Nat) :
    stagingPath process c.metaPlace =
      c.directory.path ++ [stagingName process c.binding.metaName] :=
  stagingPath_child (metaName_ne_up _) process

theorem ne_of_toList_ne {a b : String} (h : a.toList ≠ b.toList) : a ≠ b :=
  fun same => h (congrArg String.toList same)

/-- The two files and their two staging files have four names. -/
theorem saveNames_nodup (b : Binding) (process : Nat) :
    [b.tableName, b.metaName, stagingName process b.tableName,
      stagingName process b.metaName].Nodup := by
  simp only [List.nodup_cons, List.mem_cons, List.not_mem_nil, or_false, not_or, List.nodup_nil,
    and_true, not_false_eq_true]
  refine ⟨⟨?_, ?_, ?_⟩, ⟨?_, ?_⟩, ?_⟩ <;> apply ne_of_toList_ne <;>
    simp [tableName_toList, metaName_toList, stagingName_toList]

/-- The two files and their two staging files have four paths. -/
theorem savePaths_nodup (c : BarCache) (process : Nat) :
    [c.tablePath, c.metaPath, stagingPath process c.tablePlace,
      stagingPath process c.metaPlace].Nodup := by
  rw [tablePath_eq, metaPath_eq, stagingPath_table, stagingPath_meta]
  have distinct : Function.Injective fun name : String => c.directory.path ++ [name] :=
    fun a b same => List.singleton_inj.1 (List.append_cancel_left same)
  exact (saveNames_nodup c.binding process).map distinct

/-- What a publication at either place needs to know of the paths of the other. -/
structure PathsApart (c : BarCache) (process : Nat) : Prop where
  files : c.tablePath ≠ c.metaPath
  tableStaging : c.tablePath ≠ stagingPath process c.tablePlace
  tableMetaStaging : c.tablePath ≠ stagingPath process c.metaPlace
  metaTableStaging : c.metaPath ≠ stagingPath process c.tablePlace
  stagings : stagingPath process c.tablePlace ≠ stagingPath process c.metaPlace

theorem paths_apart (c : BarCache) (process : Nat) : c.PathsApart process := by
  have distinct := savePaths_nodup c process
  simp only [List.nodup_cons, List.mem_cons, List.not_mem_nil, or_false, not_or] at distinct
  obtain ⟨⟨files, tableStaging, tableMeta⟩, ⟨metaTable, -⟩, stagings, -⟩ := distinct
  exact ⟨files, tableStaging, tableMeta, metaTable, stagings⟩

/-! ### What a save leaves -/

variable {s s' : Session}

/-- However a save ends, a file at the path of the rows is the one that stood there before, or it is
the table of the rows in memory. -/
theorem save_table {now : Int} {r : Except Halt Unit} (h : Ends (save now) s r s')
    {content : Octets} (there : s'.device.disk.node? s.cache.tablePath = some (.file content)) :
    s.device.disk.node? s.cache.tablePath = some (.file content) ∨
      content = Table.write s.cache.rows := by
  have apart := paths_apart s.cache s.device.process
  rcases save_cases h with ⟨-, -, rfl⟩ | ⟨-, -, ⟨e, -, failed⟩ | ⟨v, published, metaEnded⟩⟩
  · exact Or.inl there
  · rcases publishContent_file failed apart.tableStaging there with before | ⟨-, same⟩
    · exact Or.inl before
    · exact Or.inr same
  · have apartMeta := apart.tableMetaStaging
    rw [← publish_process published] at apartMeta
    rcases publishContent_file metaEnded apartMeta there with before | ⟨impossible, -⟩
    · rcases publishContent_file published apart.tableStaging before with before | ⟨-, same⟩
      · exact Or.inl before
      · exact Or.inr same
    · exact absurd impossible apart.files

end BarCache

end MarketBook
