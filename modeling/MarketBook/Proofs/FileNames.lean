/-
Module: MarketBook.Proofs.FileNames
Purpose: Caches in one directory have files of different names, whatever their symbols are.
Main exports:
  Binding.stem_injective, Binding.saveNames_apart, Place.parent_child, BarCache.LiesIn,
  BarCache.savePaths, BarCache.savePaths_apart
-/
import MarketBook.Proofs.CacheFiles
import MarketBook.Proofs.Numerals

namespace MarketBook

open Device Text

/-!
A name is a symbol, a timeframe and an ending, one behind the other, and a symbol may hold nearly
anything, even what looks like the rest of a name.  So names are taken apart from their end: four
endings exclude each other, and behind the last underscore stands a timeframe.
-/

/-- What stands behind the last mark is found again, and so is what stands before it. -/
theorem eq_of_last_mark {α : Type} {mark : α} {front front' back back' : List α}
    (last : mark ∉ back) (last' : mark ∉ back')
    (same : front ++ mark :: back = front' ++ mark :: back') : front = front' ∧ back = back' := by
  rcases List.append_eq_append_iff.1 same with ⟨between, rfl, rest⟩ | ⟨between, rfl, rest⟩
  · cases between with
    | nil => exact ⟨(List.append_nil _).symm, (List.cons.inj rest).2⟩
    | cons c more =>
        refine absurd ?_ last
        rw [(List.cons.inj rest).2]
        simp
  · cases between with
    | nil => exact ⟨List.append_nil _, (List.cons.inj rest).2.symm⟩
    | cons c more =>
        refine absurd ?_ last'
        rw [(List.cons.inj rest).2]
        simp

theorem Timeframe.underscore_notMem_label (tf : Timeframe) : '_' ∉ tf.label.toList := by
  cases tf <;> decide

theorem Timeframe.slash_notMem_label (tf : Timeframe) : '/' ∉ tf.label.toList := by
  cases tf <;> decide

/-- The normal form of a symbol holds no slash. -/
theorem Symbol.slash_notMem {raw symbol : String} (normalized : normalize raw = .ok symbol) :
    '/' ∉ symbol.toList := by
  unfold normalize at normalized
  split at normalized
  · exact absurd normalized (Outcome.misused_ne_ok)
  · split at normalized
    · exact absurd normalized (Outcome.misused_ne_ok)
    · cases normalized
      simp [strip, isSeparator]

namespace Binding

variable {a b : Binding} {process : Nat} {name : String}

theorem stem_toList (b : Binding) :
    b.stem.toList = b.symbol.toList ++ '_' :: b.tf.label.toList := by
  simp [stem]

/-- Symbol and timeframe are found again in the start of a name. -/
theorem stem_injective (same : a.stem = b.stem) : a = b := by
  obtain ⟨symbol, tf⟩ := a
  obtain ⟨symbol', tf'⟩ := b
  have chars := congrArg String.toList same
  rw [stem_toList, stem_toList] at chars
  obtain ⟨symbols, labels⟩ := eq_of_last_mark tf.underscore_notMem_label tf'.underscore_notMem_label
    chars
  cases String.toList_inj.1 symbols
  cases Timeframe.label_injective (String.toList_inj.1 labels)
  rfl

/-! ### Endings -/

/-- The endings of the two files. -/
def endings : List (List Char) :=
  [['.', 'c', 's', 'v'], ['.', 'm', 'e', 't', 'a', '.', 'j', 's', 'o', 'n']]

/-- What a staging file of a process has behind the name of its target. -/
def stagingMark (process : Nat) : List Char :=
  ['.', 't', 'm', 'p', '.'] ++ (toString process).toList

/-- No name has both endings. -/
theorem endings_exclusive {x y front front' : List Char} (hx : x ∈ endings) (hy : y ∈ endings)
    (same : front ++ x = front' ++ y) : front = front' := by
  have lasts := congrArg List.getLast? same
  simp only [endings, List.mem_cons, List.not_mem_nil, or_false] at hx hy
  rcases hx with rfl | rfl <;> rcases hy with rfl | rfl
  · exact List.append_cancel_right same
  · simp at lasts
  · simp at lasts
  · exact List.append_cancel_right same

/-- A staging file is named with a digit at the end, and no file is. -/
theorem ending_ne_stagingMark {x front front' : List Char} (hx : x ∈ endings) :
    front ++ x ≠ front' ++ stagingMark process := by
  intro same
  have digits : (toString process).toList = Nat.toDigits 10 process := by simp
  obtain ⟨c, last⟩ : ∃ c, (Nat.toDigits 10 process).getLast? = some c :=
    Option.isSome_iff_exists.1 (by simp [Nat.toDigits_ne_nil])
  have isDigit := allDigits_toDigits process c (List.mem_of_getLast? last)
  have lasts := congrArg List.getLast? same
  rw [stagingMark, digits, List.getLast?_append, List.getLast?_append, List.getLast?_append, last]
    at lasts
  simp only [endings, List.mem_cons, List.not_mem_nil, or_false] at hx
  rcases hx with rfl | rfl
  · exact ne_of_isDigit isDigit (by decide) (Option.some.inj lasts).symm
  · exact ne_of_isDigit isDigit (by decide) (Option.some.inj lasts).symm

/-! ### Names -/

/-- The names of the two files and of their two staging files. -/
def saveNames (b : Binding) (process : Nat) : List String :=
  [b.tableName, b.metaName, stagingName process b.tableName, stagingName process b.metaName]

theorem mem_saveNames (there : name ∈ b.saveNames process) :
    ∃ ending ∈ endings, name.toList = b.stem.toList ++ ending ∨
      name.toList = (b.stem.toList ++ ending) ++ stagingMark process := by
  simp only [saveNames, List.mem_cons, List.not_mem_nil, or_false] at there
  rcases there with rfl | rfl | rfl | rfl
  · exact ⟨['.', 'c', 's', 'v'], by simp [endings], Or.inl (BarCache.tableName_toList b)⟩
  · exact ⟨['.', 'm', 'e', 't', 'a', '.', 'j', 's', 'o', 'n'], by simp [endings],
      Or.inl (BarCache.metaName_toList b)⟩
  · refine ⟨['.', 'c', 's', 'v'], by simp [endings], Or.inr ?_⟩
    rw [BarCache.stagingName_toList, BarCache.tableName_toList, stagingMark]
  · refine ⟨['.', 'm', 'e', 't', 'a', '.', 'j', 's', 'o', 'n'], by simp [endings], Or.inr ?_⟩
    rw [BarCache.stagingName_toList, BarCache.metaName_toList, stagingMark]

/-- Two bindings have no name in common. -/
theorem saveNames_apart (differ : a ≠ b) (there : name ∈ a.saveNames process) :
    name ∉ b.saveNames process := by
  intro there'
  have stems : a.stem.toList ≠ b.stem.toList :=
    fun same => differ (stem_injective (String.toList_inj.1 same))
  obtain ⟨x, hx, plain | staged⟩ := mem_saveNames there
  · obtain ⟨y, hy, plain' | staged'⟩ := mem_saveNames there'
    · exact stems (endings_exclusive hx hy (plain.symm.trans plain'))
    · exact ending_ne_stagingMark hx (plain.symm.trans staged')
  · obtain ⟨y, hy, plain' | staged'⟩ := mem_saveNames there'
    · exact ending_ne_stagingMark hy (plain'.symm.trans staged)
    · exact stems (endings_exclusive hx hy (List.append_cancel_right (staged.symm.trans staged')))

/-- A name leads nowhere else if the symbol of its binding does not. -/
theorem slash_notMem_saveNames (plain : '/' ∉ b.symbol.toList) (there : name ∈ b.saveNames process) :
    '/' ∉ name.toList := by
  have stem : '/' ∉ b.stem.toList := by
    simp [stem_toList, plain, b.tf.slash_notMem_label]
  have digits : '/' ∉ Nat.toDigits 10 process := by
    intro slash
    cases allDigits_toDigits process '/' slash
  obtain ⟨x, hx, same⟩ := mem_saveNames there
  have ending : '/' ∉ x := by
    simp only [endings, List.mem_cons, List.not_mem_nil, or_false] at hx
    rcases hx with rfl | rfl <;> decide
  rcases same with same | same <;> simp [same, stem, ending, stagingMark, digits]

end Binding

/-! ### The directory above a name -/

namespace Place

theorem cutAtSlashes_ne_nil (cs : List Char) : cutAtSlashes cs ≠ [] := by
  cases cs with
  | nil => nofun
  | cons c rest =>
      simp only [cutAtSlashes]
      split
      · nofun
      · split <;> nofun

theorem cutAtSlashes_plain {cs : List Char} (plain : '/' ∉ cs) : cutAtSlashes cs = [cs] := by
  induction cs with
  | nil => rfl
  | cons c rest ih =>
      simp only [List.mem_cons, not_or] at plain
      simp only [cutAtSlashes, if_neg (Ne.symm plain.1), ih plain.2]

/-- What stands behind a slash is a piece of its own. -/
theorem cutAtSlashes_slash {front back : List Char} (plain : '/' ∉ back) :
    cutAtSlashes (front ++ '/' :: back) = cutAtSlashes front ++ [back] := by
  induction front with
  | nil => simp [cutAtSlashes, cutAtSlashes_plain plain]
  | cons c rest ih =>
      simp only [List.cons_append, cutAtSlashes]
      split
      · rw [ih]
        rfl
      · rw [ih]
        cases cut : cutAtSlashes rest with
        | nil => exact absurd cut (cutAtSlashes_ne_nil rest)
        | cons piece more => rfl

/-- The text of a name inside a directory has that name as its last piece. -/
theorem piecesOf_child (p : Place) : ∃ pieces, ∀ name : String, '/' ∉ name.toList →
    piecesOf (p.child name).shown = pieces ++ [name] := by
  unfold child
  by_cases open' : p.shown = "" ∨ p.shown.toList.getLast? = some '/'
  · simp only [if_pos open']
    rcases open' with empty | closed
    · refine ⟨[], fun name plain => ?_⟩
      simp [piecesOf, empty, cutAtSlashes_plain plain]
    · obtain ⟨front, text⟩ := List.getLast?_eq_some_iff.1 closed
      refine ⟨(cutAtSlashes front).map String.ofList, fun name plain => ?_⟩
      simp [piecesOf, text, cutAtSlashes_slash plain]
  · simp only [if_neg open']
    refine ⟨piecesOf p.shown, fun name plain => ?_⟩
    simp [piecesOf, cutAtSlashes_slash plain]

/-- All names inside a directory have the same place above them. -/
theorem parent_child (p : Place) {a b : String} (plainA : '/' ∉ a.toList) (plainB : '/' ∉ b.toList)
    (stepA : isIdle a = false) (stepB : isIdle b = false) :
    (p.child a).parent = (p.child b).parent := by
  obtain ⟨pieces, last⟩ := p.piecesOf_child
  have text : ∀ name : String, '/' ∉ name.toList → isIdle name = false →
      textAbove (p.child name).shown =
        String.intercalate "/" (pieces.reverse.dropWhile isIdle).reverse := by
    intro name plain step
    simp [textAbove, last name plain, step]
  unfold parent
  rw [text a plainA stepA, text b plainB stepB]
  simp [child]

end Place

/-! ### The files of several caches -/

namespace BarCache

/-- The cache has its files in a directory, under an accepted symbol. -/
structure LiesIn (root : Place) (c : BarCache) : Prop where
  directory : c.directory = root
  accepted : ∃ symbol, Symbol.normalize symbol = .ok c.binding.symbol

/-- The paths of the two files and of their two staging files. -/
def savePaths (c : BarCache) (process : Nat) : List Disk.Path :=
  [c.tablePath, c.metaPath, stagingPath process c.tablePlace, stagingPath process c.metaPlace]

variable {c c' : BarCache} {root : Place} {process : Nat} {path : Disk.Path}

theorem savePaths_eq (c : BarCache) (process : Nat) :
    c.savePaths process = (c.binding.saveNames process).map (c.directory.path ++ [·]) := by
  rw [savePaths, tablePath_eq, metaPath_eq, stagingPath_table, stagingPath_meta]
  rfl

/-- All four paths lead directly into the directory. -/
theorem LiesIn.mem_savePaths (lies : c.LiesIn root) (there : path ∈ c.savePaths process) :
    ∃ name, '/' ∉ name.toList ∧ path = root.path ++ [name] := by
  obtain ⟨symbol, normalized⟩ := lies.accepted
  rw [savePaths_eq, lies.directory] at there
  obtain ⟨name, isName, rfl⟩ := List.mem_map.1 there
  exact ⟨name, Binding.slash_notMem_saveNames (Symbol.slash_notMem normalized) isName, rfl⟩

/-- The paths of two caches in one directory are apart, whatever their symbols hold. -/
theorem savePaths_apart (sameDirectory : c.directory = c'.directory)
    (differ : c.binding ≠ c'.binding) : (c.savePaths process ++ c'.savePaths process).Nodup := by
  refine List.nodup_append.2 ⟨savePaths_nodup c process, savePaths_nodup c' process, ?_⟩
  intro path there path' there' same
  rw [savePaths_eq] at there there'
  obtain ⟨name, isName, rfl⟩ := List.mem_map.1 there
  obtain ⟨name', isName', rfl⟩ := List.mem_map.1 there'
  rw [sameDirectory] at same
  cases List.singleton_inj.1 (List.append_cancel_left same)
  exact Binding.saveNames_apart differ isName isName'

theorem isIdle_of_length {name : String} (long : 1 < name.toList.length) :
    Place.isIdle name = false := by
  unfold Place.isIdle
  rw [Bool.or_eq_false_iff, beq_eq_false_iff_ne, beq_eq_false_iff_ne]
  constructor <;> (rintro rfl; simp at long)

theorem tableName_not_idle (b : Binding) : Place.isIdle b.tableName = false :=
  isIdle_of_length (by rw [tableName_toList]; simp)

theorem metaName_not_idle (b : Binding) : Place.isIdle b.metaName = false :=
  isIdle_of_length (by rw [metaName_toList]; simp)

/-- The saves of all caches in a directory make the same directories. -/
theorem LiesIn.parents (lies : c.LiesIn root) (lies' : c'.LiesIn root) :
    c'.tablePlace.parent = c.tablePlace.parent ∧ c'.metaPlace.parent = c.tablePlace.parent := by
  obtain ⟨symbol, normalized⟩ := lies.accepted
  obtain ⟨symbol', normalized'⟩ := lies'.accepted
  have plain : ∀ name ∈ c.binding.saveNames 0, '/' ∉ name.toList :=
    fun name => Binding.slash_notMem_saveNames (Symbol.slash_notMem normalized)
  have plain' : ∀ name ∈ c'.binding.saveNames 0, '/' ∉ name.toList :=
    fun name => Binding.slash_notMem_saveNames (Symbol.slash_notMem normalized')
  rw [tablePlace, tablePlace, metaPlace, lies.directory, lies'.directory]
  have table := plain c.binding.tableName (by simp [Binding.saveNames])
  exact ⟨root.parent_child (plain' _ (by simp [Binding.saveNames])) table (tableName_not_idle _)
      (tableName_not_idle _),
    root.parent_child (plain' _ (by simp [Binding.saveNames])) table (metaName_not_idle _)
      (tableName_not_idle _)⟩

end BarCache

end MarketBook
