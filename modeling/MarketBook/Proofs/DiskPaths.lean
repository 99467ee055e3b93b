/-
Module: MarketBook.Proofs.DiskPaths
Purpose: Where a place leads without a disk, and what the operations of a disk leave alone.
Main exports:
  Place.path, Disk.locate_path, Disk.Grows, Disk.makeDirs_grows, Disk.KeepsDirs,
  Disk.follow_keepsDirs, Disk.makeDirs_settled, Disk.makeDirs_again
-/
import Mathlib.Logic.Basic
import MarketBook.Disk.Publish

namespace MarketBook

/-!
A disk decides whether a place can be reached, and not where it leads: that is clear from the steps
alone.  So the files of a cache have fixed paths, whatever happens to the disk.  Making directories
only adds some, and once they are there everything that could be reached stays within reach.
-/

namespace Disk

/-- The path to which steps lead if every directory on the way is there. -/
def destination : Path → List String → Path
  | here, [] => here
  | here, step :: rest =>
    if step = Place.up then destination here.dropLast rest else destination (here ++ [step]) rest

theorem destination_append (here : Path) (front back : List String) :
    destination here (front ++ back) = destination (destination here front) back := by
  induction front generalizing here with
  | nil => rfl
  | cons step rest ih =>
      simp only [List.cons_append, destination]
      split
      · exact ih _
      · exact ih _

end Disk

namespace Place

/-- The path to which a place leads. -/
def path (p : Place) : Disk.Path :=
  Disk.destination [] p.steps

theorem path_child (p : Place) {name : String} (isName : name ≠ up) :
    (p.child name).path = p.path ++ [name] := by
  simp [path, child, Disk.destination_append, Disk.destination, isName]

theorem name?_child (p : Place) {name : String} (isName : name ≠ up) :
    (p.child name).name? = some name := by
  simp [name?, child, isName]

theorem path_parent_child (p : Place) (name : String) : (p.child name).parent.path = p.path := by
  simp [path, parent, child]

/-- What stands beside a child is another child. -/
theorem path_beside_child (p : Place) {name other : String} (isName : name ≠ up)
    (otherIsName : other ≠ up) : ((p.child name).beside other).path = p.path ++ [other] := by
  simp only [beside, name?_child p isName, Option.isSome_some, if_true]
  rw [path_child _ otherIsName, path_parent_child]

end Place

namespace Disk

variable {d d' d'' : Disk} {p q here : Path} {place : Place} {n : Node}

/-! ### Finding -/

theorem follow_destination {steps : List String} (found : d.follow here steps = .ok p) :
    p = destination here steps := by
  induction steps generalizing here with
  | nil =>
      cases found
      rfl
  | cons step rest ih =>
      simp only [follow] at found
      simp only [destination]
      split
      case isTrue goesUp =>
        rw [if_pos goesUp] at found
        exact ih found
      case isFalse isName =>
        rw [if_neg isName] at found
        split at found
        · cases found
        · split at found
          case isTrue last =>
            cases found
            rw [List.isEmpty_iff.1 last]
            rfl
          case isFalse =>
            split at found
            · cases found
            · exact ih found
            · cases found

theorem locate_path (found : d.locate place = .ok p) : p = place.path := by
  unfold locate at found
  split at found
  · cases found
  · split at found
    · cases found
    · cases followed : d.follow [] place.steps with
      | error e =>
          rw [followed] at found
          cases found
      | ok path =>
          rw [followed] at found
          simp only [bind, Except.bind] at found
          have same : path = p := by
            split at found <;> simp_all
          rw [← same]
          exact follow_destination followed

theorem locateFile_path (found : d.locateFile place = .ok p) :
    p = place.path ∧ place.name?.isSome = true := by
  unfold locateFile at found
  split at found
  case isTrue named =>
    rw [Bool.and_eq_true] at named
    exact ⟨locate_path found, named.1⟩
  case isFalse => cases found

/-! ### What stands elsewhere -/

theorem node?_erase_self (h : p ≠ []) : (d.erase p).node? p = none := by
  simp [node?, erase, h]

theorem node?_erase_other (h : q ≠ p) : (d.erase p).node? q = d.node? q := by
  simp only [node?, erase]
  split
  · rfl
  · rw [List.find?_filter]
    congr 2
    funext e
    by_cases he : e.1 = q
    · simp [he, h]
    · simp [he]

theorem create_eq_ok (made : d.create p = .ok d') :
    d' = d.set p (.file []) ∧ d.node? p ≠ some .directory := by
  unfold create at made
  split at made
  case h_1 => cases made
  case h_2 noDirectory =>
    cases made
    exact ⟨rfl, noDirectory⟩

theorem rename_eq_ok (moved : d.rename p q = .ok d') :
    ∃ n, d.node? p = some n ∧ d.node? q ≠ some .directory ∧ d' = (d.erase p).set q n := by
  unfold rename at moved
  split at moved
  case h_1 => cases moved
  case h_2 n found noDirectory =>
    cases moved
    exact ⟨n, found, noDirectory, rfl⟩
  case h_3 => cases moved

theorem rename_of {n : Node} (there : d.node? p = some n) (free : d.node? q ≠ some .directory) :
    d.rename p q = .ok ((d.erase p).set q n) := by
  unfold rename
  split
  case h_1 directory => exact absurd directory free
  case h_2 n' found _ =>
    rw [there] at found
    cases found
    rfl
  case h_3 nothing =>
    rw [there] at nothing
    cases nothing

theorem remove_eq_ok (removed : d.remove p = .ok d') :
    d' = d.erase p ∧ d.node? p ≠ some .directory := by
  unfold remove at removed
  split at removed
  case h_1 => cases removed
  case h_2 => cases removed
  case h_3 noDirectory found =>
    cases removed
    exact ⟨rfl, fun there => by simp_all⟩

/-! ### Making directories -/

/-- Every path keeps what stands there, except that a directory may stand where nothing stood. -/
def Grows (d d' : Disk) : Prop :=
  ∀ q, d'.node? q = d.node? q ∨ (d.node? q = none ∧ d'.node? q = some .directory)

theorem Grows.refl (d : Disk) : Grows d d :=
  fun _ => Or.inl rfl

theorem Grows.trans (first : Grows d d') (second : Grows d' d'') : Grows d d'' := by
  intro q
  rcases second q with same | ⟨nothing, made⟩
  · rw [same]
    exact first q
  · rcases first q with same | ⟨-, there⟩
    · exact Or.inr ⟨same ▸ nothing, made⟩
    · rw [there] at nothing
      cases nothing

theorem set_directory_grows (nothing : d.node? p = none) : Grows d (d.set p .directory) := by
  intro q
  by_cases same : q = p
  · subst same
    refine Or.inr ⟨nothing, node?_set_self fun root => ?_⟩
    rw [root] at nothing
    simp [node?] at nothing
  · exact Or.inl (node?_set_other same)

theorem makeDirsFrom_grows (steps : List String) :
    ∀ (here : Path) (d : Disk), Grows d (makeDirsFrom here steps d).1 := by
  induction steps with
  | nil =>
      intro here d
      exact Grows.refl d
  | cons step rest ih =>
      intro here d
      simp only [makeDirsFrom]
      split
      · exact ih _ d
      · split
        · exact Grows.refl d
        · split
          · exact ih _ d
          case h_2 nothing => exact (set_directory_grows nothing).trans (ih _ _)
          · exact Grows.refl d

theorem makeDirs_grows (p : Place) (d : Disk) : Grows d (d.makeDirs p).1 := by
  unfold makeDirs
  split
  · exact Grows.refl d
  · split
    · exact makeDirsFrom_grows _ _ _
    · exact makeDirsFrom_grows _ _ _

/-! ### What stays within reach -/

/-- Every directory stays one. -/
def KeepsDirs (d d' : Disk) : Prop :=
  ∀ q, d.node? q = some .directory → d'.node? q = some .directory

theorem KeepsDirs.refl (d : Disk) : KeepsDirs d d :=
  fun _ there => there

theorem KeepsDirs.trans (first : KeepsDirs d d') (second : KeepsDirs d' d'') : KeepsDirs d d'' :=
  fun q there => second q (first q there)

theorem Grows.keepsDirs (grows : Grows d d') : KeepsDirs d d' := by
  intro q there
  rcases grows q with same | ⟨nothing, -⟩
  · rw [same]
    exact there
  · rw [nothing] at there
    cases there

/-- Something else in place of what is no directory leaves the directories alone. -/
theorem set_keepsDirs (noDirectory : d.node? p ≠ some .directory) : KeepsDirs d (d.set p n) := by
  intro q there
  have apart : q ≠ p := by
    rintro rfl
    exact noDirectory there
  rw [node?_set_other apart]
  exact there

theorem erase_keepsDirs (noDirectory : d.node? p ≠ some .directory) : KeepsDirs d (d.erase p) := by
  intro q there
  have apart : q ≠ p := by
    rintro rfl
    exact noDirectory there
  rw [node?_erase_other apart]
  exact there

theorem ne_root_of_noDirectory (noDirectory : d.node? p ≠ some .directory) : p ≠ [] := by
  rintro rfl
  exact noDirectory rfl

/-- Where no directory stands, none does after a removal. -/
theorem erase_free (free : d.node? q ≠ some .directory) : (d.erase p).node? q ≠ some .directory := by
  by_cases same : q = p
  · rw [← same, node?_erase_self (ne_root_of_noDirectory free)]
    nofun
  · rw [node?_erase_other same]
    exact free

/-- A file that is moved over another path leaves the directories and all other paths alone. -/
theorem move_spec {content : Text.Octets} (there : d.node? p = some (.file content))
    (noDirectory : d.node? q ≠ some .directory) :
    KeepsDirs d ((d.erase p).set q (.file content)) ∧
      ((d.erase p).set q (.file content)).node? p ≠ some .directory ∧
      ((d.erase p).set q (.file content)).node? q = some (.file content) ∧
      ∀ r, r ≠ p → r ≠ q → ((d.erase p).set q (.file content)).node? r = d.node? r := by
  have isFile : d.node? p ≠ some .directory := by
    rw [there]
    nofun
  have sourceGone : (d.erase p).node? p = none := node?_erase_self (ne_root_of_noDirectory isFile)
  have stillFree : (d.erase p).node? q ≠ some .directory := erase_free noDirectory
  have atTarget : ((d.erase p).set q (.file content)).node? q = some (.file content) :=
    node?_set_self (ne_root_of_noDirectory noDirectory)
  refine ⟨(erase_keepsDirs isFile).trans (set_keepsDirs stillFree), ?_, atTarget, ?_⟩
  · by_cases same : p = q
    · subst same
      rw [atTarget]
      nofun
    · rw [node?_set_other same, sourceGone]
      nofun
  · intro r notSource notTarget
    rw [node?_set_other notTarget, node?_erase_other notSource]

theorem follow_keepsDirs (keeps : KeepsDirs d d') {steps : List String}
    (found : d.follow here steps = .ok p) : d'.follow here steps = .ok p := by
  induction steps generalizing here with
  | nil => exact found
  | cons step rest ih =>
      simp only [follow] at found ⊢
      split
      case isTrue goesUp =>
        rw [if_pos goesUp] at found
        exact ih found
      case isFalse isName =>
        rw [if_neg isName] at found
        split at found
        · cases found
        case isFalse short =>
          rw [if_neg short]
          split at found
          case isTrue last =>
            rw [if_pos last]
            exact found
          case isFalse more =>
            rw [if_neg more]
            split at found
            · cases found
            case h_2 there =>
              rw [keeps _ there]
              exact ih found
            · cases found

/-- A text without an ending is found as far as its steps lead. -/
theorem locate_eq_ok (plain : place.ending = .none) :
    d.locate place = .ok p ↔
      place.shown ≠ "" ∧ place.fits = true ∧ d.follow [] place.steps = .ok p := by
  unfold locate
  by_cases empty : place.shown = ""
  · simp [empty]
  · by_cases fits : place.fits = true
    · cases followed : d.follow [] place.steps with
      | error e => simp [empty, fits, bind, Except.bind]
      | ok path => simp [empty, fits, plain, bind, Except.bind]
    · simp [empty, fits]

theorem locateFile_eq_ok :
    d.locateFile place = .ok p ↔
      place.name?.isSome = true ∧ place.ending = .none ∧ d.locate place = .ok p := by
  unfold locateFile
  by_cases named : place.name?.isSome = true
  · by_cases plain : place.ending = .none
    · simp [named, plain]
    · simp [plain]
  · simp [named]

theorem locate_keepsDirs (keeps : KeepsDirs d d') (plain : place.ending = .none)
    (found : d.locate place = .ok p) : d'.locate place = .ok p := by
  obtain ⟨shown, fits, followed⟩ := (locate_eq_ok plain).1 found
  exact (locate_eq_ok plain).2 ⟨shown, fits, follow_keepsDirs keeps followed⟩

/-- A place for a file that was within reach stays within reach. -/
theorem locateFile_keepsDirs (keeps : KeepsDirs d d') (found : d.locateFile place = .ok p) :
    d'.locateFile place = .ok p := by
  obtain ⟨named, plain, located⟩ := locateFile_eq_ok.1 found
  exact locateFile_eq_ok.2 ⟨named, plain, locate_keepsDirs keeps plain located⟩

/-- Directories that were made need not be made again. -/
theorem makeDirsFrom_again (keeps : KeepsDirs d' d'') (steps : List String) :
    ∀ (here : Path) (d : Disk), makeDirsFrom here steps d = (d', .ok ()) →
      makeDirsFrom here steps d'' = (d'', .ok ()) := by
  induction steps with
  | nil =>
      intro here d _
      rfl
  | cons step rest ih =>
      intro here d made
      simp only [makeDirsFrom] at made ⊢
      split
      case isTrue goesUp =>
        rw [if_pos goesUp] at made
        exact ih _ d made
      case isFalse isName =>
        rw [if_neg isName] at made
        split at made
        · cases made
        case isFalse short =>
          rw [if_neg short]
          have nowThere : ∀ d₁ : Disk, d₁.node? (here ++ [step]) = some .directory →
              makeDirsFrom (here ++ [step]) rest d₁ = (d', .ok ()) →
              d''.node? (here ++ [step]) = some .directory := by
            intro d₁ there made
            have grows := makeDirsFrom_grows rest (here ++ [step]) d₁
            rw [made] at grows
            exact keeps _ (grows.keepsDirs _ there)
          split at made
          case h_1 there =>
            rw [nowThere d there made]
            exact ih _ d made
          case h_2 =>
            have set : (d.set (here ++ [step]) .directory).node? (here ++ [step]) = some .directory :=
              node?_set_self (by simp)
            rw [nowThere _ set made]
            exact ih _ _ made
          case h_3 => cases made

/-- Whether the making of directories works or not, a second time it ends alike and makes none. -/
theorem makeDirsFrom_settled (steps : List String) :
    ∀ (here : Path) (d : Disk), makeDirsFrom here steps (makeDirsFrom here steps d).1 =
      makeDirsFrom here steps d := by
  induction steps with
  | nil =>
      intro here d
      rfl
  | cons step rest ih =>
      intro here d
      have nowThere : ∀ d₁ : Disk, d₁.node? (here ++ [step]) = some .directory →
          (makeDirsFrom (here ++ [step]) rest d₁).1.node? (here ++ [step]) = some .directory :=
        fun d₁ there => (makeDirsFrom_grows rest _ d₁).keepsDirs _ there
      by_cases goesUp : step = Place.up
      · simp only [makeDirsFrom, if_pos goesUp]
        exact ih _ d
      · by_cases short : isShort step = true
        · simp only [makeDirsFrom, if_neg goesUp, short, Bool.not_true, Bool.false_eq_true, if_false]
          cases found : d.node? (here ++ [step]) with
          | none =>
              have set : (d.set (here ++ [step]) .directory).node? (here ++ [step]) =
                  some .directory := node?_set_self (by simp)
              simp only [nowThere _ set]
              exact ih _ _
          | some n =>
              cases n with
              | directory =>
                  simp only [nowThere _ found]
                  exact ih _ d
              | file content => simp only [found]
              | ledger table => simp only [found]
        · simp only [makeDirsFrom, if_neg goesUp, Bool.eq_false_iff.2 short, Bool.not_false, if_true]

theorem makeDirs_settled (plain : place.ending = .none) (d : Disk) :
    (d.makeDirs place).1.makeDirs place = d.makeDirs place := by
  have noDot : place.ending ≠ .dot := by simp [plain]
  unfold makeDirs
  cases fits : place.fits with
  | false => rfl
  | true =>
      simp only [Bool.not_true, Bool.false_eq_true, if_false, if_neg noDot]
      exact makeDirsFrom_settled _ _ d

theorem makeDirs_again (keeps : KeepsDirs d' d'') (plain : place.ending = .none)
    (made : d.makeDirs place = (d', .ok ())) : d''.makeDirs place = (d'', .ok ()) := by
  unfold makeDirs at made ⊢
  split at made
  · cases made
  case isFalse fits =>
    rw [if_neg fits]
    rw [if_neg (by simp [plain])] at made ⊢
    exact makeDirsFrom_again keeps _ _ _ made

end Disk

end MarketBook
