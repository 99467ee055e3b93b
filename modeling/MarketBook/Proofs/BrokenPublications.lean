/-
Module: MarketBook.Proofs.BrokenPublications
Purpose: What readers find after a publication that broke off, and that its staging file is removed.
Main exports:
  Disk.contentAt_congr, Device.publish_contentAt, Disk.NoFile,
  Device.Recovers, Device.publish_clean
-/
import Mathlib.Data.List.Induction
import MarketBook.Proofs.CacheOperations

namespace MarketBook

open Text

/-!
Once the directory of a target is there, where its files are found does not depend on the disk any
more.  So whatever a broken publication leaves behind, readers of all other files find what they
found, unless the making of the directory itself was in their way.  A failure that the program sees
is followed by the removal of the staging file; where that works, no such file is left.
-/

namespace Disk

variable {d d' : Disk} {p q : Place} {name : String}

/-! ### Where files are found -/

/-- Behind directories that are there, a name is found if it is short enough. -/
theorem follow_made {steps : List String} (isName : name ≠ Place.up) :
    ∀ {here : Path}, makeDirsFrom here steps d = (d, .ok ()) →
      d.follow here (steps ++ [name]) =
        if isShort name then .ok (destination here steps ++ [name]) else .error .refused := by
  induction steps with
  | nil =>
      intro here _
      cases short : isShort name <;> simp [follow, destination, isName, short]
  | cons step rest ih =>
      intro here made
      simp only [makeDirsFrom] at made
      simp only [List.cons_append, follow, destination]
      split
      case isTrue goesUp =>
        rw [if_pos goesUp] at made
        exact ih made
      case isFalse notUp =>
        rw [if_neg notUp] at made
        split at made
        · cases made
        case isFalse short =>
          have more : (rest ++ [name]).isEmpty = false := by simp
          rw [if_neg short, more, if_neg Bool.false_ne_true]
          split at made
          case h_1 there =>
            rw [there]
            exact ih made
          case h_2 nothing =>
            have grows := makeDirsFrom_grows rest (here ++ [step])
              (d.set (here ++ [step]) .directory)
            rw [made] at grows
            have there := grows.keepsDirs _ (node?_set_self (by simp))
            rw [nothing] at there
            cases there
          case h_3 => cases made

/-- A file in the directory of a place. -/
structure Sibling (p q : Place) : Prop where
  steps : ∃ name, name ≠ Place.up ∧ q.steps = p.parent.steps ++ [name]
  ending : q.ending = .none

theorem Sibling.follow (sibling : Sibling p q) (made : d.makeDirs p.parent = (d, .ok ())) :
    d.follow [] q.steps =
      if (q.steps.getLast?).all isShort then .ok q.path else .error .refused := by
  obtain ⟨name, isName, steps⟩ := sibling.steps
  have fromRoot : makeDirsFrom [] p.parent.steps d = (d, .ok ()) := by
    unfold makeDirs at made
    split at made
    · cases made
    · rw [if_neg (by simp [Place.parent])] at made
      exact made
  have path : q.path = destination [] p.parent.steps ++ [name] := by
    simp [Place.path, steps, destination_append, destination, isName]
  rw [path, steps, follow_made isName fromRoot]
  simp

/-- Where the directory is there, the file is found alike on every disk. -/
theorem Sibling.locate (sibling : Sibling p q) (made : d.makeDirs p.parent = (d, .ok ()))
    (made' : d'.makeDirs p.parent = (d', .ok ())) : d'.locate q = d.locate q := by
  unfold Disk.locate
  rw [sibling.follow made, sibling.follow made', sibling.ending]

theorem contentAt_congr (located : d'.locate p = d.locate p)
    (node : d'.node? p.path = d.node? p.path) : d'.contentAt p = d.contentAt p := by
  have read : d'.read p = d.read p := by
    unfold Disk.read
    rw [located]
    cases found : d.locate p with
    | error e => rfl
    | ok path =>
        rw [locate_path found]
        simp only [bind, Except.bind, node]
  rw [contentAt, contentAt, read]

/-- Where the directory is there and readers do not fail, a file stands at the place or can be put
there. -/
theorem Sibling.located (sibling : Sibling p q) (made : d.makeDirs p.parent = (d, .ok ()))
    (named : q.name?.isSome = true) (shown : q.shown ≠ "") {found : Option Octets}
    (read : d.contentAt q = .ok found) :
    d.locateFile q = .ok q.path ∧ d.node? q.path ≠ some .directory := by
  have notRefused : d.locate q ≠ .error .refused := by
    intro refused
    simp [contentAt, Disk.read, refused, bind, Except.bind] at read
  have located : d.locate q = .ok q.path := by
    unfold Disk.locate at notRefused ⊢
    rw [if_neg shown, sibling.follow made, sibling.ending] at notRefused ⊢
    split at notRefused
    · exact absurd rfl notRefused
    case isFalse fits =>
      rw [if_neg fits]
      split at notRefused
      case isTrue short =>
        rw [if_pos short]
        rfl
      case isFalse => exact absurd rfl notRefused
  refine ⟨locateFile_eq_ok.2 ⟨named, sibling.ending, located⟩, fun directory => ?_⟩
  simp [contentAt, Disk.read, located, directory, bind, Except.bind] at read

/-! ### Directories that readers do not see -/

/-- Whatever stands on the disk stands in a directory. -/
def IsTree (d : Disk) : Prop :=
  ∀ (here : Path) (name : String), d.node? (here ++ [name]) ≠ none → d.node? here = some .directory

theorem IsTree.nothing_below {here : Path} (tree : d.IsTree) (nothing : d.node? here = none)
    (below : Path) : d.node? (here ++ below) = none := by
  induction below using List.reverseRecOn with
  | nil =>
      rw [List.append_nil]
      exact nothing
  | append_singleton front name ih =>
      cases found : d.node? (here ++ (front ++ [name])) with
      | none => rfl
      | some n =>
          rw [← List.append_assoc] at found
          have there := tree (here ++ front) name (by rw [found]; nofun)
          rw [ih] at there
          cases there

/-- Below a directory in which nothing stands, all directories can be made, and nothing else. -/
theorem makeDirsFrom_bare (name : String) {steps : List String} :
    ∀ {here : Path} {d : Disk}, (∀ step ∈ steps, step ≠ Place.up ∧ isShort step = true) →
      (∀ below, below ≠ [] → d.node? (here ++ below) = none) →
      (makeDirsFrom here steps d).2 = .ok () ∧
        (makeDirsFrom here steps d).1.node? (destination here steps ++ [name]) = none := by
  induction steps with
  | nil => exact fun _ bare => ⟨rfl, bare [name] (by simp)⟩
  | cons step rest ih =>
      intro here d plain bare
      obtain ⟨⟨isName, short⟩, restPlain⟩ := List.forall_mem_cons.1 plain
      have nothing := bare [step] (by simp)
      simp only [makeDirsFrom, destination, if_neg isName, short, nothing, Bool.not_true,
        Bool.false_eq_true, if_false]
      refine ih restPlain fun below some => ?_
      rw [node?_set_other (by simpa using some), List.append_assoc]
      exact bare _ (by simp)

/-- On a tree, making directories changes nothing, or there was no way before and there is nothing at
its end. -/
theorem IsTree.makeDirsFrom (tree : d.IsTree) (name : String) {steps : List String} :
    ∀ here : Path, (∀ step ∈ steps, step ≠ Place.up ∧ isShort step = true) →
      (Disk.makeDirsFrom here steps d).1 = d ∨
        (Disk.makeDirsFrom here steps d).2 = .ok () ∧
          d.follow here (steps ++ [name]) = .error .absent ∧
          (Disk.makeDirsFrom here steps d).1.node? (destination here steps ++ [name]) = none := by
  induction steps with
  | nil => exact fun _ _ => Or.inl rfl
  | cons step rest ih =>
      intro here plain
      obtain ⟨⟨isName, short⟩, restPlain⟩ := List.forall_mem_cons.1 plain
      have more : (rest ++ [name]).isEmpty = false := by simp
      simp only [Disk.makeDirsFrom, destination, List.cons_append, follow, if_neg isName, short,
        more, Bool.not_true, Bool.false_eq_true, if_false]
      cases found : d.node? (here ++ [step]) with
      | some n =>
          cases n with
          | directory => exact ih _ restPlain
          | file content => exact Or.inl rfl
          | ledger table => exact Or.inl rfl
      | none =>
          have bare : ∀ below, below ≠ [] →
              (d.set (here ++ [step]) .directory).node? (here ++ [step] ++ below) = none := by
            intro below some
            rw [node?_set_other (by simpa using some)]
            exact tree.nothing_below found below
          obtain ⟨made, nothing⟩ := makeDirsFrom_bare name restPlain bare
          exact Or.inr ⟨made, rfl, nothing⟩

/-- On a tree, and where the directory is written without a way back, readers of its files do not
see that it is made. -/
theorem IsTree.contentAt_made (tree : d.IsTree) (sibling : Sibling p q)
    (plain : ∀ step ∈ p.parent.steps, step ≠ Place.up ∧ isShort step = true)
    (short : (q.steps.getLast?).all isShort = true) :
    (d.makeDirs p.parent).1.contentAt q = d.contentAt q := by
  obtain ⟨name, isName, steps⟩ := sibling.steps
  cases fits : p.parent.fits with
  | false => simp [makeDirs, fits]
  | true =>
      have made : d.makeDirs p.parent = Disk.makeDirsFrom [] p.parent.steps d := by
        unfold makeDirs
        rw [if_neg (by simp [fits]), if_neg (by simp [Place.parent])]
      rw [made]
      rcases tree.makeDirsFrom name [] plain with same | ⟨worked, absent, nothing⟩
      · rw [same]
      · have there : (Disk.makeDirsFrom [] p.parent.steps d).1.makeDirs p.parent =
            ((Disk.makeDirsFrom [] p.parent.steps d).1, .ok ()) :=
          makeDirs_again (.refl _) rfl (made.trans (Prod.ext rfl worked))
        have path : q.path = destination [] p.parent.steps ++ [name] := by
          simp [Place.path, steps, destination_append, destination, isName]
        rw [← steps] at absent
        rw [← path] at nothing
        have before := sibling.follow there
        rw [short, if_pos rfl] at before
        by_cases shown : q.shown = ""
        · simp [contentAt, Disk.read, Disk.locate, shown, bind, Except.bind]
        · cases fits : q.fits with
          | false => simp [contentAt, Disk.read, Disk.locate, shown, fits, bind, Except.bind]
          | true =>
              simp [contentAt, Disk.read, Disk.locate, shown, fits, absent, before, nothing,
                sibling.ending, bind, Except.bind]

/-- No file stands at the path, though a directory may. -/
def NoFile (d : Disk) (p : Path) : Prop :=
  d.node? p = none ∨ d.node? p = some .directory

theorem NoFile.of_same_or_made {p : Path} (clear : d.NoFile p)
    (kept : d'.node? p = d.node? p ∨ (d.node? p = none ∧ d'.node? p = some .directory)) :
    d'.NoFile p := by
  rcases kept with same | ⟨-, made⟩
  · unfold NoFile
    rw [same]
    exact clear
  · exact Or.inr made

theorem NoFile.grows {p : Path} (clear : d.NoFile p) (grows : Grows d d') : d'.NoFile p :=
  clear.of_same_or_made (grows p)

end Disk

namespace Device

variable {v v' : Device} {r : Except Halt Unit} {target : Place} {draft : Draft}

/-- However a publication ends, readers of another file in the directory find there what they found,
unless the directory comes between; and so do those of the target if the publication broke off. -/
theorem publish_contentAt {p : Place} (h : Ends (publish target draft) v r v')
    (sibling : Disk.Sibling target p) (apart : p.path ≠ stagingPath v.process target)
    (aside : (v.disk.makeDirs target.parent).1.contentAt p = v.disk.contentAt p)
    (other : r = .ok () → p.path ≠ target.path) :
    v'.disk.contentAt p = v.disk.contentAt p := by
  rcases publish_phases h with ⟨-, -, same | made⟩ | ⟨v₁, -, process, -, made, -, replaced⟩
  · rw [same]
  · rw [made, aside]
  · have there := Disk.makeDirs_again (.refl _) rfl made
    rw [made] at aside
    rw [← aside]
    rcases replace_cases replaced with
      ⟨worked, -, -, keeps, -, -, -, others⟩ | ⟨-, touched⟩
    · exact Disk.contentAt_congr
        (sibling.locate there (Disk.makeDirs_again keeps rfl made))
        (others _ apart (other worked))
    · exact Disk.contentAt_congr
        (sibling.locate there (Disk.makeDirs_again touched.keepsDirs rfl made))
        (touched.others _ apart)

/-! ### The staging file -/

/-- The operation behind the first failure works, as the removal of a staging file has to.  The number
counts the operations of the publication under way: the first of the five makes directories, and
nothing is removed behind it. -/
def RecoversAt : Nat → List Fate → Prop
  | _, [] => True
  | operation, .works :: rest => RecoversAt ((operation + 1) % 5) rest
  | operation, .fails _ :: rest => operation = 0 ∨ rest.headD .works = .works
  | _, .stops _ :: _ => True

/-- Where a publication breaks off with a staging file in place, the removal of that file works. -/
def Recovers (fates : List Fate) : Prop :=
  RecoversAt 0 fates

variable {staging : Disk.Path} {content : Octets} {cause : Fault} {kept operation : Nat}

theorem RecoversAt.later (recovers : RecoversAt operation v.fates) (works : v.nextOf = .works) :
    RecoversAt ((operation + 1) % 5) v.later.fates := by
  obtain ⟨disk, process, fates⟩ := v
  cases fates with
  | nil => trivial
  | cons fate rest =>
      cases works
      exact recovers

theorem RecoversAt.behind (recovers : RecoversAt (operation + 1) v.fates)
    (fails : v.nextOf = .fails kept) : v.later.nextOf = .works := by
  obtain ⟨disk, process, fates⟩ := v
  cases fates with
  | nil => cases fails
  | cons fate rest =>
      cases fails
      exact recovers.resolve_left (Nat.succ_ne_zero operation)

/-- Where the removal of the staging file works, or none stands there, none stands there behind it. -/
theorem removeFile_clears {q : Except Halt Unit} (h : Ends (removeFile staging) v q v')
    (clear : v.nextOf = .works ∨ v.disk.NoFile staging) : v'.disk.NoFile staging := by
  rcases ends_whole.1 h with ⟨kept, fails, -, rfl⟩ | ⟨kept, stops, -, rfl⟩ | ⟨-, done⟩
  · rcases clear with works | clear
    · rw [works] at fails
      cases fails
    · exact clear
  · rcases clear with works | clear
    · rw [works] at stops
      cases stops
    · exact clear
  · cases removed : v.disk.remove staging with
    | ok d =>
        rw [removed] at done
        rcases done with ⟨a, d', same, -, rfl⟩ | ⟨e, impossible, -⟩
        · cases same
          obtain ⟨rfl, noDirectory⟩ := Disk.remove_eq_ok removed
          exact Or.inl (Disk.node?_erase_self (Disk.ne_root_of_noDirectory noDirectory))
        · cases impossible
    | error e =>
        rw [removed] at done
        rcases done with ⟨a, d', impossible, -⟩ | ⟨e', -, -, rfl⟩
        · cases impossible
        · unfold Disk.remove at removed
          split at removed
          case h_1 nothing => exact Or.inl nothing
          case h_2 directory => exact Or.inr directory
          case h_3 => cases removed

/-- Behind a fault the removal of the staging file was tried. -/
theorem orDiscard_fault {act : Act Unit}
    (h : Ends (orDiscard staging act) v (.error (.fault cause)) v') :
    ∃ found w q, Ends act v (.error (.fault found)) w ∧ Ends (removeFile staging) w q v' := by
  unfold orDiscard at h
  rcases Ends.tryCatch_iff.1 h with ⟨a, -, impossible⟩ | ⟨e, w, ended, handled⟩
  · cases impossible
  · cases e with
    | stopped => cases (Ends.throw_iff.1 handled).1
    | fault found =>
        refine ⟨found, w, ?_⟩
        rcases Ends.bind_iff.1 handled with ⟨⟨⟩, u, removal, failed⟩ | ⟨e, removal, same⟩
        · obtain ⟨-, rfl⟩ := ends_fail.1 failed
          rcases Ends.tryCatch_iff.1 removal with ⟨_, removed, -⟩ | ⟨e, t, removed, handled⟩
          · exact ⟨_, ended, removed⟩
          · cases e with
            | stopped => cases (Ends.throw_iff.1 handled).1
            | fault _ =>
                obtain ⟨-, rfl⟩ := Ends.pure_iff.1 handled
                exact ⟨_, ended, removed⟩
        · cases same
          rcases Ends.tryCatch_iff.1 removal with ⟨_, -, impossible⟩ | ⟨e, t, -, handled⟩
          · cases impossible
          · cases e with
            | stopped => cases (Ends.throw_iff.1 handled).1
            | fault _ => cases (Ends.pure_iff.1 handled).1

/-- Staging breaks off where the device fails, or because a directory stands at its path. -/
theorem stage_recovers (h : Ends (stage staging ⟨content, none⟩) v r v')
    (recovers : RecoversAt 1 v.fates) :
    (r = .ok () → RecoversAt 4 v'.fates) ∧
      ∀ cause, r = .error (.fault cause) → v'.nextOf = .works ∨ v'.disk.NoFile staging := by
  rcases Ends.bind_iff.1 h with ⟨⟨⟩, v₁, created, h⟩ | ⟨e, created, rfl⟩
  · have recovers₁ : RecoversAt 2 v₁.fates := by
      rcases ends_whole.1 created with ⟨-, -, impossible, -⟩ | ⟨-, -, impossible, -⟩ | ⟨works, made⟩
      · cases impossible
      · cases impossible
      · rcases made with ⟨a, d, -, -, rfl⟩ | ⟨e, -, impossible, -⟩
        · exact recovers.later works
        · cases impossible
    rcases Ends.bind_iff.1 h with ⟨⟨⟩, v₂, written, h⟩ | ⟨e, written, rfl⟩
    · have recovers₂ : RecoversAt 3 v₂.fates := by
        rcases ends_writeFile.1 written with ⟨works, -, rfl⟩ | ⟨kept, -, ⟨-, impossible⟩ | ⟨-, impossible⟩⟩
        · exact recovers₁.later works
        · cases impossible
        · cases impossible
      rcases ends_whole.1 h with ⟨kept, fails, rfl, rfl⟩ | ⟨kept, -, rfl, rfl⟩ | ⟨works, done⟩
      · exact ⟨nofun, fun _ _ => Or.inl (recovers₂.behind fails)⟩
      · exact ⟨nofun, nofun⟩
      · rcases done with ⟨a, d, -, rfl, rfl⟩ | ⟨e, impossible, -⟩
        · exact ⟨fun _ => recovers₂.later works, nofun⟩
        · cases impossible
    · rcases ends_writeFile.1 written with
        ⟨-, impossible, -⟩ | ⟨kept, rfl, ⟨fails, -⟩ | ⟨-, stopped⟩⟩
      · cases impossible
      · exact ⟨nofun, fun _ _ => Or.inl (recovers₁.behind fails)⟩
      · cases stopped
        exact ⟨nofun, nofun⟩
  · rcases ends_whole.1 created with ⟨kept, fails, -, rfl⟩ | ⟨kept, -, stopped, -⟩ | ⟨-, made⟩
    · exact ⟨nofun, fun _ _ => Or.inl (recovers.behind fails)⟩
    · cases stopped
      exact ⟨nofun, nofun⟩
    · refine ⟨nofun, fun _ _ => Or.inr (Or.inr ?_)⟩
      rcases made with ⟨a, d, -, impossible, -⟩ | ⟨refusal, made, -, rfl⟩
      · cases impossible
      · unfold Disk.create at made
        split at made
        case h_1 directory => exact directory
        case h_2 => cases made

/-- The rename of a staging file to a target that can be reached breaks off only where the device
fails, and it leaves nothing at the path of the staging file if it works. -/
theorem renameFile_recovers (h : Ends (renameFile staging target) v r v')
    (recovers : RecoversAt 4 v.fates) (located : v.disk.locateFile target = .ok target.path)
    (free : v.disk.node? target.path ≠ some .directory)
    (there : v.disk.node? staging = some (.file content)) (apart : staging ≠ target.path) :
    (r = .ok () → Recovers v'.fates ∧ v'.disk.NoFile staging) ∧
      ∀ cause, r = .error (.fault cause) → v'.nextOf = .works := by
  have isFile : v.disk.node? staging ≠ some .directory := by simp [there]
  have notRoot := Disk.ne_root_of_noDirectory isFile
  rcases ends_whole.1 h with ⟨kept, fails, rfl, rfl⟩ | ⟨kept, -, rfl, rfl⟩ | ⟨works, done⟩
  · exact ⟨nofun, fun _ _ => recovers.behind fails⟩
  · exact ⟨nofun, nofun⟩
  · simp only [located, Disk.rename_of there free, bind, Except.bind, pure, Except.pure] at done
    rcases done with ⟨a, d, moved, rfl, rfl⟩ | ⟨e, impossible, -⟩
    · cases moved
      refine ⟨fun _ => ⟨recovers.later works, Or.inl ?_⟩, nofun⟩
      change ((v.disk.erase staging).set target.path (.file content)).node? staging = none
      rw [Disk.node?_set_other apart, Disk.node?_erase_self notRoot]
    · cases impossible

/-- Where removals work and the target can be reached, no staging file is left behind: not by a
publication that works, and not by one that ends with a fault. -/
theorem publish_clean (h : Ends (publishContent target content) v r v')
    (recovers : Recovers v.fates) (clear : v.disk.NoFile (stagingPath v.process target))
    (reach : ∀ d, v.disk.makeDirs target.parent = (d, .ok ()) →
      d.locateFile target = .ok target.path ∧ d.node? target.path ≠ some .directory)
    (apart : stagingPath v.process target ≠ target.path) :
    (r = .ok () → Recovers v'.fates ∧ v'.disk.NoFile (stagingPath v.process target)) ∧
      ∀ cause, r = .error (.fault cause) → v'.disk.NoFile (stagingPath v.process target) := by
  rcases publish_phases h with
    ⟨⟨e, rfl⟩, -, same | made⟩ | ⟨v₁, works, process, fates, made, -, replaced⟩
  · rw [same]
    exact ⟨nofun, fun _ _ => clear⟩
  · rw [made]
    exact ⟨nofun, fun _ _ => clear.grows (Disk.makeDirs_grows _ _)⟩
  · have recovers₁ : RecoversAt 1 v₁.fates := by
      rw [fates]
      exact RecoversAt.later recovers works
    obtain ⟨located, free⟩ := reach _ made
    rcases Ends.bind_iff.1 replaced with ⟨⟨⟩, v₂, staged, renamed⟩ | ⟨e, failed, rfl⟩
    · have staged := orDiscard_ok.1 staged
      obtain ⟨touched, whole⟩ := stage_touches staged
      have recovers₂ := (stage_recovers staged recovers₁).1 rfl
      have located₂ := Disk.locateFile_keepsDirs touched.keepsDirs located
      have free₂ : v₂.disk.node? target.path ≠ some .directory := by
        rw [touched.others _ apart.symm]
        exact free
      constructor
      · rintro rfl
        exact (renameFile_recovers (orDiscard_ok.1 renamed) recovers₂ located₂ free₂ (whole rfl).2
          apart).1 rfl
      · rintro cause rfl
        obtain ⟨found, w, q, ended, removed⟩ := orDiscard_fault renamed
        exact removeFile_clears removed (Or.inl ((renameFile_recovers ended recovers₂ located₂
          free₂ (whole rfl).2 apart).2 found rfl))
    · refine ⟨nofun, fun cause same => ?_⟩
      cases same
      obtain ⟨found, w, q, ended, removed⟩ := orDiscard_fault failed
      exact removeFile_clears removed ((stage_recovers ended recovers₁).2 found rfl)

end Device

end MarketBook
