/-
Module: MarketBook.Proofs.MergedSettings
Purpose: Which settings come of a settings file and an environment, and how far a key of the file
  matters that a variable takes the place of.
Main exports:
  Settings.Given, Settings.Merges, Settings.IsUsable, Settings.AlikeBeside,
  Settings.overrideAll_eq_ok, Settings.ofEnvironment_exact
-/
import MarketBook.Proofs.SaveThenLoad
import MarketBook.Proofs.SoundProfiles
import MarketBook.Settings.Basic

namespace MarketBook

open Device Outcome Text

/-!
A variable counts if it is set to anything but white space, and then without the white space around
it.  What the environment makes of settings depends on nothing of them that such a variable takes the
place of.  The settings of a file are checked before that, however, and again afterwards: so a file
has to be usable by itself, also in the keys that the environment takes the place of.
-/

namespace Settings

/-! ### Variables -/

/-- The variable is set, and this is its value without the white space around it. -/
def IsSet (env : Environment) (name value : String) : Prop :=
  ∃ raw, env name = some raw ∧ allBlank raw = false ∧ value = trim raw

/-- The variable is not set, or only to white space. -/
def IsUnset (env : Environment) (name : String) : Prop :=
  ∀ raw, env name = some raw → allBlank raw = true

variable {env : Environment} {name value old new : String} {s t m m' : Settings}

theorem trimmed_eq_some : trimmed env name = some value ↔ IsSet env name value := by
  unfold trimmed IsSet
  cases env name with
  | none => simp
  | some raw =>
      simp only [Option.map_some, Option.filter_eq_some_iff, Option.some.injEq, exists_eq_left',
        decide_eq_true_eq]
      rw [← Bool.not_eq_true, ← trim_eq_empty]
      constructor
      · rintro ⟨rfl, notEmpty⟩
        exact ⟨notEmpty, rfl⟩
      · rintro ⟨notEmpty, rfl⟩
        exact ⟨rfl, notEmpty⟩

theorem trimmed_eq_none : trimmed env name = none ↔ IsUnset env name := by
  unfold trimmed IsUnset
  cases env name with
  | none => simp
  | some raw => simp [trim_eq_empty]

/-- A text of the settings becomes the value of its variable, and stays without one. -/
def Takes (env : Environment) (name old new : String) : Prop :=
  IsSet env name new ∨ IsUnset env name ∧ new = old

theorem takes_iff : Takes env name old new ↔ new = (trimmed env name).getD old := by
  unfold Takes
  rw [← trimmed_eq_some, ← trimmed_eq_none]
  cases trimmed env name with
  | none => simp
  | some value => simp [eq_comm]

theorem getD_trimmed {other : String} (alike : IsUnset env name → old = other) :
    (trimmed env name).getD old = (trimmed env name).getD other := by
  cases found : trimmed env name with
  | none => exact alike (trimmed_eq_none.1 found)
  | some value => rfl

/-- The greatest number of bars becomes the number that its variable has, and stays without one. -/
def TakesCount (env : Environment) (old new : Nat) : Prop :=
  (∃ value, IsSet env maxBarsVariable value ∧ IsCount value new) ∨
    IsUnset env maxBarsVariable ∧ new = old

theorem maxBarsOf_eq_none : maxBarsOf env = .ok none ↔ IsUnset env maxBarsVariable := by
  rw [← trimmed_eq_none, maxBarsOf]
  cases trimmed env maxBarsVariable with
  | none => simp
  | some raw =>
      dsimp only
      cases unsigned? 10 limit64 raw.toList <;> simp

theorem maxBarsOf_eq_some {n : Nat} :
    maxBarsOf env = .ok (some n) ↔ ∃ value, IsSet env maxBarsVariable value ∧ IsCount value n := by
  simp only [← trimmed_eq_some, ← unsigned?_eq_some, maxBarsOf]
  cases trimmed env maxBarsVariable with
  | none => simp
  | some raw =>
      simp only [Option.some.injEq, exists_eq_left']
      cases unsigned? 10 limit64 raw.toList <;> simp

theorem takesCount_iff {old new : Nat} :
    TakesCount env old new ↔ ∃ maxBars, maxBarsOf env = .ok maxBars ∧ new = maxBars.getD old := by
  unfold TakesCount
  rw [← maxBarsOf_eq_some, ← maxBarsOf_eq_none]
  constructor
  · rintro (found | ⟨found, rfl⟩)
    · exact ⟨_, found, rfl⟩
    · exact ⟨_, found, rfl⟩
  · rintro ⟨_ | n, found, rfl⟩
    · exact .inr ⟨found, rfl⟩
    · exact .inl found

/-! ### What the environment makes of settings -/

/-- The settings with every variable that counts in place of what they had. -/
structure Merges (env : Environment) (s m : Settings) : Prop where
  cacheRoot : Takes env rootVariable s.cacheRoot m.cacheRoot
  archivePath : Takes env archiveVariable s.archivePath m.archivePath
  calendarTag : Takes env tagVariable s.calendarTag m.calendarTag
  cacheMaxBars : TakesCount env s.cacheMaxBars m.cacheMaxBars
  cacheWarmupBars : m.cacheWarmupBars = s.cacheWarmupBars
  profilesPath : m.profilesPath = s.profilesPath

/-- The settings can be used: a cache may hold a bar, and the calendar has a tag. -/
structure IsUsable (s : Settings) : Prop where
  cacheMaxBars : 0 < s.cacheMaxBars
  calendarTag : allBlank s.calendarTag = false

theorem require_eq_ok : s.require = .ok () ↔ s.IsUsable := by
  unfold require
  rw [guard_eq_ok misused_ne_ok, guard_eq_ok misused_ne_ok, Bool.not_eq_true]
  exact ⟨fun ⟨bars, tag, _⟩ => ⟨Nat.pos_of_ne_zero bars, tag⟩,
    fun usable => ⟨Nat.ne_of_gt usable.cacheMaxBars, usable.calendarTag, rfl⟩⟩

/-- The settings with the variables in place of what they had, where the number of one is known. -/
def merged (env : Environment) (s : Settings) (maxBars : Option Nat) : Settings :=
  { s.override (trimmed env) with cacheMaxBars := maxBars.getD s.cacheMaxBars }

theorem merges_iff :
    Merges env s m ↔ ∃ maxBars, maxBarsOf env = .ok maxBars ∧ m = merged env s maxBars := by
  constructor
  · rintro ⟨root, archive, tag, bars, warmup, profiles⟩
    obtain ⟨maxBars, found, count⟩ := takesCount_iff.1 bars
    refine ⟨maxBars, found, ?_⟩
    obtain ⟨⟩ := m
    simp only [takes_iff] at root archive tag count warmup profiles
    subst root archive tag count warmup profiles
    rfl
  · rintro ⟨maxBars, found, rfl⟩
    exact {
      cacheRoot := takes_iff.2 rfl
      archivePath := takes_iff.2 rfl
      calendarTag := takes_iff.2 rfl
      cacheMaxBars := takesCount_iff.2 ⟨maxBars, found, rfl⟩
      cacheWarmupBars := rfl
      profilesPath := rfl }

/-- Merged settings are given exactly if they can be used. -/
theorem overrideAll_eq_ok : s.overrideAll env = .ok m ↔ Merges env s m ∧ m.IsUsable := by
  rw [overrideAll, bind_eq_ok, merges_iff, ← require_eq_ok]
  simp only [check_eq_ok, pure_eq_ok]
  constructor
  · rintro ⟨maxBars, found, usable, rfl⟩
    exact ⟨⟨maxBars, found, rfl⟩, usable⟩
  · rintro ⟨⟨maxBars, found, rfl⟩, usable⟩
    exact ⟨maxBars, found, usable, rfl⟩

theorem Merges.unique (first : Merges env s m) (second : Merges env s m') : m' = m := by
  obtain ⟨maxBars, found, rfl⟩ := merges_iff.1 first
  obtain ⟨maxBars', found', rfl⟩ := merges_iff.1 second
  rw [found] at found'
  cases found'
  rfl

/-- The environment can be put in place of settings exactly if the number that it has, if any, is
one. -/
theorem exists_merges :
    (∃ m, Merges env s m) ↔ ∀ value, IsSet env maxBarsVariable value → ∃ n, IsCount value n := by
  have some? : (∃ m, Merges env s m) ↔ ∃ maxBars, maxBarsOf env = .ok maxBars := by
    simp only [merges_iff]
    exact ⟨fun ⟨_, maxBars, found, _⟩ => ⟨maxBars, found⟩,
      fun ⟨maxBars, found⟩ => ⟨_, maxBars, found, rfl⟩⟩
  simp only [some?, ← trimmed_eq_some, ← unsigned?_eq_some, maxBarsOf]
  cases trimmed env maxBarsVariable with
  | none => simp
  | some raw =>
      simp only [Option.some.injEq, forall_eq']
      cases unsigned? 10 limit64 raw.toList <;> simp

/-- Both settings agree wherever no variable counts. -/
structure AlikeBeside (env : Environment) (s t : Settings) : Prop where
  cacheRoot : IsUnset env rootVariable → s.cacheRoot = t.cacheRoot
  archivePath : IsUnset env archiveVariable → s.archivePath = t.archivePath
  calendarTag : IsUnset env tagVariable → s.calendarTag = t.calendarTag
  cacheMaxBars : IsUnset env maxBarsVariable → s.cacheMaxBars = t.cacheMaxBars
  cacheWarmupBars : s.cacheWarmupBars = t.cacheWarmupBars
  profilesPath : s.profilesPath = t.profilesPath

theorem overrideAll_alike (alike : AlikeBeside env s t) : s.overrideAll env = t.overrideAll env := by
  refine bind_congr_ok fun maxBars found => ?_
  have same : merged env s maxBars = merged env t maxBars := by
    have bars : maxBars.getD s.cacheMaxBars = maxBars.getD t.cacheMaxBars := by
      cases maxBars with
      | none => exact alike.cacheMaxBars (maxBarsOf_eq_none.1 found)
      | some n => rfl
    simp only [merged, override, getD_trimmed alike.cacheRoot, getD_trimmed alike.archivePath,
      getD_trimmed alike.calendarTag, bars, alike.cacheWarmupBars, alike.profilesPath]
  change ((merged env s maxBars).require >>= fun _ => pure (merged env s maxBars)) = _
  rw [same]
  rfl

/-! ### Settings of a file and an environment -/

/-- The settings that a disk and an environment give before any other variable is looked at: those of
the file that the environment names, or the standard ones. -/
inductive Given (d : Disk) (workingDir : Disk.Path) (env : Environment) : Settings → Prop where
  | file {name text : String} {s : Settings} : IsSet env fileVariable name →
      d.textAt (Place.ofText workingDir name) = .ok (some text) → decode text = .ok s →
      Given d workingDir env s
  | standard : IsUnset env fileVariable → Given d workingDir env standard

variable {d e : Disk} {workingDir : Disk.Path}

/-- A file gives its settings, unless these alone cannot be used. -/
theorem ofFile_ends {place : Place} {text : String} (process : Nat)
    (there : d.textAt place = .ok (some text)) (decoded : decode text = .ok s) :
    Ends (ofFile place) (sound d process) ((s.require.map fun _ => s).mapError Halt.fault)
      (sound d process) := by
  have checked : read text = s.require.map fun _ => s := by
    rw [read, decoded]
    change (s.require >>= fun _ => pure s) = _
    cases s.require <;> rfl
  exact (Ends.bind_of (readTextOr_works there)).2 (ends_ofOutcome.2 ⟨by rw [checked], rfl⟩)

theorem standard_isUsable : standard.IsUsable := ⟨by decide, by decide⟩

/-- The settings of the file are checked alone, and then once more with the variables in place. -/
theorem ofEnvironment_ends (given : Given d workingDir env s) (process : Nat) :
    Ends (ofEnvironment workingDir env) (sound d process)
      ((s.require >>= fun _ => s.overrideAll env).mapError Halt.fault) (sound d process) := by
  unfold ofEnvironment filePlace?
  cases given with
  | file isSet there decoded =>
      have fileRead := ofFile_ends process there decoded
      rw [trimmed_eq_some.2 isSet]
      cases checked : s.require with
      | ok =>
          rw [checked] at fileRead
          exact (Ends.bind_of fileRead).2 (ends_ofOutcome.2 ⟨rfl, rfl⟩)
      | error cause =>
          rw [checked] at fileRead
          exact Ends.bind_iff.2 (.inr ⟨_, fileRead, rfl⟩)
  | standard isUnset =>
      rw [trimmed_eq_none.2 isUnset, require_eq_ok.2 standard_isUsable]
      exact (Ends.bind_of (Ends.pure_iff.2 ⟨rfl, rfl⟩)).2 (ends_ofOutcome.2 ⟨rfl, rfl⟩)

/-- An environment and the settings that its file gives come to the settings with every variable in
place, exactly if these can be used and the settings of the file can be used alone.  The variables
can be put in place exactly if the number among them, where it is set, is a number, and that gives
one result.  A file that is refused alone is refused whatever the other variables are.  Of two files
that are both taken, or refused for the same reason, the keys that variables take the place of make
no difference. -/
theorem ofEnvironment_exact (given : Given d workingDir env s) (process : Nat) :
    ((∃ m, Merges env s m) ↔ ∀ value, IsSet env maxBarsVariable value → ∃ n, IsCount value n) ∧
    (∀ m m', Merges env s m → Merges env s m' → m' = m) ∧
    (∀ m v, Ends (ofEnvironment workingDir env) (sound d process) (.ok m) v ↔
      s.IsUsable ∧ Merges env s m ∧ m.IsUsable ∧ v = sound d process) ∧
    (∀ cause, s.require = .error cause →
      Ends (ofEnvironment workingDir env) (sound d process) (.error (.fault cause))
        (sound d process)) ∧
    ∀ e t, Given e workingDir env t → AlikeBeside env s t → s.require = t.require → ∀ r,
      Ends (ofEnvironment workingDir env) (sound d process) r (sound d process) ↔
        Ends (ofEnvironment workingDir env) (sound e process) r (sound e process) := by
  have ended := ofEnvironment_ends given process
  refine ⟨exists_merges, fun m m' => Merges.unique, fun m v => ?_, fun cause refused => ?_,
    fun e t given' alike same r => ?_⟩
  · have gives : (s.require >>= fun _ => s.overrideAll env).mapError Halt.fault = .ok m ↔
        s.IsUsable ∧ Merges env s m ∧ m.IsUsable := by
      rw [mapError_eq_ok, check_eq_ok, require_eq_ok, overrideAll_eq_ok]
    constructor
    · intro read
      obtain ⟨same, rfl⟩ := read.unique ended
      obtain ⟨alone, merges, usable⟩ := gives.1 same.symm
      exact ⟨alone, merges, usable, rfl⟩
    · rintro ⟨alone, merges, usable, rfl⟩
      rw [gives.2 ⟨alone, merges, usable⟩] at ended
      exact ended
  · rw [refused] at ended
    exact ended
  · have ended' := ofEnvironment_ends given' process
    rw [← same, ← overrideAll_alike alike] at ended'
    constructor
    · intro read
      rw [(read.unique ended).1]
      exact ended'
    · intro read
      rw [(read.unique ended').1]
      exact ended

/-- A disk with a file of settings. -/
def withFile (text : String) : Disk :=
  Disk.empty.set ["settings.toml"] (.file (encode text))

/-- An environment that names this file and makes room for nine bars. -/
def nineBars : Environment := fun name =>
  if name = fileVariable then some "/settings.toml"
  else if name = maxBarsVariable then some " 9"
  else none

theorem given_withFile {text : String}
    (there : (withFile text).textAt (Place.ofText [] "/settings.toml") = .ok (some text))
    (decoded : decode text = .ok s) : Given (withFile text) [] nineBars s :=
  .file ⟨"/settings.toml", by decide, by decide, by decide⟩ there decoded

/-- Files with room for five bars and for seven make no difference where the environment makes room
for nine. -/
theorem ofEnvironment_nineBars :
    let m : Settings := { standard with cacheMaxBars := 9 }
    Ends (ofEnvironment [] nineBars) (sound (withFile "cache_max_bars = 5") 1) (.ok m)
        (sound (withFile "cache_max_bars = 5") 1) ∧
      Ends (ofEnvironment [] nineBars) (sound (withFile "cache_max_bars = 7") 1) (.ok m)
        (sound (withFile "cache_max_bars = 7") 1) := by
  intro m
  have five : Given (withFile "cache_max_bars = 5") [] nineBars
      { standard with cacheMaxBars := 5 } := given_withFile (by decide +kernel) (by decide +kernel)
  have seven : Given (withFile "cache_max_bars = 7") [] nineBars
      { standard with cacheMaxBars := 7 } := given_withFile (by decide +kernel) (by decide +kernel)
  have merges : Merges nineBars { standard with cacheMaxBars := 5 } m :=
    (overrideAll_eq_ok.1 (by decide)).1
  have alike : AlikeBeside nineBars { standard with cacheMaxBars := 5 }
      { standard with cacheMaxBars := 7 } :=
    { cacheRoot := fun _ => rfl
      archivePath := fun _ => rfl
      calendarTag := fun _ => rfl
      cacheMaxBars := fun isUnset => by
        have blank := isUnset " 9" rfl
        revert blank
        decide
      cacheWarmupBars := rfl
      profilesPath := rfl }
  obtain ⟨-, -, result, -, elsewhere⟩ := ofEnvironment_exact five 1
  have first := (result m _).2 ⟨⟨by decide, by decide⟩, merges, ⟨by decide, by decide⟩, rfl⟩
  exact ⟨first, (elsewhere _ _ seven alike rfl _).1 first⟩

/-- A file without room for a bar is refused, though the environment makes room for nine. -/
theorem overridden_zero_refused :
    let s : Settings := { standard with cacheMaxBars := 0 }
    let m : Settings := { standard with cacheMaxBars := 9 }
    Given (withFile "cache_max_bars = 0") [] nineBars s ∧ Merges nineBars s m ∧ m.IsUsable ∧
      Ends (ofEnvironment [] nineBars) (sound (withFile "cache_max_bars = 0") 1)
        (.error (.fault (.input .zeroCacheBars))) (sound (withFile "cache_max_bars = 0") 1) := by
  intro s m
  have given : Given (withFile "cache_max_bars = 0") [] nineBars s :=
    given_withFile (by decide +kernel) (by decide +kernel)
  obtain ⟨merges, usable⟩ : Merges nineBars s m ∧ m.IsUsable := overrideAll_eq_ok.1 (by decide)
  exact ⟨given, merges, usable, ofEnvironment_ends given 1⟩

end Settings

end MarketBook
