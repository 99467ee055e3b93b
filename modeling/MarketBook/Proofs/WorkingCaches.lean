/-
Module: MarketBook.Proofs.WorkingCaches
Purpose: Where nothing fails and the disk has room, a cache can always save, and what it has saved
  stays what its files hold.
Main exports:
  BarCache.Writable, BarCache.Writable.save, BarCache.reopened, Reachable.reopened,
  Reachable.saved_held, Session.Serves, Session.Serves.appended
-/
import MarketBook.Proofs.SaveThenLoad
import MarketBook.Proofs.WorkingDevices

namespace MarketBook

open BarCache Device Text

/-!
A save that works leaves both files in full and room for the next save.  So a cache that can read
its files and save goes on doing so, and an instance that takes its place on the same files can do
it as well.
-/

variable {c c' : BarCache} {s s' t : Session} {d : Disk} {process : Nat} {now : Int}

/-! ### Saves that work -/

/-- The directory of a cache is there or can be made, and then nothing stands in the way of its two
files. -/
def BarCache.Writable (c : BarCache) (process : Nat) (d : Disk) : Prop :=
  ∃ d₁, d.makeDirs c.tablePlace.parent = (d₁, .ok ()) ∧ Ready c.tablePlace process d₁ ∧
    Ready c.metaPlace process d₁

theorem BarCache.SameSetup.tablePlace (same : SameSetup c c') : c'.tablePlace = c.tablePlace := by
  rw [BarCache.tablePlace, BarCache.tablePlace, same.directory, same.binding]

theorem BarCache.SameSetup.metaPlace (same : SameSetup c c') : c'.metaPlace = c.metaPlace := by
  rw [BarCache.metaPlace, BarCache.metaPlace, same.directory, same.binding]

theorem BarCache.SameSetup.metaOn (same : SameSetup c c') (d : Disk) :
    c'.metaOn d = c.metaOn d := by
  rw [BarCache.metaOn, BarCache.metaOn, same.metaPlace]

theorem BarCache.SameSetup.rowsOn (same : SameSetup c c') (d : Disk) :
    c'.rowsOn d = c.rowsOn d := by
  rw [BarCache.rowsOn, BarCache.rowsOn, same.tablePlace, same.binding]

theorem BarCache.SameSetup.writable (same : SameSetup c c') (writable : c.Writable process d) :
    c'.Writable process d := by
  unfold BarCache.Writable
  rw [same.tablePlace, same.metaPlace]
  exact writable

theorem BarCache.SavedOn.writable {rows : List Bar} {m : CacheMeta}
    (saved : c.SavedOn rows m process d) : c.Writable process d :=
  ⟨d, saved.tableReady.dirs, saved.tableReady, saved.metaReady⟩

/-- Directories that a publication makes may as well have been there. -/
theorem Device.publish_from_made {target : Place} {draft : Draft} {d₁ : Disk} {v : Device}
    {r : Except Halt Unit} (made : d.makeDirs target.parent = (d₁, .ok ()))
    (there : d₁.makeDirs target.parent = (d₁, .ok ()))
    (ended : Ends (publish target draft) (sound d₁ process) r v) :
    Ends (publish target draft) (sound d process) r v :=
  (Ends.bind_of (makeDirs_sound made)).2 ((Ends.bind_of (makeDirs_sound there)).1 ended)

/-- Where nothing fails and the disk has room, a loaded cache is saved, and there is room again. -/
theorem BarCache.Writable.save (writable : s.cache.Writable process s.device.disk)
    (working : s.device.Working process) (loaded : s.cache.isLoaded = true) (now : Int) :
    ∃ s', Ends (BarCache.save now) s (.ok ()) s' ∧ s'.cache = s.cache.savedAt now ∧
      s'.device.Working process ∧ s'.cache.Writable process s'.device.disk ∧
      s'.device.disk.node? s.cache.tablePath = some (.file (Table.write s.cache.rows)) := by
  obtain ⟨d₁, made, tableReady, metaReady⟩ := writable
  obtain ⟨s', ended⟩ : ∃ s', Ends (BarCache.save now) ⟨s.cache, sound d₁ process⟩ (.ok ()) s' :=
    save_works loaded tableReady metaReady
  have stays := save_working now ended (working_sound d₁ process)
  obtain ⟨-, -, saved⟩ := save_leaves ended
  rcases save_cases ended with
    ⟨-, ⟨e, impossible⟩, -⟩ | ⟨-, -, ⟨e, impossible, -⟩ | ⟨v, published, metaEnded⟩⟩
  · cases impossible
  · cases impossible
  · have fromHere := publish_from_made made tableReady.dirs published
    rw [← working.eq_sound] at fromHere
    have same : SameSetup s.cache (s.cache.savedAt now) := ⟨rfl, rfl, rfl, rfl⟩
    exact ⟨_, save_of loaded fromHere metaEnded, rfl, stays, same.writable saved.writable,
      saved.table⟩

/-! ### Another instance for the same files -/

/-- A new instance for the files of a cache. -/
def BarCache.reopened (c : BarCache) (maxBars warmupBars : Nat) : BarCache :=
  ⟨c.directory, c.binding, maxBars, warmupBars, [], [], .blank, none, false⟩

/-- An instance that is created for the same directory and binding is the new one. -/
theorem BarCache.create_reopened {symbol : String} {maxBars warmupBars : Nat}
    (created : create c.directory symbol c.binding.tf maxBars warmupBars = .ok c')
    (same : c'.binding = c.binding) : c' = c.reopened maxBars warmupBars := by
  obtain ⟨-, normal, -, rfl⟩ := create_eq_ok created
  unfold reopened
  rw [← same]

variable {allowed : Action → Prop}

/-- The symbol of a reachable cache is the normal form of some symbol. -/
theorem Reachable.normalized (reachable : Reachable allowed s) :
    0 < s.cache.maxBars ∧ ∃ symbol, Symbol.normalize symbol = .ok s.cache.binding.symbol := by
  induction reachable with
  | start created device =>
      obtain ⟨positive, normal, normalized, rfl⟩ := create_eq_ok created
      exact ⟨positive, _, normalized⟩
  | @step s a _ _ ih =>
      have same := (a.changes s).setup
      rw [same.maxBars, same.binding]
      exact ih

/-- A new instance for the files of a reachable cache is reachable itself. -/
theorem Reachable.reopened (reachable : Reachable allowed s) {maxBars : Nat}
    (positive : 0 < maxBars) (warmupBars : Nat) :
    Reachable allowed ⟨s.cache.reopened maxBars warmupBars, s.device⟩ := by
  obtain ⟨-, symbol, normalized⟩ := reachable.normalized
  have created : BarCache.create s.cache.directory symbol s.cache.binding.tf maxBars warmupBars =
      .ok (s.cache.reopened maxBars warmupBars) := by
    unfold BarCache.create
    rw [if_neg positive.ne', normalized]
    rfl
  exact .start created _

/-! ### What the files hold -/

/-- After a save that worked, the files hold what a reachable cache holds in memory. -/
theorem Reachable.saved_held (reachable : Reachable Action.Fits s')
    (ended : Ends (save now) t (.ok ()) s') :
    s'.cache.metaOn s'.device.disk = .ok s'.cache.metadata ∧
      s'.cache.rowsOn s'.device.disk = .ok s'.cache.rows := by
  obtain ⟨-, after, saved⟩ := save_leaves ended
  have metadata : s'.cache.metaToSave now = s'.cache.metadata := by
    rw [after]
    exact metaToSave_again rfl rfl rfl rfl
  have savedHere : s'.cache.SavedOn s'.cache.rows (s'.cache.metaToSave now) t.device.process
      s'.device.disk := by
    rw [metadata, after]
    exact ⟨saved.tableReady, saved.metaReady, saved.table, saved.metadata⟩
  rw [← metadata]
  exact reachable.held savedHere

theorem Action.after_eq {a : Action} {r : Except Halt Unit} (ended : Ends a.run s r s') :
    a.after s = s' :=
  congrArg Prod.snd ended

/-! ### Arrivals that work -/

variable {incoming : List Json} {bars : List Bar}

theorem BarCache.append_of (accepted : acceptAll s.cache.binding incoming = .ok bars) :
    Ends (append incoming) s (.ok bars.length)
      { s with cache := { s.cache with pending := s.cache.pending ++ bars } } := by
  have passed : Ends (require (acceptAll s.cache.binding incoming)) s (.ok bars) s :=
    ends_require.2 ⟨by rw [accepted]; rfl, rfl⟩
  unfold append
  rw [self_bind_iff, Ends.bind_of passed, change_bind_iff]
  exact Ends.pure_iff.2 ⟨rfl, rfl⟩

/-- The cache after bars that arrived were merged into its rows. -/
def BarCache.withArrived (c : BarCache) (bars : List Bar) : BarCache :=
  { c with
    rows := { c with pending := c.pending ++ bars }.mergedRows none
    pending := [] }

/-- A stream append works if its load and its save do and the bars are accepted. -/
theorem BarCache.appendStream_of (loaded : Ends load s (.ok ()) t)
    (accepted : acceptAll t.cache.binding incoming = .ok bars)
    (saved : Ends (save now) ⟨(t.cache.withArrived bars).withHeartbeat now, t.device⟩ (.ok ()) s') :
    ∃ report, Ends (appendStream incoming now) s (.ok report) s' := by
  refine ⟨{ t.cache with pending := t.cache.pending ++ bars }.mergeReport none, ?_⟩
  unfold appendStream
  rw [Ends.bind_of loaded, Ends.bind_of (append_of accepted),
    Ends.bind_of (ends_mergeAndTrim.2 ⟨rfl, rfl⟩), change_bind_iff]
  exact (Ends.bind_of saved).2 (Ends.pure_iff.2 ⟨rfl, rfl⟩)

/-- A reachable cache at work where nothing fails, with files that it can read and replace. -/
structure Session.Serves (process : Nat) (rows : List Bar) (s : Session) : Prop where
  reachable : Reachable Action.Fits s
  working : s.device.Working process
  writable : s.cache.Writable process s.device.disk
  metadata : ∃ m, s.cache.metaOn s.device.disk = .ok m
  rows : s.cache.rowsOn s.device.disk = .ok rows

namespace Session.Serves

variable {rows : List Bar}

/-- A new instance for the same files serves them as well. -/
theorem reopened (serves : Serves process rows s) {maxBars : Nat} (positive : 0 < maxBars)
    (warmupBars : Nat) : Serves process rows ⟨s.cache.reopened maxBars warmupBars, s.device⟩ where
  reachable := serves.reachable.reopened positive warmupBars
  working := serves.working
  writable := serves.writable
  metadata := serves.metadata
  rows := serves.rows

/-- A load works and takes over the rows of the file. -/
theorem loads (serves : Serves process rows s) :
    ∃ m, Ends load s (.ok ()) ⟨s.cache.withFiles m rows, s.device⟩ := by
  obtain ⟨m, metaHeld⟩ := serves.metadata
  have works := @load_works _ process _ _ _ metaHeld serves.rows
  rw [← serves.working.eq_sound] at works
  exact ⟨m, works⟩

/-- Bars that the cache accepts are merged into the rows of the file, trimmed and saved, and the
files serve on. -/
theorem appended (serves : Serves process rows s)
    (accepted : acceptAll s.cache.binding incoming = .ok bars)
    (fits : (Action.appendStream incoming now).Fits) :
    ∃ report s', Ends (appendStream incoming now) s (.ok report) s' ∧
      s'.Serves process s'.cache.rows ∧ BarCache.SameSetup s.cache s'.cache ∧
      s'.cache.rows = Rows.trim s.cache.maxBars (Rows.merge rows bars).rows ∧
      s'.device.disk.node? s.cache.tablePath = some (.file (Table.write s'.cache.rows)) := by
  obtain ⟨m, loaded⟩ := serves.loads
  set t : Session := ⟨((s.cache.withFiles m rows).withArrived bars).withHeartbeat now, s.device⟩
  have room : t.cache.Writable process t.device.disk := serves.writable
  obtain ⟨s', saved, savedAs, working, writable, table⟩ := room.save serves.working rfl now
  obtain ⟨report, ended⟩ := appendStream_of loaded accepted saved
  have after : (Action.appendStream incoming now).after s = s' :=
    Action.after_eq ((Ends.bind_of ended).2 (Ends.pure_iff.2 ⟨rfl, rfl⟩))
  have reachable : Reachable Action.Fits s' := after ▸ .step _ fits serves.reachable
  obtain ⟨metaHeld', rowsHeld'⟩ := reachable.saved_held saved
  refine ⟨report, s', ended, ⟨reachable, working, writable, ⟨_, metaHeld'⟩, rowsHeld'⟩, ?_, ?_, ?_⟩
  · rw [savedAs]
    exact ⟨rfl, rfl, rfl, rfl⟩
  · rw [savedAs]
    rfl
  · rw [savedAs]
    exact table

end Session.Serves

/-- A new cache serves the files of a disk on which nothing stands. -/
theorem metalCache_serves : Session.Serves 1 [] ⟨metalCache, sound Disk.empty 1⟩ where
  reachable := .start metalCache_created _
  working := working_sound _ _
  writable := by
    refine ⟨⟨[(["data"], .directory)]⟩, by decide +kernel, ⟨?_, ?_, ?_, ?_, ?_⟩,
      ⟨?_, ?_, ?_, ?_, ?_⟩⟩ <;> decide +kernel
  metadata := ⟨.blank, by decide +kernel⟩
  rows := by decide +kernel

/-- A bar of a metal, a minute long. -/
def metalBar (opened closing : Int) : Json :=
  .obj [("open_time_ms", .int opened), ("close_time_ms", .int (opened + 59999)),
    ("complete", .bool true), ("open", .int 1), ("high", .int 9), ("low", .int 1),
    ("close", .int closing)]

theorem metalBar_fits {opened closing : Int} (openedFits : isSigned64 opened = true)
    (closedFits : isSigned64 (opened + 59999) = true) (closingFits : isSigned64 closing = true) :
    (metalBar opened closing).FieldsFit := by
  apply Json.fieldsFit_obj
  intro f hf n same
  simp only [List.mem_cons, List.not_mem_nil, or_false] at hf
  rcases hf with rfl | rfl | rfl | rfl | rfl | rfl | rfl <;> cases same
  · exact Json.isInteger64_of_signed openedFits
  · exact Json.isInteger64_of_signed closedFits
  · exact ⟨by decide, by decide⟩
  · exact ⟨by decide, by decide⟩
  · exact ⟨by decide, by decide⟩
  · exact Json.isInteger64_of_signed closingFits

end MarketBook
