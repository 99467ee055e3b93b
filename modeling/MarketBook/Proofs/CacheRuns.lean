/-
Module: MarketBook.Proofs.CacheRuns
Purpose: Whole runs of a cache, with anything on its disk, keep sound rows in ascending order in
  memory and write no others.
Main exports:
  Action, Action.run, Reachable, BarCache.Change, Action.phases, Action.changes, BarCache.Holds,
  Reachable.holds, Reachable.rows_sound
-/
import Mathlib.Data.List.Forall2
import Mathlib.Logic.Relation
import MarketBook.Proofs.CacheFiles

namespace MarketBook

open BarCache Device Text

/-!
A run is any sequence of operations, whether they work or fail, and between them the disk may be
exchanged for any other.  Whatever a step does to memory is made up of seven kinds of change, and
what all of them keep is kept by every run.  Two gates let bars in; merging, trimming and reloading
only move them about.  So whatever both gates establish of a bar holds of every bar in every
reachable state.
-/

/-- One step of a run: an operation of the cache, or somebody else at work on the device. -/
inductive Action where
  | load
  | loadWarmup
  | append (incoming : List Json)
  | mergeAndTrim (limit : Option Nat)
  | save (now : Int)
  | appendStream (incoming : List Json) (now : Int)
  | markPublished (opened now : Int)
  | setHeartbeat (ms : Int)
  | tamper (device : Device)

namespace Action

/-- The step as an operation; what it gives back is left out. -/
def run : Action → Op Unit
  | .load => BarCache.load
  | .loadWarmup => do let _ ← BarCache.loadWarmup
  | .append incoming => do let _ ← BarCache.append incoming
  | .mergeAndTrim limit => do let _ ← BarCache.mergeAndTrim limit
  | .save now => BarCache.save now
  | .appendStream incoming now => do let _ ← BarCache.appendStream incoming now
  | .markPublished opened now => BarCache.markPublished opened now
  | .setHeartbeat ms => BarCache.setHeartbeat ms
  | .tamper device => modify fun s => { s with device := device }

/-- The session after a step, however the step has ended. -/
def after (a : Action) (s : Session) : Session :=
  (a.run.run s).2

theorem ended (a : Action) (s : Session) : Ends a.run s (a.run.run s).1 (a.after s) := rfl

/-- The step is an operation of the cache itself. -/
def IsOwn : Action → Prop
  | .tamper _ => False
  | _ => True

theorem isOwn_or_tamper (a : Action) : a.IsOwn ∨ ∃ device, a = .tamper device := by
  cases a with
  | tamper device => exact Or.inr ⟨device, rfl⟩
  | _ => exact Or.inl trivial

/-- The JSON values that a step hands to the gate. -/
def incoming : Action → List Json
  | .append incoming => incoming
  | .appendStream incoming _ => incoming
  | _ => []

end Action

/-- The sessions that runs of allowed steps lead to, from a new cache on any device. -/
inductive Reachable (allowed : Action → Prop) : Session → Prop where
  | start {directory : Place} {symbol : String} {tf : Timeframe} {maxBars warmupBars : Nat}
      {c : BarCache} (created : BarCache.create directory symbol tf maxBars warmupBars = .ok c)
      (device : Device) : Reachable allowed ⟨c, device⟩
  | step {s : Session} (a : Action) (permitted : allowed a) (before : Reachable allowed s) :
      Reachable allowed (a.after s)

/-! ### What a step changes -/

/-- The parts of a cache that no operation changes. -/
structure BarCache.SameSetup (c c' : BarCache) : Prop where
  directory : c'.directory = c.directory
  binding : c'.binding = c.binding
  maxBars : c'.maxBars = c.maxBars
  warmupBars : c'.warmupBars = c.warmupBars

theorem BarCache.SameSetup.refl (c : BarCache) : SameSetup c c := ⟨rfl, rfl, rfl, rfl⟩

theorem BarCache.SameSetup.trans {c c' c'' : BarCache} (first : SameSetup c c')
    (second : SameSetup c' c'') : SameSetup c c'' :=
  ⟨second.directory.trans first.directory, second.binding.trans first.binding,
    second.maxBars.trans first.maxBars, second.warmupBars.trans first.warmupBars⟩

theorem BarCache.SameSetup.tablePath {c c' : BarCache} (same : SameSetup c c') :
    c'.tablePath = c.tablePath := by
  rw [tablePath_eq, tablePath_eq, same.directory, same.binding]

/-- The instants that a step may take as a heartbeat. -/
def Action.heartbeats : Action → List Int
  | .appendStream _ now => [now]
  | .setHeartbeat ms => [ms]
  | _ => []

/-- One change of a cache in memory in the course of a step. -/
inductive BarCache.Change (a : Action) (c : BarCache) : BarCache → Prop where
  | load {d : Disk} {m : CacheMeta} {rows : List Bar} (metaHeld : c.metaOn d = .ok m)
      (rowsHeld : c.rowsOn d = .ok rows) : Change a c (c.withFiles m rows)
  | append {bars : List Bar} (accepted : acceptAll c.binding a.incoming = .ok bars) :
      Change a c { c with pending := c.pending ++ bars }
  | merge (limit : Option Nat) : Change a c { c with rows := c.mergedRows limit, pending := [] }
  | stamp {now : Int} (own : now ∈ a.heartbeats) : Change a c (c.withHeartbeat now)
  | beat {ms : Int} (own : ms ∈ a.heartbeats) : Change a c { c with
      heartbeat := some ms, metadata := { c.metadata with heartbeat := ms } }
  | mark {opened : Int} (onTheRails : Time.onRails opened = true) :
      Change a c { c with metadata := { c.metadata with watermark := opened } }
  | save (now : Int) : Change a c (c.savedAt now)

/-- Any number of changes, one after the other. -/
abbrev BarCache.Changes (a : Action) : BarCache → BarCache → Prop :=
  Relation.ReflTransGen (Change a)

variable {a : Action} {s s' : Session} {c c' : BarCache}

theorem save_changes {now : Int} {r : Except Halt Unit} (h : Ends (save now) s r s') :
    Changes a s.cache s'.cache := by
  rcases save_cases h with ⟨-, -, rfl⟩ | ⟨-, same, -⟩
  · exact .refl
  · rw [same]
    exact .single (.save now)

/-- Only memory changes, and the disk stays as it is. -/
structure InMemory (a : Action) (s s' : Session) : Prop where
  disk : s'.device.disk = s.device.disk
  process : s'.device.process = s.device.process
  changes : Changes a s.cache s'.cache

theorem InMemory.refl (a : Action) (s : Session) : InMemory a s s :=
  ⟨rfl, rfl, .refl⟩

theorem InMemory.tail {c : BarCache} (work : InMemory a s s') (change : Change a s'.cache c) :
    InMemory a s ⟨c, s'.device⟩ :=
  ⟨work.disk, work.process, work.changes.tail change⟩

theorem InMemory.of_load {r : Except Halt Unit} (h : Ends load s r s') : InMemory a s s' := by
  obtain ⟨sameDisk, ⟨-, m, rows, metaHeld, rowsHeld, same⟩ | ⟨-, same⟩⟩ := load_cases h
  · refine ⟨sameDisk.disk, sameDisk.process, ?_⟩
    rw [same]
    exact .single (.load metaHeld rowsHeld)
  · refine ⟨sameDisk.disk, sameDisk.process, ?_⟩
    rw [same]

/-- However an operation ends, it has worked in memory first, and then it may have saved. -/
theorem Action.phases (a : Action) (own : a.IsOwn) (s : Session) :
    ∃ s₁, InMemory a s s₁ ∧
      (a.after s = s₁ ∨ ∃ now r, Ends (BarCache.save now) s₁ r (a.after s)) := by
  have ended := a.ended s
  have noSave : InMemory a s (a.after s) → ∃ s₁, InMemory a s s₁ ∧
      (a.after s = s₁ ∨ ∃ now r, Ends (BarCache.save now) s₁ r (a.after s)) :=
    fun work => ⟨_, work, Or.inl rfl⟩
  have start := InMemory.refl a s
  cases a with
  | load => exact noSave (.of_load ended)
  | loadWarmup =>
      obtain ⟨_, ended⟩ := Ends.of_discard ended
      obtain ⟨sameDisk, same⟩ := loadWarmup_cases ended
      refine noSave ⟨sameDisk.disk, sameDisk.process, ?_⟩
      rw [same]
  | append incoming =>
      obtain ⟨_, ended⟩ := Ends.of_discard ended
      rcases append_cases ended with ⟨bars, accepted, -, same⟩ | ⟨-, same⟩
      · apply noSave
        rw [same]
        exact start.tail (.append accepted)
      · apply noSave
        rw [same]
        exact start
  | mergeAndTrim limit =>
      obtain ⟨_, ended⟩ := Ends.of_discard ended
      apply noSave
      rw [(ends_mergeAndTrim.1 ended).2]
      exact start.tail (.merge limit)
  | save now => exact ⟨s, start, Or.inr ⟨now, _, ended⟩⟩
  | appendStream incoming now =>
      obtain ⟨_, ended⟩ := Ends.of_discard ended
      rcases appendStream_cases ended with
        ⟨-, failed⟩ | ⟨s₁, loaded, ⟨-, same⟩ | ⟨bars, accepted, merged, rfl, saved⟩⟩
      · exact noSave (.of_load failed)
      · apply noSave
        rw [same]
        exact .of_load loaded
      · have appended := (InMemory.of_load loaded).tail
          (Change.append (a := .appendStream incoming now) accepted)
        have stamped := (appended.tail (.merge none)).tail
          (.stamp (show now ∈ [now] from List.mem_cons_self))
        exact ⟨_, stamped, Or.inr ⟨now, _, saved⟩⟩
  | markPublished opened now =>
      rcases markPublished_cases ended with
        ⟨-, same | ⟨-, failed⟩⟩ | ⟨s₁, before, onTheRails, saved⟩
      · apply noSave
        rw [same]
        exact start
      · exact noSave (.of_load failed)
      · have ready : InMemory (.markPublished opened now) s s₁ := by
          rcases before with rfl | ⟨-, loaded⟩
          · exact start
          · exact .of_load loaded
        exact ⟨_, ready.tail (.mark onTheRails), Or.inr ⟨now, _, saved⟩⟩
  | setHeartbeat ms =>
      apply noSave
      rw [(ends_setHeartbeat.1 ended).2]
      exact start.tail (.beat (show ms ∈ [ms] from List.mem_cons_self))
  | tamper device => exact own.elim

/-- Whatever a step does to memory, however it ends, is made up of such changes. -/
theorem Action.changes (a : Action) (s : Session) : Changes a s.cache (a.after s).cache := by
  rcases a.isOwn_or_tamper with own | ⟨device, rfl⟩
  · obtain ⟨s₁, work, same | ⟨now, r, saved⟩⟩ := a.phases own s
    · rw [same]
      exact work.changes
    · exact work.changes.trans (save_changes saved)
  · exact .refl

theorem BarCache.Change.setup (change : Change a c c') : SameSetup c c' := by
  cases change <;> exact ⟨rfl, rfl, rfl, rfl⟩

theorem BarCache.Changes.setup (changes : Changes a c c') : SameSetup c c' := by
  induction changes with
  | refl => exact .refl c
  | tail _ change ih => exact ih.trans change.setup

/-! ### What bars have in common -/

/-- The rows ascend, and every bar in memory has a property. -/
structure BarCache.Holds (good : Bar → Prop) (c : BarCache) : Prop where
  ascending : Rows.Ascending c.rows
  rows : ∀ b ∈ c.rows, good b
  pending : ∀ b ∈ c.pending, good b

/-- Both gates establish a property of bars, the gate for JSON at least for some values. -/
structure Gated (good : Bar → Prop) (binding : Binding) (incoming : List Json) : Prop where
  accepted : ∀ j ∈ incoming, ∀ b, Bar.accept binding.symbol binding.tf j = .ok b → good b
  read : ∀ path content rows, Table.read binding path content = .ok rows → ∀ b ∈ rows, good b

variable {good : Bar → Prop} {incoming : List Json}

/-- A batch is accepted value by value. -/
theorem acceptAll_eq_ok {binding : Binding} {bars : List Bar} :
    acceptAll binding incoming = .ok bars ↔
      List.Forall₂ (fun j b => Bar.accept binding.symbol binding.tf j = .ok b) incoming bars := by
  induction incoming generalizing bars with
  | nil =>
      rw [List.forall₂_nil_left_iff]
      exact ⟨fun h => by cases h; rfl, fun h => by rw [h]; rfl⟩
  | cons j rest ih =>
      constructor
      · intro h
        obtain ⟨first, accepted, h⟩ := Outcome.bind_eq_ok.1 h
        obtain ⟨others, othersAccepted, h⟩ := Outcome.bind_eq_ok.1 h
        cases h
        exact .cons accepted (ih.1 othersAccepted)
      · rintro (_ | ⟨accepted, othersAccepted⟩)
        exact Outcome.bind_eq_ok.2 ⟨_, accepted, Outcome.bind_eq_ok.2 ⟨_, ih.2 othersAccepted, rfl⟩⟩

/-- Every bar of an accepted batch comes from one of its values. -/
theorem mem_acceptAll {binding : Binding} {bars : List Bar}
    (h : acceptAll binding incoming = .ok bars) {b : Bar} (hb : b ∈ bars) :
    ∃ j ∈ incoming, Bar.accept binding.symbol binding.tf j = .ok b := by
  obtain ⟨i, inRange, rfl⟩ := List.getElem_of_mem hb
  have each := List.forall₂_iff_get.1 (acceptAll_eq_ok.1 h)
  exact ⟨_, List.getElem_mem (each.1 ▸ inRange), each.2 i (each.1 ▸ inRange) inRange⟩

/-- What a disk holds for a cache has the property, and its rows ascend. -/
theorem Gated.rowsOn (gated : Gated good c.binding incoming) {d : Disk} {rows : List Bar}
    (h : c.rowsOn d = .ok rows) : Rows.Ascending rows ∧ ∀ b ∈ rows, good b := by
  unfold BarCache.rowsOn at h
  split at h
  case h_1 =>
    cases h
    exact ⟨.nil, nofun⟩
  case h_2 => exact ⟨(Table.read_sound h).1, gated.read _ _ _ h⟩
  case h_3 => cases h

/-- A change brings in bars through a gate, or it moves bars about. -/
theorem BarCache.Change.holds (change : Change a c c') (gated : Gated good c.binding a.incoming)
    (holds : c.Holds good) : c'.Holds good := by
  obtain ⟨ascending, rows, pending⟩ := holds
  cases change with
  | load _ rowsHeld =>
      obtain ⟨newAscending, all⟩ := gated.rowsOn rowsHeld
      exact ⟨newAscending, all, nofun⟩
  | append accepted =>
      refine ⟨ascending, rows, fun b hb => ?_⟩
      rcases List.mem_append.1 hb with before | new
      · exact pending b before
      · obtain ⟨j, hj, found⟩ := mem_acceptAll accepted new
        exact gated.accepted j hj b found
  | merge limit =>
      refine ⟨mergedRows_ascending c limit, fun b hb => ?_, nofun⟩
      rcases Rows.mem_merge (Rows.mem_trim hb) with inRows | inPending
      · exact rows b inRows
      · exact pending b inPending
  | stamp _ => exact ⟨ascending, rows, pending⟩
  | beat _ => exact ⟨ascending, rows, pending⟩
  | mark _ => exact ⟨ascending, rows, pending⟩
  | save _ => exact ⟨ascending, rows, pending⟩

theorem BarCache.Changes.holds (changes : Changes a c c')
    (gated : Gated good c.binding a.incoming) (holds : c.Holds good) : c'.Holds good := by
  induction changes with
  | refl => exact holds
  | tail before change ih =>
      refine change.holds ?_ ih
      rw [(Changes.setup before).binding]
      exact gated

/-- Whatever a step does and however it ends, it keeps what the gates establish. -/
theorem Action.holds_after (a : Action) (gated : Gated good s.cache.binding a.incoming)
    (holds : s.cache.Holds good) : (a.after s).cache.Holds good :=
  (a.changes s).holds gated holds

/-! ### The file of rows -/

/-- Only a save writes the file of rows, and it writes the rows in memory. -/
theorem Action.table_after (a : Action) (own : a.IsOwn) {content : Octets}
    (there : (a.after s).device.disk.node? s.cache.tablePath = some (.file content)) :
    s.device.disk.node? s.cache.tablePath = some (.file content) ∨
      content = Table.write (a.after s).cache.rows := by
  obtain ⟨s₁, work, same | ⟨now, r, saved⟩⟩ := a.phases own s
  · rw [same, work.disk] at there
    exact Or.inl there
  · have rows : (a.after s).cache.rows = s₁.cache.rows := by
      rcases save_cases saved with ⟨-, -, same⟩ | ⟨-, same, -⟩
      · rw [same]
      · rw [same]
        rfl
    rw [← work.changes.setup.tablePath] at there ⊢
    rw [rows, ← work.disk]
    exact save_table saved there

/-! ### Whole runs -/

variable {allowed : Action → Prop} {kind : Binding → Bar → Prop}

theorem create_eq_ok {directory : Place} {symbol : String} {tf : Timeframe}
    {maxBars warmupBars : Nat} {c : BarCache}
    (created : BarCache.create directory symbol tf maxBars warmupBars = .ok c) :
    0 < maxBars ∧ ∃ normal, Symbol.normalize symbol = .ok normal ∧
      c = ⟨directory, ⟨normal, tf⟩, maxBars, warmupBars, [], [], .blank, none, false⟩ := by
  unfold BarCache.create at created
  split at created
  case isTrue => cases created
  case isFalse positive =>
    obtain ⟨normal, normalized, same⟩ := Outcome.bind_eq_ok.1 created
    cases same
    exact ⟨Nat.pos_of_ne_zero positive, normal, normalized, rfl⟩

/-- What both gates establish for the values that a run may hand in holds in every state that it
reaches.  The induction is on the run; no step changes the binding that the gates go by. -/
theorem Reachable.holds (reachable : Reachable allowed s)
    (gated : ∀ binding a, allowed a → Gated (kind binding) binding a.incoming) :
    s.cache.Holds (kind s.cache.binding) := by
  induction reachable with
  | start created device =>
      obtain ⟨-, normal, -, rfl⟩ := create_eq_ok created
      exact ⟨.nil, nofun, nofun⟩
  | step a permitted _ ih =>
      rw [(a.changes _).setup.binding]
      exact a.holds_after (gated _ a permitted) ih

/-- Both gates let sound bars through and no others. -/
theorem gated_sound (binding : Binding) (incoming : List Json) :
    Gated (Bar.IsSound binding) binding incoming where
  accepted := fun _ _ _ accepted => Bar.accept_sound accepted
  read := fun _ _ _ read => (Table.read_sound read).2

/-- In every reachable state the rows ascend strictly and every bar, pending ones included, is a
sound bar of the binding; and whatever step comes next, a file of rows that it leaves is the one
that was there or holds exactly such rows. -/
theorem Reachable.rows_sound (reachable : Reachable allowed s) :
    Rows.Ascending s.cache.rows ∧
      (∀ b ∈ s.cache.rows ++ s.cache.pending, b.IsSound s.cache.binding) ∧
      ∀ a : Action, a.IsOwn → ∀ content,
        (a.after s).device.disk.node? s.cache.tablePath = some (.file content) →
        s.device.disk.node? s.cache.tablePath = some (.file content) ∨
          ∃ rows, content = Table.write rows ∧ Rows.Ascending rows ∧
            ∀ b ∈ rows, b.IsSound s.cache.binding := by
  have holds := reachable.holds fun binding a _ => gated_sound binding a.incoming
  refine ⟨holds.ascending, ?_, ?_⟩
  · intro b hb
    rcases List.mem_append.1 hb with inRows | inPending
    · exact holds.rows b inRows
    · exact holds.pending b inPending
  · intro a own content there
    have next := a.holds_after (gated_sound s.cache.binding a.incoming) holds
    rcases a.table_after own there with before | written
    · exact Or.inl before
    · exact Or.inr ⟨_, written, next.ascending, next.rows⟩

/-- A new cache of a metal by the minute. -/
def metalCache : BarCache :=
  ⟨.ofText [] "/data", ⟨"XAUUSD", .m1⟩, 10, 0, [], [], .blank, none, false⟩

theorem metalCache_created :
    BarCache.create (.ofText [] "/data") "xau/usd" .m1 10 0 = .ok metalCache := by
  decide +kernel

/-- The arrival of one bar. -/
def metalArrival : Action :=
  .appendStream [.obj [("open_time_ms", .int 1700000040000), ("close_time_ms", .int 1700000099999),
    ("complete", .bool true), ("open", .int 1), ("high", .int 2), ("low", .int 1),
    ("close", .int 2)]] 1700000100000

/-- The cache behind the arrival of one bar, on a disk that was empty. -/
def metalSession : Session :=
  metalArrival.after ⟨metalCache, Device.sound Disk.empty 1⟩

theorem metalSession_rows_sound :
    metalSession.cache.rows.map (·.openTime) = [1700000040000] ∧
      ∀ b ∈ metalSession.cache.rows ++ metalSession.cache.pending, b.IsSound ⟨"XAUUSD", .m1⟩ := by
  have reachable : Reachable (fun _ => True) metalSession :=
    .step metalArrival trivial (.start metalCache_created _)
  have binding : metalSession.cache.binding = ⟨"XAUUSD", .m1⟩ := by decide +kernel
  refine ⟨by decide +kernel, ?_⟩
  rw [← binding]
  exact reachable.rows_sound.2.1

end MarketBook
