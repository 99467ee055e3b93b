/-
Module: MarketBook.Proofs.BoundedTables
Purpose: When the file of rows of a cache stays within the bound of the cache.
Main exports:
  Table.length_read_write, BarCache.TableWithin, Session.Within, Action.KeepsBound,
  Action.within_after, Session.Bounding, Session.Bounding.table_bounded,
  Session.Serves.written_back, reopened_save_exceeds_bound
-/
import MarketBook.Proofs.WorkingCaches

namespace MarketBook

open BarCache Device Text

/-!
Only a merge counts rows.  A load takes over whatever the file holds, and a save writes whatever was
loaded, so a file from a time with a greater bound is written at its full length until bars are
merged into it.  No other operation lengthens the rows: a file that is within the bound stays so, and
a stream append brings any file within it.
-/

variable {c : BarCache} {s s' : Session} {d d' : Disk} {rows : List Bar}

/-! ### Counting rows -/

theorem BarCache.length_mergedRows_le (c : BarCache) : (c.mergedRows none).length ≤ c.maxBars := by
  rw [mergedRows, Rows.length_trim]
  exact min_le_left _ _

namespace Table

theorem readRows_length {binding : Binding} {path : String} {records : List (List Csv.Field)}
    {row : Nat} (h : readRows binding path row records = .ok rows) :
    rows.length = records.length := by
  induction records generalizing row rows with
  | nil =>
      cases h
      rfl
  | cons record rest ih =>
      obtain ⟨b, -, h⟩ := Outcome.bind_eq_ok.1 h
      obtain ⟨others, read, h⟩ := Outcome.bind_eq_ok.1 h
      cases h
      rw [List.length_cons, List.length_cons, ih read]

/-- Whatever the rows are, a reader that accepts the table of them counts as many. -/
theorem length_read_write {binding : Binding} {path : String} {written : List Bar}
    (h : read binding path (write written) = .ok rows) : rows.length = written.length := by
  unfold read at h
  rw [records_write] at h
  obtain ⟨-, h⟩ := Outcome.check_eq_ok.1 h
  obtain ⟨again, read, h⟩ := Outcome.bind_eq_ok.1 h
  obtain ⟨-, same⟩ := Outcome.check_eq_ok.1 h
  cases same
  rw [readRows_length read, List.tail_cons, List.length_map]

end Table

/-! ### Files within the bound -/

theorem Disk.node?_of_contentAt {p : Place} {content : Octets}
    (found : d.contentAt p = .ok (some content)) : d.node? p.path = some (.file content) := by
  unfold contentAt read at found
  cases located : d.locate p with
  | error e =>
      rw [located] at found
      cases e <;> cases found
  | ok path =>
      rw [located] at found
      simp only [bind, Except.bind] at found
      rw [← locate_path located]
      cases there : d.node? path with
      | none =>
          rw [there] at found
          cases found
      | some n =>
          rw [there] at found
          cases n <;> cases found
          rfl

namespace BarCache

/-- If the file of rows can be read, it holds no more of them than the cache may keep. -/
def TableWithin (c : BarCache) (d : Disk) : Prop :=
  ∀ content rows, d.node? c.tablePath = some (.file content) →
    Table.read c.binding c.tablePlace.shown content = .ok rows → rows.length ≤ c.maxBars

/-- The file of rows is the table of no more rows than the cache may keep. -/
def WritesWithin (c : BarCache) (content : Octets) : Prop :=
  ∃ rows, content = Table.write rows ∧ rows.length ≤ c.maxBars

theorem TableWithin.rowsOn (within : c.TableWithin d) (held : c.rowsOn d = .ok rows) :
    rows.length ≤ c.maxBars := by
  unfold BarCache.rowsOn at held
  split at held
  case h_1 =>
    cases held
    exact Nat.zero_le _
  case h_2 content found => exact within content rows (Disk.node?_of_contentAt found) held
  case h_3 => cases held

/-- A file of rows that is exchanged for one within the bound, if at all. -/
theorem TableWithin.rewritten (within : c.TableWithin d)
    (writes : ∀ content, d'.node? c.tablePath = some (.file content) →
      d.node? c.tablePath = some (.file content) ∨ c.WritesWithin content) :
    c.TableWithin d' := by
  intro content rows there read
  rcases writes content there with before | ⟨written, rfl, short⟩
  · exact within content rows before read
  · rw [Table.length_read_write read]
    exact short

theorem SameSetup.tableWithin {c' : BarCache} (same : SameSetup c c') (within : c.TableWithin d) :
    c'.TableWithin d := by
  unfold TableWithin
  rw [same.tablePath, same.tablePlace, same.binding, same.maxBars]
  exact within

end BarCache

/-- The rows in memory and those of the file are within the bound of the cache. -/
structure Session.Within (s : Session) : Prop where
  rows : s.cache.rows.length ≤ s.cache.maxBars
  table : s.cache.TableWithin s.device.disk

/-! ### Steps -/

/-- The steps of the cache itself that merge under no other limit than the bound of the cache. -/
def Action.KeepsBound : Action → Prop
  | .mergeAndTrim limit => limit = none
  | .tamper _ => False
  | _ => True

theorem Action.KeepsBound.isOwn {a : Action} (permitted : a.KeepsBound) : a.IsOwn := by
  cases a with
  | tamper device => exact permitted
  | _ => trivial

theorem BarCache.save_rows {now : Int} {r : Except Halt Unit} (h : Ends (save now) s r s') :
    s'.cache.rows = s.cache.rows := by
  rcases save_cases h with ⟨-, -, rfl⟩ | ⟨-, same, -⟩
  · rfl
  · rw [same]
    rfl

theorem Session.Within.loaded (within : s.Within) {r : Except Halt Unit} (h : Ends load s r s') :
    s'.cache.rows.length ≤ s.cache.maxBars := by
  obtain ⟨-, ⟨-, m, rows, -, rowsHeld, same⟩ | ⟨-, same⟩⟩ := load_cases h
  · rw [same]
    exact within.table.rowsOn rowsHeld
  · rw [same]
    exact within.rows

/-- A stream append ends as its load did, or it saves a cache whose rows were trimmed. -/
theorem BarCache.appendStream_phases {incoming : List Json} {now : Int} {r : Except Halt Report}
    (h : Ends (appendStream incoming now) s r s') :
    ((r.map fun _ => ()) ≠ .ok () ∧ ∃ r', Ends load s r' s') ∨
      ∃ t : Session, SameSetup s.cache t.cache ∧ t.device.disk = s.device.disk ∧
        t.cache.rows.length ≤ t.cache.maxBars ∧ Ends (save now) t (r.map fun _ => ()) s' := by
  rcases appendStream_cases h with
    ⟨⟨e, rfl⟩, failed⟩ | ⟨s₁, loaded, ⟨⟨e, rfl⟩, rfl⟩ | ⟨bars, -, merged, rfl, saved⟩⟩
  · exact Or.inl ⟨nofun, _, failed⟩
  · exact Or.inl ⟨nofun, _, loaded⟩
  · have work := InMemory.of_load (a := .load) loaded
    refine Or.inr ⟨_, ?_, ?_, ?_, saved⟩
    · exact work.changes.setup.trans ⟨rfl, rfl, rfl, rfl⟩
    · exact work.disk
    · exact length_mergedRows_le { s₁.cache with pending := s₁.cache.pending ++ bars }

/-- No step lengthens the rows in memory beyond the bound. -/
theorem Session.Within.rows_after (within : s.Within) {a : Action} (permitted : a.KeepsBound) :
    (a.after s).cache.rows.length ≤ s.cache.maxBars := by
  have ended := a.ended s
  cases a with
  | load => exact within.loaded ended
  | loadWarmup =>
      obtain ⟨_, ended⟩ := Ends.of_discard ended
      rw [(loadWarmup_cases ended).2]
      exact within.rows
  | append incoming =>
      obtain ⟨_, ended⟩ := Ends.of_discard ended
      rcases append_cases ended with ⟨bars, -, -, same⟩ | ⟨-, same⟩
      · rw [same]
        exact within.rows
      · rw [same]
        exact within.rows
  | mergeAndTrim limit =>
      obtain ⟨_, ended⟩ := Ends.of_discard ended
      rw [(ends_mergeAndTrim.1 ended).2, show limit = none from permitted]
      exact length_mergedRows_le _
  | save now =>
      rw [save_rows ended]
      exact within.rows
  | appendStream incoming now =>
      obtain ⟨_, ended⟩ := Ends.of_discard ended
      rcases appendStream_phases ended with ⟨-, r, loaded⟩ | ⟨t, setup, -, short, saved⟩
      · exact within.loaded loaded
      · rw [save_rows saved, ← setup.maxBars]
        exact short
  | markPublished opened now =>
      rcases markPublished_cases ended with ⟨-, same | ⟨-, failed⟩⟩ | ⟨s₁, before, -, saved⟩
      · rw [same]
        exact within.rows
      · exact within.loaded failed
      · rw [save_rows saved]
        change s₁.cache.rows.length ≤ s.cache.maxBars
        rcases before with rfl | ⟨-, loaded⟩
        · exact within.rows
        · exact within.loaded loaded
  | setHeartbeat ms =>
      rw [(ends_setHeartbeat.1 ended).2]
      exact within.rows
  | tamper device => exact permitted.elim

/-- A step leaves the file of rows as it was, or it writes one within the bound. -/
theorem Session.Within.writes_after (within : s.Within) {a : Action} (permitted : a.KeepsBound)
    {content : Octets}
    (there : (a.after s).device.disk.node? s.cache.tablePath = some (.file content)) :
    s.device.disk.node? s.cache.tablePath = some (.file content) ∨
      s.cache.WritesWithin content := by
  rcases a.table_after permitted.isOwn there with before | written
  · exact Or.inl before
  · exact Or.inr ⟨_, written, within.rows_after permitted⟩

/-- Every step keeps memory and file within the bound. -/
theorem Action.within_after (a : Action) (permitted : a.KeepsBound) (within : s.Within) :
    (a.after s).Within := by
  have setup := (a.changes s).setup
  refine ⟨?_, setup.tableWithin (within.table.rewritten fun content there => ?_)⟩
  · rw [setup.maxBars]
    exact within.rows_after permitted
  · exact within.writes_after permitted there

/-- A stream append that works brings memory and file within the bound, whatever they were. -/
theorem Session.within_of_stream {incoming : List Json} {now : Int} {report : Report}
    (h : Ends (appendStream incoming now) s (.ok report) s') : s'.Within := by
  rcases appendStream_phases h with ⟨impossible, -⟩ | ⟨t, -, -, short, saved⟩
  · exact absurd rfl impossible
  · obtain ⟨-, same, left⟩ := save_leaves saved
    refine ⟨?_, ?_⟩
    · rw [same]
      exact short
    · rw [same]
      intro content rows there read
      cases there.symm.trans left.table
      rw [Table.length_read_write read]
      exact short

/-! ### Runs -/

/-- The sessions in which the bound is in force: it is from the start where the file is within it,
or from a stream append on that has worked. -/
inductive Session.Bounding : Session → Prop where
  | start {directory : Place} {symbol : String} {tf : Timeframe} {maxBars warmupBars : Nat}
      {c : BarCache} (created : BarCache.create directory symbol tf maxBars warmupBars = .ok c)
      (device : Device) (within : c.TableWithin device.disk) : Bounding ⟨c, device⟩
  | stream {s s' : Session} {incoming : List Json} {now : Int} {report : Report}
      (ended : Ends (appendStream incoming now) s (.ok report) s') : Bounding s'
  | step {s : Session} (a : Action) (permitted : a.KeepsBound) (before : Bounding s) :
      Bounding (a.after s)

theorem Session.Bounding.within (bounding : s.Bounding) : s.Within := by
  induction bounding with
  | start created device within =>
      obtain ⟨-, normal, -, rfl⟩ := create_eq_ok created
      exact ⟨Nat.zero_le _, within⟩
  | stream ended => exact within_of_stream ended
  | step a permitted _ ih => exact a.within_after permitted ih

/-- Once the bound is in force, it stays in force whatever the cache does and however that ends: the
rows in memory and those of the file are within it, and so is every file that a step leaves in its
place. -/
theorem Session.Bounding.table_bounded (bounding : s.Bounding) :
    s.cache.rows.length ≤ s.cache.maxBars ∧
      (∀ content rows, s.device.disk.node? s.cache.tablePath = some (.file content) →
        Table.read s.cache.binding s.cache.tablePlace.shown content = .ok rows →
        rows.length ≤ s.cache.maxBars) ∧
      ∀ a : Action, a.KeepsBound → ∀ content,
        (a.after s).device.disk.node? s.cache.tablePath = some (.file content) →
        s.device.disk.node? s.cache.tablePath = some (.file content) ∨
          ∃ rows, content = Table.write rows ∧ rows.length ≤ s.cache.maxBars := by
  obtain ⟨short, table⟩ := bounding.within
  exact ⟨short, table, fun a permitted content there =>
    Session.Within.writes_after ⟨short, table⟩ permitted there⟩

/-- Where nothing fails, a load and a save write the rows that the file held, however many. -/
theorem Session.Serves.written_back {process : Nat} (serves : s.Serves process rows) (now : Int) :
    ∃ loaded s', Ends load s (.ok ()) loaded ∧ Ends (save now) loaded (.ok ()) s' ∧
      s'.device.disk.node? s.cache.tablePath = some (.file (Table.write rows)) := by
  obtain ⟨m, loads⟩ := serves.loads
  set loaded : Session := ⟨s.cache.withFiles m rows, s.device⟩
  have room : loaded.cache.Writable process loaded.device.disk := serves.writable
  obtain ⟨s', saves, -, -, -, table⟩ := room.save serves.working rfl now
  exact ⟨loaded, s', loads, saves, table⟩

/-- Two bars that arrive at a cache of ten rows. -/
def metalPair : List Json :=
  [metalBar 1700000040000 2, metalBar 1700000100000 3]

/-- A cache that keeps one row, beside the file that holds the two bars. -/
def metalReopened : Session :=
  ⟨metalCache.reopened 1 0,
    ((Action.appendStream metalPair 1700000160000).after ⟨metalCache, sound Disk.empty 1⟩).device⟩

theorem metalReopened_serves :
    ∃ rows, rows.map (·.openTime) = [1700000040000, 1700000100000] ∧
      metalReopened.Serves 1 rows := by
  have fits : (Action.appendStream metalPair 1700000160000).Fits := by
    refine ⟨?_, ?_⟩ <;>
      simp [metalPair, Action.incoming, Action.heartbeats, metalBar_fits, isSigned64, limit63]
  obtain ⟨bars, accepted⟩ : ∃ bars, acceptAll metalCache.binding metalPair = .ok bars :=
    Outcome.exists_of_isSome (by decide +kernel)
  obtain ⟨report, s₁, arrived, serves, setup, rows, -⟩ := metalCache_serves.appended accepted fits
  have after : (Action.appendStream metalPair 1700000160000).after ⟨metalCache, sound Disk.empty 1⟩
      = s₁ := Action.after_eq ((Ends.bind_of arrived).2 (Ends.pure_iff.2 ⟨rfl, rfl⟩))
  have opens : (acceptAll metalCache.binding metalPair).map (fun bars =>
      (Rows.trim 10 (Rows.merge [] bars).rows).map (·.openTime)) =
        .ok [1700000040000, 1700000100000] := by decide +kernel
  rw [accepted] at opens
  have reopened := serves.reopened (show 0 < 1 by decide) 0
  have same : s₁.cache.reopened 1 0 = metalCache.reopened 1 0 := by
    rw [BarCache.reopened, BarCache.reopened, setup.directory, setup.binding]
  refine ⟨s₁.cache.rows, ?_, ?_⟩
  · rw [rows]
    exact Except.ok.inj opens
  · rw [metalReopened, after, ← same]
    exact reopened

/-- A third bar pushes both out, and whatever a save after it leaves holds one row. -/
theorem metalReopened_table_bounded :
    ∃ report s, Ends (appendStream [metalBar 1700000160000 4] 1700000220000) metalReopened
        (.ok report) s ∧ s.cache.maxBars = 1 ∧
      ∀ content, ((Action.save 1700000280000).after s).device.disk.node? s.cache.tablePath =
          some (.file content) →
        s.device.disk.node? s.cache.tablePath = some (.file content) ∨
          ∃ rows, content = Table.write rows ∧ rows.length ≤ s.cache.maxBars := by
  obtain ⟨rows, -, serves⟩ := metalReopened_serves
  obtain ⟨bars, accepted⟩ : ∃ bars,
      acceptAll metalReopened.cache.binding [metalBar 1700000160000 4] = .ok bars :=
    Outcome.exists_of_isSome (by decide +kernel)
  have fits : (Action.appendStream [metalBar 1700000160000 4] 1700000220000).Fits := by
    refine ⟨?_, ?_⟩ <;>
      simp [Action.incoming, Action.heartbeats, metalBar_fits, isSigned64, limit63]
  obtain ⟨report, s, ended, -, setup, -⟩ := serves.appended accepted fits
  exact ⟨report, s, ended, setup.maxBars,
    (Session.Bounding.stream ended).table_bounded.2.2 (.save 1700000280000) trivial⟩

/-- The bound is not in force for a file that was within a greater one: the cache that keeps one row
loads two and writes two. -/
theorem reopened_save_exceeds_bound :
    BarCache.create (.ofText [] "/data") "xau/usd" .m1 1 0 = .ok metalReopened.cache ∧
      ∃ rows loaded s', rows.map (·.openTime) = [1700000040000, 1700000100000] ∧
        Ends load metalReopened (.ok ()) loaded ∧ Ends (save 1700000220000) loaded (.ok ()) s' ∧
        s'.device.disk.node? metalReopened.cache.tablePath = some (.file (Table.write rows)) := by
  obtain ⟨rows, opens, serves⟩ := metalReopened_serves
  obtain ⟨loaded, s', loads, saves, table⟩ := serves.written_back 1700000220000
  exact ⟨by decide +kernel, rows, loaded, s', opens, loads, saves, table⟩

end MarketBook
