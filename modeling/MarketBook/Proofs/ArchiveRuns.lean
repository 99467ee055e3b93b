/-
Module: MarketBook.Proofs.ArchiveRuns
Purpose: Over every run of insertions and reopenings the archive keeps the first row of each key, and
  its answers are those of the insertions so far.
Main exports:
  Archive.openAt_cases, Archive.Holds, Archive.Holds.insert_cases, Archive.Call, Archive.Reached,
  Archive.Reached.kept, Archive.Reached.first_writer_wins
-/
import MarketBook.Archive.Store
import MarketBook.Proofs.ArchiveTables
import MarketBook.Proofs.Publication

namespace MarketBook

open Device

/-!
An archive that is open is a path and nothing more: the rows are on the disk.  The address of a file
leads to one path whatever is on the disk, so opening it again finds the rows.  One insertion adds the
row of its submission or nothing at all, and so the rows are those of the insertions that were
reported as such, in their order.
-/

namespace Address

variable {d : Disk} {workingDir path : Disk.Path} {address : Address}

theorem resolve?_destination {steps : List String} :
    ∀ {here : Disk.Path}, resolve? d here steps = some path → path = Disk.destination here steps := by
  induction steps with
  | nil =>
      intro here found
      cases found
      rfl
  | cons step rest ih =>
      intro here found
      simp only [resolve?] at found
      simp only [Disk.destination]
      split
      case isTrue goesUp =>
        rw [if_pos goesUp] at found
        exact ih found
      case isFalse isName =>
        rw [if_neg isName] at found
        split at found
        · cases found
        · exact ih found

/-- The file of an address is where its text leads, whatever is on the disk. -/
theorem locate_path (found : address.locate d workingDir = .ok path) :
    path = (Place.ofText workingDir address.file).path := by
  unfold locate at found
  split at found
  · cases found
  case h_2 p resolved =>
    split at found
    · cases found
    · split at found
      · cases found
        exact resolve?_destination resolved
      · cases found

/-- An archive that has its table in a file is not opened as a new one. -/
theorem not_ledger_of_fresh {t : Archive.Table}
    (fresh : address.stateToOpen d workingDir path = .ok .fresh) :
    d.node? path ≠ some (.ledger t) := by
  intro there
  unfold stateToOpen at fresh
  split at fresh
  · simp only [stateAt, there] at fresh
    split at fresh
    · cases fresh
    · cases fresh
  · cases fresh

/-- An archive that is opened with the table that is there has one that can be read. -/
theorem table_of_held (held : address.stateToOpen d workingDir path = .ok .held) :
    ∃ t, Archive.tableAt d path = .ok t := by
  unfold stateToOpen at held
  split at held
  · unfold stateAt at held
    split at held
    case h_1 t there => exact ⟨t, by rw [Archive.tableAt, there]⟩
    case h_2 content there =>
      split at held
      · split at held
        · cases held
        · cases held
      · split at held
        case isTrue suits =>
          cases imported : Archive.import? content with
          | none => simp [imported] at suits
          | some found => exact ⟨found.table, by simp [Archive.tableAt, there, imported]⟩
        case isFalse => cases held
    case h_3 => cases held
    case h_4 =>
      split at held
      · cases held
      · cases held
  · cases held

end Address

namespace Archive

variable {workingDir : Disk.Path} {text : String} {a a' : Archive} {v v' : Device}

/-! ### Opening -/

/-- The device with a table in the file of an archive. -/
def put (a : Archive) (t : Table) (v : Device) : Device :=
  { v with disk := v.disk.set a.path (.ledger t) }

theorem ends_putTable {t : Table} {r : Except Halt Unit} :
    Ends (a.putTable t) v r v' ↔
      (a.isReadOnly = false ∧ r = .ok () ∧ v' = a.put t v) ∨
        (a.isReadOnly = true ∧ r = .error (.fault .database) ∧ v' = v) := by
  unfold putTable
  cases a.isReadOnly with
  | true => simp [ends_fail]
  | false => simp [Ends.modify_iff, put]

theorem makeDirs_grows {place : Place} {r : Except Halt Unit} (h : Ends (makeDirs place) v r v') :
    v.disk.Grows v'.disk := by
  obtain ⟨-, ⟨-, same | made⟩ | ⟨-, -, -, made⟩⟩ := makeDirs_phases h
  · rw [same]
    exact Disk.Grows.refl _
  · rw [made]
    exact Disk.makeDirs_grows _ _
  · have grows := Disk.makeDirs_grows place v.disk
    rwa [made] at grows

/-- Opening gives the archive of the address, private or where the address leads.  Directories are
made, and a new table where none is. -/
theorem openAt_cases (h : Ends (openAt workingDir text) v (.ok a) v') :
    ∃ address made, Address.read text = .ok address ∧ v.disk.Grows made.disk ∧
      a.isReadOnly = address.isReadOnly ∧
      ((address.isPrivate = true ∧ a.path = privatePath ∧ v' = a.put .fresh made) ∨
        address.isPrivate = false ∧ a.path = (Place.ofText workingDir address.file).path ∧
          ((v' = made ∧ ∃ t, tableAt made.disk a.path = .ok t) ∨
            (∀ t, made.disk.node? a.path ≠ some (.ledger t)) ∧ v' = a.put .fresh made)) := by
  obtain ⟨⟨⟩, _, dirs, opens⟩ := Ends.bind_ok_iff.1 h
  obtain ⟨address, _, parsed, chosen⟩ := Ends.bind_ok_iff.1 opens
  obtain ⟨read, rfl⟩ := ends_ofOutcome_ok.1 parsed
  refine ⟨address, _, read, makeDirs_grows dirs, ?_⟩
  split at chosen
  case isTrue isPrivate =>
    obtain ⟨⟨⟩, _, put, rest⟩ := Ends.bind_ok_iff.1 chosen
    obtain ⟨same, rfl⟩ := Ends.pure_iff.1 rest
    cases same
    rcases ends_putTable.1 put with ⟨-, -, rfl⟩ | ⟨-, impossible, -⟩
    · exact ⟨rfl, Or.inl ⟨isPrivate, rfl, rfl⟩⟩
    · cases impossible
  case isFalse isNamed =>
    unfold openFile at chosen
    obtain ⟨path, _, found, rest⟩ := Ends.bind_ok_iff.1 (Ends.get_bind_iff.1 chosen)
    obtain ⟨located, rfl⟩ := ends_ofOutcome_ok.1 found
    obtain ⟨state, made, looked, begun⟩ := Ends.bind_ok_iff.1 rest
    obtain ⟨opened, rfl⟩ := ends_ofOutcome_ok.1 looked
    have isNamed : address.isPrivate = false := by simpa using isNamed
    have leads := Address.locate_path located
    cases state with
    | held =>
        obtain ⟨same, rfl⟩ := Ends.pure_iff.1 begun
        cases same
        exact ⟨rfl, Or.inr ⟨isNamed, leads, Or.inl ⟨rfl, Address.table_of_held opened⟩⟩⟩
    | fresh =>
        obtain ⟨⟨⟩, _, put, last⟩ := Ends.bind_ok_iff.1 begun
        obtain ⟨same, rfl⟩ := Ends.pure_iff.1 last
        cases same
        rcases ends_putTable.1 put with ⟨-, -, rfl⟩ | ⟨-, impossible, -⟩
        · exact ⟨rfl, Or.inr ⟨isNamed, leads,
            Or.inr ⟨fun t => Address.not_ledger_of_fresh opened, rfl⟩⟩⟩
        · cases impossible

/-- One text opens one archive, whatever is on the disk. -/
theorem openAt_same (first : Ends (openAt workingDir text) v (.ok a) v') {u u' : Device}
    (second : Ends (openAt workingDir text) u (.ok a') u') : a' = a := by
  obtain ⟨address, _, read, -, readOnly, kind⟩ := openAt_cases first
  obtain ⟨address', _, read', -, readOnly', kind'⟩ := openAt_cases second
  rw [read] at read'
  cases read'
  have samePath : a'.path = a.path := by
    rcases kind with ⟨isPrivate, path, -⟩ | ⟨isNamed, path, -⟩ <;>
      rcases kind' with ⟨isPrivate', path', -⟩ | ⟨isNamed', path', -⟩
    · rw [path, path']
    · simp [isPrivate] at isNamed'
    · simp [isPrivate'] at isNamed
    · rw [path, path']
  obtain ⟨p, readOnly₁⟩ := a
  obtain ⟨q, readOnly₂⟩ := a'
  cases samePath
  cases readOnly
  cases readOnly'
  rfl

theorem tableAt_put {t : Table} (notRoot : a.path ≠ []) :
    tableAt (a.put t v).disk a.path = .ok t := by
  have there : (a.put t v).disk.node? a.path = some (.ledger t) := Disk.node?_set_self notRoot
  rw [tableAt, there]

/-- Where nothing has been, an archive is opened without rows. -/
theorem openAt_new (h : Ends (openAt workingDir text) v (.ok a) v')
    (nothing : v.disk.node? a.path = none) : tableAt v'.disk a.path = .ok .fresh := by
  have notRoot : a.path ≠ [] := by
    intro root
    simp [root, Disk.node?] at nothing
  obtain ⟨address, made, -, grows, -, ⟨-, -, rfl⟩ | ⟨-, -, ⟨rfl, t, table⟩ | ⟨-, rfl⟩⟩⟩ := openAt_cases h
  · exact tableAt_put notRoot
  · rcases grows a.path with same | ⟨-, directory⟩
    · simp [tableAt, same, nothing] at table
    · simp [tableAt, directory] at table
  · exact tableAt_put notRoot

/-! ### One insertion -/

/-- A refused key is reported and nothing else happens. -/
theorem insert_of_error {s : Submission} {cause : Fault} (refused : s.key = .error cause) :
    Ends (a.insert s) v (.ok (.failed cause)) v := by
  unfold insert orFailed
  rw [Submission.entry_of_error refused]
  exact Ends.tryCatch_iff.2
    (Or.inr ⟨_, v, Ends.bind_iff.2 (Or.inr ⟨_, ends_fail.2 ⟨rfl, rfl⟩, rfl⟩), Ends.pure_iff.2 ⟨rfl, rfl⟩⟩)

/-- The archive can be written, and its table is one that it has made, with these rows. -/
structure Holds (a : Archive) (v : Device) (rows : List ArchiveEntry) : Prop where
  writable : a.isReadOnly = false
  table : tableAt v.disk a.path = .ok ⟨.standard, rows⟩
  own : rows ≠ [] → v.disk.node? a.path = some (.ledger ⟨.standard, rows⟩)

namespace Holds

variable {rows : List ArchiveEntry} {s : Submission} {tf : Timeframe}

theorem path_ne_root (holds : Holds a v rows) : a.path ≠ [] := by
  intro root
  have table := holds.table
  simp [tableAt, root, Disk.node?] at table

theorem put (holds : Holds a v rows) (more : List ArchiveEntry) :
    Holds a (a.put ⟨.standard, more⟩ v) more := by
  exact ⟨holds.writable, tableAt_put holds.path_ne_root,
    fun _ => Disk.node?_set_self holds.path_ne_root⟩

/-- The table has every column that an answer needs. -/
theorem tableWith (holds : Holds a v rows) (fields : List ArchiveEntry.Field) :
    Ends (a.tableWith fields) v (.ok ⟨.standard, rows⟩) v := by
  have has : Table.has ⟨.standard, rows⟩ fields = true := by
    rw [Table.has, List.all_eq_true]
    intro f _
    cases f <;> rfl
  unfold Archive.tableWith
  rw [Ends.get_bind_iff, Ends.bind_of (ends_ofOutcome_ok.2 ⟨holds.table, rfl⟩), if_pos has]
  exact Ends.pure_iff.2 ⟨rfl, rfl⟩

/-- A submission with a sound key is put into the table or finds its key there. -/
theorem insert_of_key (holds : Holds a v rows) (accepted : s.key = .ok tf) :
    let found := Table.insert? ⟨.standard, rows⟩ s.row
    Ends (a.insert s) v (.ok (if found.isSome then .inserted else .duplicate))
      (a.put (found.getD ⟨.standard, rows⟩) v) := by
  intro found
  unfold insert orFailed
  rw [Submission.entry_of_key accepted]
  refine Ends.tryCatch_iff.2 (Or.inl ⟨_, ?_, rfl⟩)
  rw [Ends.bind_of (ends_ofOutcome_ok.2 ⟨rfl, rfl⟩), Ends.bind_of (holds.tableWith _),
    Ends.bind_of (ends_putTable.2 (Or.inl ⟨holds.writable, rfl, rfl⟩))]
  exact Ends.pure_iff.2 ⟨rfl, rfl⟩

/-- The first submission of a key is stored. -/
theorem insert_first (holds : Holds a v rows) (accepted : s.key = .ok tf)
    (free : Table.find? ⟨.standard, rows⟩ s.symbol s.label s.openTime = none) :
    Ends (a.insert s) v (.ok .inserted) (a.put ⟨.standard, rows ++ [s.row]⟩ v) := by
  simpa [Table.insert?_standard, free] using holds.insert_of_key accepted

/-- Every further submission of a key is reported as such, and nothing that stands on the disk
changes. -/
theorem insert_again (holds : Holds a v rows) (accepted : s.key = .ok tf)
    (taken : (Table.find? ⟨.standard, rows⟩ s.symbol s.label s.openTime).isSome = true) :
    Ends (a.insert s) v (.ok .duplicate) (a.put ⟨.standard, rows⟩ v) := by
  simpa [Table.insert?_standard, taken] using holds.insert_of_key accepted

/-- Opening the file of an archive again leaves its rows. -/
theorem reopened (holds : Holds a v rows) {address : Address} (read : Address.read text = .ok address)
    (isNamed : address.isPrivate = false) (h : Ends (openAt workingDir text) v (.ok a) v') :
    Holds a v' rows := by
  obtain ⟨address', made, read', grows, -, kind⟩ := openAt_cases h
  rw [read] at read'
  cases read'
  have sameNode : made.disk.node? a.path = v.disk.node? a.path := by
    refine (grows a.path).resolve_right fun ⟨nothing, _⟩ => ?_
    have table := holds.table
    simp [tableAt, nothing] at table
  have still : Holds a made rows :=
    ⟨holds.writable, by rw [tableAt, sameNode]; exact holds.table, sameNode ▸ holds.own⟩
  rcases kind with ⟨isPrivate, -, -⟩ | ⟨-, -, ⟨rfl, -⟩ | ⟨noLedger, rfl⟩⟩
  · simp [isPrivate] at isNamed
  · exact still
  · have none : rows = [] := by
      by_contra some
      exact noLedger _ (still.own some)
    subst none
    exact still.put []

end Holds

/-! ### Runs -/

/-- The address of the text names a file, so that what is stored there can be opened again. -/
def NamesFile (text : String) : Prop :=
  ∃ address, Address.read text = .ok address ∧ address.isPrivate = false

/-- A call for an insertion, and what was reported of it. -/
structure Call where
  submission : Submission
  result : InsertResult

namespace Call

/-- The call has stored its row. -/
def isStored (c : Call) : Bool :=
  decide (c.result = .inserted)

/-- The call has stored its row, and it stands at a key. -/
structure StoredAt (c : Call) (symbol label : String) (opened : Int) : Prop where
  stored : c.result = .inserted
  symbol : c.submission.symbol = symbol
  label : c.submission.label = label
  openTime : c.submission.openTime = opened

end Call

/-- The rows of the calls that were reported to have stored one, in their order. -/
def storedRows (calls : List Call) : List ArchiveEntry :=
  (calls.filter Call.isStored).map (·.submission.row)

/-- The calls since an archive was first opened, without rows then, and the device behind them.  An
archive in a file may be opened again at any time, and whatever leaves its file alone may happen in
between. -/
inductive Reached (workingDir : Disk.Path) (text : String) : List Call → Archive → Device → Prop
  | opened {a : Archive} {v v' : Device} (ended : Ends (openAt workingDir text) v (.ok a) v')
      (writable : a.isReadOnly = false) (empty : tableAt v'.disk a.path = .ok .fresh) :
      Reached workingDir text [] a v'
  | called {calls : List Call} {a : Archive} {v v' : Device} {s : Submission} {r : InsertResult}
      (before : Reached workingDir text calls a v) (ended : Ends (a.insert s) v (.ok r) v') :
      Reached workingDir text (calls ++ [⟨s, r⟩]) a v'
  | reopened {calls : List Call} {a a' : Archive} {v v' : Device}
      (before : Reached workingDir text calls a v) (named : NamesFile text)
      (ended : Ends (openAt workingDir text) v (.ok a') v') : Reached workingDir text calls a' v'
  | elsewhere {calls : List Call} {a : Archive} {v v' : Device}
      (before : Reached workingDir text calls a v)
      (same : v'.disk.node? a.path = v.disk.node? a.path) : Reached workingDir text calls a v'

/-- A run may begin with any archive that is opened where nothing has been. -/
theorem Reached.of_new (ended : Ends (openAt workingDir text) v (.ok a) v')
    (writable : a.isReadOnly = false) (nothing : v.disk.node? a.path = none) :
    Reached workingDir text [] a v' :=
  .opened ended writable (openAt_new ended nothing)

variable {calls : List Call} {e : ArchiveEntry} {s : Submission} {r : InsertResult}
  {symbol label : String} {opened : Int}

theorem mem_storedRows :
    e ∈ storedRows calls ↔ ∃ c ∈ calls, c.result = .inserted ∧ c.submission.row = e := by
  simp [storedRows, Call.isStored, and_assoc]

theorem storedRows_concat (calls : List Call) (c : Call) :
    storedRows (calls ++ [c]) =
      storedRows calls ++ if c.result = .inserted then [c.submission.row] else [] := by
  by_cases stored : c.result = .inserted <;> simp [storedRows, Call.isStored, stored]

/-- A row stands at a key exactly if a call has stored one there. -/
theorem mem_storedRows_at :
    (∃ e ∈ storedRows calls, e.hasKey symbol label opened = true) ↔
      ∃ c ∈ calls, c.StoredAt symbol label opened := by
  simp only [mem_storedRows, ArchiveEntry.hasKey_iff]
  constructor
  · rintro ⟨_, ⟨c, hc, stored, rfl⟩, rfl, rfl, rfl⟩
    exact ⟨c, hc, stored, rfl, rfl, rfl⟩
  · rintro ⟨c, hc, stored, rfl, rfl, rfl⟩
    exact ⟨_, ⟨c, hc, stored, rfl⟩, rfl, rfl, rfl⟩

/-- What every run keeps: the archive is the one of its text, and it holds the rows of the calls that
were reported to have stored one, of which no two have one key. -/
structure Kept (workingDir : Disk.Path) (text : String) (calls : List Call) (a : Archive)
    (v : Device) : Prop where
  opened : ∃ u u', Ends (openAt workingDir text) u (.ok a) u'
  holds : Holds a v (storedRows calls)
  distinct : Table.Distinct (storedRows calls)
  sound : ∀ e ∈ storedRows calls, ∃ tf, e.IsSound tf

namespace Kept

theorem taken_iff (kept : Kept workingDir text calls a v) :
    (Table.find? ⟨.standard, storedRows calls⟩ symbol label opened).isSome = true ↔
      ∃ c ∈ calls, c.StoredAt symbol label opened := by
  rw [Option.isSome_iff_exists, ← mem_storedRows_at]
  exact exists_congr fun e => Table.find?_eq_some kept.distinct

/-- A call that is reported to have stored its row adds it to the rows, and any other call leaves them
as they are. -/
theorem called (kept : Kept workingDir text calls a v) (ended : Ends (a.insert s) v (.ok r) v') :
    Kept workingDir text (calls ++ [⟨s, r⟩]) a v' := by
  obtain ⟨opened, holds, distinct, sound⟩ := kept
  cases keyed : s.key with
  | error cause =>
      obtain ⟨same, rfl⟩ := ended.unique (insert_of_error keyed)
      cases same
      have unchanged : storedRows (calls ++ [⟨s, .failed cause⟩]) = storedRows calls := by
        simp [storedRows_concat]
      exact ⟨opened, by rwa [unchanged], by rwa [unchanged], by rwa [unchanged]⟩
  | ok tf =>
      cases found : Table.find? ⟨.standard, storedRows calls⟩ s.symbol s.label s.openTime with
      | some e =>
          obtain ⟨same, rfl⟩ := ended.unique (holds.insert_again keyed (by simp [found]))
          cases same
          have unchanged : storedRows (calls ++ [⟨s, .duplicate⟩]) = storedRows calls := by
            simp [storedRows_concat]
          exact ⟨opened, by rw [unchanged]; exact holds.put _, by rwa [unchanged], by rwa [unchanged]⟩
      | none =>
          obtain ⟨same, rfl⟩ := ended.unique (holds.insert_first keyed found)
          cases same
          have added : storedRows (calls ++ [⟨s, .inserted⟩]) = storedRows calls ++ [s.row] := by
            simp [storedRows_concat]
          refine ⟨opened, by rw [added]; exact holds.put _, ?_, ?_⟩
          · rw [added]
            exact distinct.concat found
          · rw [added]
            intro e he
            rcases List.mem_append.1 he with he | he
            · exact sound e he
            · rw [List.mem_singleton.1 he]
              exact ⟨tf, Submission.row_sound keyed⟩

end Kept

theorem Reached.kept (reached : Reached workingDir text calls a v) :
    Kept workingDir text calls a v := by
  induction reached with
  | opened ended writable empty =>
      exact ⟨⟨_, _, ended⟩, ⟨writable, empty, fun some => absurd rfl some⟩, List.Pairwise.nil,
        by simp [storedRows]⟩
  | called _ ended ih => exact ih.called ended
  | reopened _ named ended ih =>
      obtain ⟨address, read, isNamed⟩ := named
      obtain ⟨u, u', first⟩ := ih.opened
      obtain rfl := openAt_same first ended
      exact ⟨ih.opened, ih.holds.reopened read isNamed ended, ih.distinct, ih.sound⟩
  | elsewhere _ same ih =>
      obtain ⟨writable, table, own⟩ := ih.holds
      exact ⟨ih.opened, ⟨writable, by rw [tableAt, same]; exact table, same ▸ own⟩, ih.distinct,
        ih.sound⟩

/-! ### Answers -/

/-- A table put in place of the same table leaves everything on the disk as it is. -/
theorem Holds.put_same {rows : List ArchiveEntry} (holds : Holds a v rows) (some : rows ≠ [])
    (q : Disk.Path) : (a.put ⟨.standard, rows⟩ v).disk.node? q = v.disk.node? q := by
  by_cases own : q = a.path
  · rw [own, holds.own some]
    exact Disk.node?_set_self holds.path_ne_root
  · exact Disk.node?_set_other own

namespace Kept

variable (kept : Kept workingDir text calls a v)

include kept

theorem insert_answer (s : Submission) :
    ∃ r v', Ends (a.insert s) v (.ok r) v' ∧
      (∀ cause, r = .failed cause ↔ s.key = .error cause) ∧
      (r = .inserted ↔
        (∃ tf, s.key = .ok tf) ∧ ¬ ∃ c ∈ calls, c.StoredAt s.symbol s.label s.openTime) ∧
      (r = .duplicate ↔
        (∃ tf, s.key = .ok tf) ∧ ∃ c ∈ calls, c.StoredAt s.symbol s.label s.openTime) ∧
      (r ≠ .inserted → v'.process = v.process ∧ v'.fates = v.fates ∧
        ∀ q, v'.disk.node? q = v.disk.node? q) := by
  have taken : (Table.find? ⟨.standard, storedRows calls⟩ s.symbol s.label s.openTime).isSome = true ↔
      ∃ c ∈ calls, c.StoredAt s.symbol s.label s.openTime := kept.taken_iff
  cases keyed : s.key with
  | error cause =>
      exact ⟨_, _, insert_of_error keyed, by simp, by simp, by simp, fun _ => ⟨rfl, rfl, fun _ => rfl⟩⟩
  | ok tf =>
      by_cases stored : ∃ c ∈ calls, c.StoredAt s.symbol s.label s.openTime
      · have some : storedRows calls ≠ [] := by
          obtain ⟨e, he, -⟩ := mem_storedRows_at.2 stored
          exact List.ne_nil_of_mem he
        exact ⟨_, _, kept.holds.insert_again keyed (taken.2 stored), by simp, by simp [stored],
          by simp [stored], fun _ => ⟨rfl, rfl, kept.holds.put_same some⟩⟩
      · have free : Table.find? ⟨.standard, storedRows calls⟩ s.symbol s.label s.openTime = none := by
          rw [← Option.not_isSome_iff_eq_none, taken]
          exact stored
        exact ⟨_, _, kept.holds.insert_first keyed free, by simp, by simp [stored], by simp [stored],
          fun other => absurd rfl other⟩

theorem get?_answer (symbol label : String) (opened : Int) :
    ∃ found, Ends (a.get? symbol label opened) v (.ok found) v ∧
      ∀ e, found = some e ↔ ∃ c ∈ calls, c.StoredAt symbol label opened ∧ c.submission.row = e := by
  refine ⟨_, (Ends.bind_of (kept.holds.tableWith _)).2 (Ends.pure_iff.2 ⟨rfl, rfl⟩), fun e => ?_⟩
  rw [Table.find?_eq_some kept.distinct, mem_storedRows, ArchiveEntry.hasKey_iff]
  constructor
  · rintro ⟨⟨c, hc, stored, rfl⟩, rfl, rfl, rfl⟩
    exact ⟨c, hc, ⟨stored, rfl, rfl, rfl⟩, rfl⟩
  · rintro ⟨c, hc, ⟨stored, rfl, rfl, rfl⟩, rfl⟩
    exact ⟨⟨c, hc, stored, rfl⟩, rfl, rfl, rfl⟩

theorem count_answer (symbol label : String) :
    Ends (a.count symbol label) v
      (.ok (calls.filter fun c => c.result = .inserted ∧ c.submission.symbol = symbol ∧
        c.submission.label = label).length) v := by
  refine (Ends.bind_of (kept.holds.tableWith _)).2 (Ends.pure_iff.2 ⟨?_, rfl⟩)
  simp only [Table.count, Table.belonging, storedRows, List.filter_map, List.length_map,
    List.filter_filter]
  congr 3
  funext c
  rw [Bool.eq_iff_iff]
  simp [Call.isStored, ArchiveEntry.belongsTo, and_comm, and_assoc]

theorem latest?_answer (symbol label : String) :
    ∃ latest, Ends (a.latest? symbol label) v (.ok latest) v ∧
      (∀ ts, latest = some ts ↔
        IsGreatest {o | ∃ c ∈ calls, c.StoredAt symbol label o} ts) ∧
      (latest = none ↔ ∀ c ∈ calls, ∀ o, ¬ c.StoredAt symbol label o) := by
  have times : Table.openTimes (storedRows calls) symbol label =
      {o | ∃ c ∈ calls, c.StoredAt symbol label o} := by
    ext o
    refine Iff.trans ?_ mem_storedRows_at
    simp [Table.openTimes, ArchiveEntry.hasKey]
  refine ⟨_, (Ends.bind_of (kept.holds.tableWith _)).2 (Ends.pure_iff.2 ⟨rfl, rfl⟩), fun ts => ?_, ?_⟩
  · rw [Table.latest?_eq_some, times]
  · rw [Table.latest?_eq_none, times, Set.eq_empty_iff_forall_notMem]
    constructor
    · intro none c hc o stored
      exact none o ⟨c, hc, stored⟩
    · rintro none o ⟨c, hc, stored⟩
      exact none c hc o stored

end Kept

/-- Whatever has been called so far, the next insertion is refused exactly for its key, stored exactly
if no call has stored a row there, and otherwise reported as a duplicate; and unless it is stored,
nothing changes.  What is looked up is what the calls have stored: of each key the row of the one
call that stored it, the number of such calls of a symbol and a timeframe, and the greatest of their
open times.  Every row that is held has a sound key. -/
theorem Reached.first_writer_wins (reached : Reached workingDir text calls a v) :
    (∀ s : Submission, ∃ r v', Ends (a.insert s) v (.ok r) v' ∧
      (∀ cause, r = .failed cause ↔
        requireKey s.symbol s.label s.openTime s.closeTime = .error cause) ∧
      (r = .inserted ↔ (∃ tf, requireKey s.symbol s.label s.openTime s.closeTime = .ok tf) ∧
        ¬ ∃ c ∈ calls, c.StoredAt s.symbol s.label s.openTime) ∧
      (r = .duplicate ↔ (∃ tf, requireKey s.symbol s.label s.openTime s.closeTime = .ok tf) ∧
        ∃ c ∈ calls, c.StoredAt s.symbol s.label s.openTime) ∧
      (r ≠ .inserted → v'.process = v.process ∧ v'.fates = v.fates ∧
        ∀ q, v'.disk.node? q = v.disk.node? q)) ∧
    (∀ symbol label opened, ∃ found, Ends (a.get? symbol label opened) v (.ok found) v ∧
      ∀ e, found = some e ↔ ∃ c ∈ calls, c.StoredAt symbol label opened ∧ c.submission.row = e) ∧
    ((calls.filter Call.isStored).Pairwise fun c d =>
      ¬ c.StoredAt d.submission.symbol d.submission.label d.submission.openTime) ∧
    (∀ symbol label, Ends (a.count symbol label) v
      (.ok (calls.filter fun c => c.result = .inserted ∧ c.submission.symbol = symbol ∧
        c.submission.label = label).length) v) ∧
    (∀ symbol label, ∃ latest, Ends (a.latest? symbol label) v (.ok latest) v ∧
      (∀ ts, latest = some ts ↔ IsGreatest {o | ∃ c ∈ calls, c.StoredAt symbol label o} ts) ∧
      (latest = none ↔ ∀ c ∈ calls, ∀ o, ¬ c.StoredAt symbol label o)) ∧
    ∃ rows, tableAt v.disk a.path = .ok ⟨.standard, rows⟩ ∧
      (∀ e, e ∈ rows ↔ ∃ c ∈ calls, c.result = .inserted ∧ c.submission.row = e) ∧
      ∀ e ∈ rows, ∃ tf, e.IsSound tf := by
  have kept := reached.kept
  refine ⟨kept.insert_answer, kept.get?_answer, ?_, kept.count_answer, kept.latest?_answer,
    storedRows calls, kept.holds.table, fun e => mem_storedRows, kept.sound⟩
  have apart := List.pairwise_map.1 kept.distinct
  refine apart.imp fun {c d} different stored => ?_
  have same : c.submission.row.hasKey d.submission.symbol d.submission.label d.submission.openTime =
      true := ArchiveEntry.hasKey_iff.2 ⟨stored.symbol, stored.label, stored.openTime⟩
  exact Bool.false_ne_true (different.symm.trans same)

/-- A bar of one minute. -/
def goldBar : Submission :=
  ⟨"XAUUSD", "1m", 1700000040000, 1700000099999, .arr [], 1700000100000⟩

/-- The archive of a file in the root. -/
def goldArchive : Archive := ⟨["bars.db"], false⟩

/-- A device with an archive of some rows, and with nothing else. -/
def goldDevice (rows : List ArchiveEntry) : Device :=
  .sound ⟨[(["bars.db"], .ledger ⟨.standard, rows⟩)]⟩ 1

/-- The bar, another bar of its key, and a bar that is too short. -/
def goldCalls : List Call :=
  [⟨goldBar, .inserted⟩, ⟨{ goldBar with payload := .null }, .duplicate⟩,
    ⟨{ goldBar with closeTime := 1700000040000 },
      .failed (.contract (.wrongClose 1700000099999 1700000040000))⟩]

theorem goldCalls_reached :
    Reached [] "/bars.db" goldCalls goldArchive (goldDevice [goldBar.row]) := by
  have began : Ends (openAt [] "/bars.db") (.sound .empty 1) (.ok goldArchive) (goldDevice []) := rfl
  have started : Reached [] "/bars.db" [] goldArchive (goldDevice []) := .of_new began rfl rfl
  have stored : Reached [] "/bars.db" (goldCalls.take 1) goldArchive (goldDevice [goldBar.row]) :=
    .called started rfl
  have repeated : Reached [] "/bars.db" (goldCalls.take 2) goldArchive (goldDevice [goldBar.row]) :=
    .called stored rfl
  have refused : Reached [] "/bars.db" goldCalls goldArchive (goldDevice [goldBar.row]) :=
    .called repeated rfl
  exact .reopened refused ⟨_, rfl, rfl⟩ rfl

/-- The first bar stays the one that is found, also when the archive has been opened again. -/
theorem goldArchive_first_writer :
    Reached [] "/bars.db" goldCalls goldArchive (goldDevice [goldBar.row]) ∧
      Ends (goldArchive.get? "XAUUSD" "1m" 1700000040000) (goldDevice [goldBar.row])
        (.ok (some goldBar.row)) (goldDevice [goldBar.row]) ∧
      Ends (goldArchive.count "XAUUSD" "1m") (goldDevice [goldBar.row]) (.ok 1)
        (goldDevice [goldBar.row]) := by
  obtain ⟨-, get, -, count, -⟩ := goldCalls_reached.first_writer_wins
  obtain ⟨found, looked, isRow⟩ := get "XAUUSD" "1m" 1700000040000
  have row : found = some goldBar.row :=
    (isRow _).2 ⟨⟨goldBar, .inserted⟩, by simp [goldCalls], ⟨rfl, rfl, rfl, rfl⟩, rfl⟩
  exact ⟨goldCalls_reached, row ▸ looked, count "XAUUSD" "1m"⟩

end Archive

end MarketBook
