/-
Module: MarketBook.Proofs.ArchiveTables
Purpose: Which keys the archive accepts, and what its table answers about the rows that it holds.
Main exports:
  Archive.requireKey_eq_ok, Archive.Submission.entry_eq_ok, Archive.Table.Distinct,
  Archive.Table.insert?_standard, Archive.Table.find?_eq_some, Archive.Table.latest?_eq_some
-/
import Mathlib.Order.Bounds.Basic
import MarketBook.Archive.Submission
import MarketBook.Archive.Table
import MarketBook.Proofs.Outcomes

namespace MarketBook

open Time Outcome

/-!
The table that the archive makes has one key, so a row can be added exactly where no row stands yet,
and no two rows ever stand at one key.  Then looking up a key gives the one row that there is.
-/

/-- The row could have been stored by the archive: its symbol is not blank, its label is canonical,
and its times are those of a bar that fills a bucket. -/
structure ArchiveEntry.IsSound (e : ArchiveEntry) (tf : Timeframe) : Prop where
  symbol : Text.allBlank e.symbol = false
  label : e.tf = tf.label
  onTheRails : onRails e.openTime = true
  aligned : e.openTime % tf.ms = 0
  closes : e.closeTime = e.openTime + tf.ms - 1

theorem ArchiveEntry.hasKey_iff {e : ArchiveEntry} {symbol tf : String} {opened : Int} :
    e.hasKey symbol tf opened = true ↔ e.symbol = symbol ∧ e.tf = tf ∧ e.openTime = opened := by
  simp [hasKey, belongsTo, and_assoc]

namespace Archive

/-! ### Keys -/

theorem requireLabel_eq_ok {label : String} {tf : Timeframe} :
    requireLabel label = .ok tf ↔ label = tf.label := by
  unfold requireLabel
  split
  case h_1 found named =>
    have same : found.label = label := by simpa using List.find?_some named
    simp only [Except.ok.injEq]
    constructor
    · rintro rfl
      exact same.symm
    · intro named'
      exact Timeframe.label_injective (same.trans named')
  case h_2 none =>
    refine ⟨fun h => absurd h violated_ne_ok, ?_⟩
    rintro rfl
    rw [Timeframe.ofLabel?_label] at none
    cases none

/-- A key is accepted exactly for the times and the label of a bar that fills a bucket. -/
theorem requireKey_eq_ok {symbol label : String} {opened closed : Int} {tf : Timeframe} :
    requireKey symbol label opened closed = .ok tf ↔
      Text.allBlank symbol = false ∧ label = tf.label ∧ onRails opened = true ∧
        opened % tf.ms = 0 ∧ closed = opened + tf.ms - 1 := by
  simp only [requireKey, guard_eq_ok misused_bind_ne_ok, bind_eq_ok (α := Timeframe),
    bind_eq_ok (α := Int), check_eq_ok, requireLabel_eq_ok, requireRails_eq_ok,
    Bucket.requireGeometry_eq_ok, pure_eq_ok, Bool.not_eq_true]
  constructor
  · rintro ⟨filled, tf', labelled, _, ⟨rfl, onTheRails⟩, ⟨aligned, closes⟩, rfl⟩
    exact ⟨filled, labelled, onTheRails, aligned, closes⟩
  · rintro ⟨filled, labelled, onTheRails, aligned, closes⟩
    exact ⟨filled, tf, labelled, opened, ⟨rfl, onTheRails⟩, ⟨aligned, closes⟩, rfl⟩

namespace Submission

/-- The check of the key of a submission. -/
def key (s : Submission) : Outcome Timeframe :=
  requireKey s.symbol s.label s.openTime s.closeTime

/-- The row that a submission becomes if it is stored. -/
def row (s : Submission) : ArchiveEntry :=
  ⟨s.symbol, s.label, s.openTime, s.closeTime, s.payload.compact, s.ingestTime⟩

@[simp] theorem row_symbol (s : Submission) : s.row.symbol = s.symbol := rfl

@[simp] theorem row_tf (s : Submission) : s.row.tf = s.label := rfl

@[simp] theorem row_openTime (s : Submission) : s.row.openTime = s.openTime := rfl

/-- A submission with a sound key becomes its row, because a sound label is canonical already. -/
theorem entry_of_key {s : Submission} {tf : Timeframe} (accepted : s.key = .ok tf) :
    s.entry = .ok s.row := by
  have labelled : s.label = tf.label := (requireKey_eq_ok.1 accepted).2.1
  unfold key at accepted
  rw [entry, accepted, row, labelled]
  rfl

theorem entry_of_error {s : Submission} {cause : Fault} (refused : s.key = .error cause) :
    s.entry = .error cause := by
  unfold key at refused
  rw [entry, refused]
  rfl

theorem row_sound {s : Submission} {tf : Timeframe} (accepted : s.key = .ok tf) :
    s.row.IsSound tf := by
  obtain ⟨filled, labelled, onTheRails, aligned, closes⟩ := requireKey_eq_ok.1 accepted
  exact ⟨filled, labelled, onTheRails, aligned, closes⟩

end Submission

/-! ### Tables -/

namespace Table

variable {entries : List ArchiveEntry} {e : ArchiveEntry} {symbol tf : String} {opened : Int}

/-- No two rows stand at one key. -/
def Distinct (entries : List ArchiveEntry) : Prop :=
  entries.Pairwise fun e f => e.hasKey f.symbol f.tf f.openTime = false

/-- Looking up a key finds the row that stands there. -/
theorem find?_eq_some (distinct : Distinct entries) :
    find? ⟨.standard, entries⟩ symbol tf opened = some e ↔
      e ∈ entries ∧ e.hasKey symbol tf opened = true := by
  unfold find?
  constructor
  · intro found
    exact ⟨List.mem_of_find?_eq_some found, by simpa using List.find?_some found⟩
  · rintro ⟨stored, atKey⟩
    induction entries with
    | nil => cases stored
    | cons f rest ih =>
        obtain ⟨first, others⟩ := List.pairwise_cons.1 distinct
        rcases List.mem_cons.1 stored with rfl | stored
        · simp [atKey]
        · have elsewhere : f.hasKey symbol tf opened = false := by
            obtain ⟨rfl, rfl, rfl⟩ := ArchiveEntry.hasKey_iff.1 atKey
            exact first e stored
          simp only [List.find?_cons, elsewhere]
          exact ih others stored

theorem find?_eq_none :
    find? ⟨.standard, entries⟩ symbol tf opened = none ↔
      ∀ e ∈ entries, e.hasKey symbol tf opened = false := by
  simp [find?]

/-- A row is added exactly where none stands yet. -/
theorem insert?_standard :
    insert? ⟨.standard, entries⟩ e =
      if (find? ⟨.standard, entries⟩ e.symbol e.tf e.openTime).isSome then none
      else some ⟨.standard, entries ++ [e]⟩ := by
  rw [insert?, holdsKeyOf_standard]
  rfl

theorem Distinct.concat (distinct : Distinct entries)
    (free : find? ⟨.standard, entries⟩ e.symbol e.tf e.openTime = none) :
    Distinct (entries ++ [e]) := by
  refine List.pairwise_append.2 ⟨distinct, List.pairwise_singleton _ _, fun f hf g hg => ?_⟩
  rw [List.mem_singleton.1 hg]
  exact find?_eq_none.1 free f hf

/-- The open times of the rows of a symbol and a timeframe. -/
def openTimes (entries : List ArchiveEntry) (symbol tf : String) : Set Int :=
  {o | ∃ e ∈ entries, e.belongsTo symbol tf = true ∧ e.openTime = o}

theorem foldl_later (rows : List ArchiveEntry) : ∀ ts : Int,
    ∃ latest, rows.foldl later (some ts) = some latest ∧
      IsGreatest {o | o = ts ∨ ∃ e ∈ rows, e.openTime = o} latest := by
  induction rows with
  | nil => exact fun ts => ⟨ts, rfl, by simp, by simp [upperBounds]⟩
  | cons e rest ih =>
      intro ts
      obtain ⟨latest, found, isOne, above⟩ := ih (max ts e.openTime)
      refine ⟨latest, found, ?_, ?_⟩
      · rcases isOne with first | ⟨f, hf, same⟩
        · rcases Int.le_total e.openTime ts with before | behind
          · exact Or.inl (by omega)
          · exact Or.inr ⟨e, by simp, by omega⟩
        · exact Or.inr ⟨f, by simp [hf], same⟩
      · have greater : max ts e.openTime ≤ latest := above (Or.inl rfl)
        rintro o (rfl | ⟨f, hf, rfl⟩)
        · omega
        · rcases List.mem_cons.1 hf with rfl | hf
          · omega
          · exact above (Or.inr ⟨f, hf, rfl⟩)

/-- The latest open time is the greatest one, if there is any row at all. -/
theorem latest?_cases (t : Table) (symbol tf : String) :
    (t.latest? symbol tf = none ∧ openTimes t.entries symbol tf = ∅) ∨
      ∃ latest, t.latest? symbol tf = some latest ∧
        IsGreatest (openTimes t.entries symbol tf) latest := by
  have own : openTimes t.entries symbol tf = {o | ∃ e ∈ t.belonging symbol tf, e.openTime = o} := by
    simp [openTimes, belonging, and_assoc]
  rw [own]
  unfold latest?
  cases t.belonging symbol tf with
  | nil => exact Or.inl ⟨rfl, by simp⟩
  | cons e rest =>
      obtain ⟨latest, found, greatest⟩ := foldl_later rest e.openTime
      refine Or.inr ⟨latest, found, ?_⟩
      simpa [eq_comm] using greatest

theorem latest?_eq_some {t : Table} {ts : Int} :
    t.latest? symbol tf = some ts ↔ IsGreatest (openTimes t.entries symbol tf) ts := by
  rcases latest?_cases t symbol tf with ⟨none, empty⟩ | ⟨latest, found, greatest⟩
  · simp [none, empty, IsGreatest]
  · rw [found, Option.some.injEq]
    constructor
    · rintro rfl
      exact greatest
    · exact greatest.unique

theorem latest?_eq_none {t : Table} :
    t.latest? symbol tf = none ↔ openTimes t.entries symbol tf = ∅ := by
  rcases latest?_cases t symbol tf with ⟨none, empty⟩ | ⟨latest, found, greatest⟩
  · simp [none, empty]
  · simp only [found, reduceCtorEq, false_iff]
    exact Set.Nonempty.ne_empty ⟨latest, greatest.1⟩

end Table

end Archive

end MarketBook
