/-
Module: MarketBook.Proofs.CacheOperations
Purpose: What each operation of a cache can do to memory and disk, however it ends.
Main exports:
  BarCache.metaOn, BarCache.rowsOn, BarCache.load_cases, BarCache.append_cases,
  BarCache.ends_mergeAndTrim, BarCache.save_cases, BarCache.appendStream_cases,
  BarCache.markPublished_cases
-/
import MarketBook.Proofs.Publication
import MarketBook.Proofs.SoundBars

namespace MarketBook

/-!
Reading never changes a disk, and the operations in memory never ask one; only a save writes, and it
writes the two files of the binding one after the other.  Each operation has one statement here that
says all it can do, and what holds of whole runs is derived from these statements alone.
-/

namespace Disk

/-- What a reader finds at a place: a content, nothing, or something that is no file. -/
def contentAt (d : Disk) (p : Place) : Outcome (Option Text.Octets) :=
  match d.read p with
  | .ok content => .ok (some content)
  | .error .absent => .ok none
  | .error .refused => .error .io

/-- What a reader of texts finds at a place. -/
def textAt (d : Disk) (p : Place) : Outcome (Option String) :=
  match d.contentAt p with
  | .ok none => .ok none
  | .ok (some content) =>
    match Text.decode? content with
    | some text => .ok (some text)
    | none => .error .io
  | .error cause => .error cause

end Disk

namespace Device

variable {v v' : Device}

/-- A device that differs in its store of fates alone. -/
structure SameDisk (v v' : Device) : Prop where
  disk : v'.disk = v.disk
  process : v'.process = v.process

theorem SameDisk.trans {w : Device} (first : SameDisk v v') (second : SameDisk v' w) :
    SameDisk v w :=
  ⟨second.disk.trans first.disk, second.process.trans first.process⟩

theorem readFile?_cases {p : Place} {r : Except Halt (Option Text.Octets)}
    (h : Ends (readFile? p) v r v') :
    SameDisk v v' ∧ ∀ found, r = .ok found → v.disk.contentAt p = .ok found := by
  rcases ends_whole.1 h with ⟨kept, -, rfl, rfl⟩ | ⟨kept, -, rfl, rfl⟩ | ⟨-, done⟩
  · exact ⟨⟨rfl, rfl⟩, nofun⟩
  · exact ⟨⟨rfl, rfl⟩, nofun⟩
  · unfold Disk.contentAt
    cases found : v.disk.read p with
    | ok content =>
        rcases done with ⟨a, d, same, rfl, rfl⟩ | ⟨e, impossible, -⟩
        · simp only [found, Except.map, Except.ok.injEq, Prod.mk.injEq] at same
          obtain ⟨rfl, rfl⟩ := same
          exact ⟨⟨rfl, rfl⟩, fun a ha => by cases ha; rfl⟩
        · simp [found, Except.map] at impossible
    | error e =>
        rcases done with ⟨a, d, impossible, -⟩ | ⟨e', same, rfl, rfl⟩
        · simp [found, Except.map] at impossible
        · simp only [found, Except.map, Except.error.injEq] at same
          subst same
          cases e with
          | absent => exact ⟨⟨rfl, rfl⟩, fun a ha => by cases ha; rfl⟩
          | refused => exact ⟨⟨rfl, rfl⟩, nofun⟩

theorem readText?_cases {p : Place} {r : Except Halt (Option String)}
    (h : Ends (readText? p) v r v') :
    SameDisk v v' ∧ ∀ found, r = .ok found → v.disk.textAt p = .ok found := by
  unfold Disk.textAt
  rcases Ends.bind_iff.1 h with ⟨found, w, read, h⟩ | ⟨e, read, rfl⟩
  · obtain ⟨sameDisk, held⟩ := readFile?_cases read
    rw [held found rfl]
    cases found with
    | none =>
        obtain ⟨rfl, rfl⟩ := Ends.pure_iff.1 h
        exact ⟨sameDisk, fun a ha => by cases ha; rfl⟩
    | some content =>
        cases spelled : Text.decode? content with
        | none =>
            simp only [spelled] at h
            obtain ⟨rfl, rfl⟩ := ends_fail.1 h
            exact ⟨sameDisk, nofun⟩
        | some text =>
            simp only [spelled] at h
            obtain ⟨rfl, rfl⟩ := Ends.pure_iff.1 h
            exact ⟨sameDisk, fun a ha => by cases ha; simp only [spelled]⟩
  · exact ⟨(readFile?_cases read).1, nofun⟩

end Device

namespace BarCache

open Device Text

/-- The metadata that a disk holds for a cache; blank where there is no file. -/
def metaOn (c : BarCache) (d : Disk) : Outcome CacheMeta :=
  match d.textAt c.metaPlace with
  | .ok none => .ok .blank
  | .ok (some text) => CacheMeta.read text
  | .error cause => .error cause

/-- The rows that a disk holds for a cache; none where there is no file. -/
def rowsOn (c : BarCache) (d : Disk) : Outcome (List Bar) :=
  match d.contentAt c.tablePlace with
  | .ok none => .ok []
  | .ok (some content) => Table.read c.binding c.tablePlace.shown content
  | .error _ => .error .csv

variable {c : BarCache} {v v' : Device}

/-! ### Reading -/

theorem readMeta_cases {r : Except Halt CacheMeta} (h : Ends c.readMeta v r v') :
    SameDisk v v' ∧ ∀ m, r = .ok m → c.metaOn v.disk = .ok m := by
  rcases Ends.bind_iff.1 h with ⟨text, w, read, h⟩ | ⟨e, read, rfl⟩
  · obtain ⟨sameDisk, held⟩ := readText?_cases read
    cases text with
    | none =>
        obtain ⟨rfl, rfl⟩ := Ends.pure_iff.1 h
        refine ⟨sameDisk, fun m same => ?_⟩
        cases same
        simp [metaOn, held none rfl]
    | some text =>
        obtain ⟨rfl, rfl⟩ := ends_ofOutcome.1 h
        refine ⟨sameDisk, fun m same => ?_⟩
        simpa [metaOn, held (some text) rfl] using Outcome.mapError_eq_ok.1 same
  · exact ⟨(readText?_cases read).1, nofun⟩

theorem readRows_cases {r : Except Halt (List Bar)} (h : Ends c.readRows v r v') :
    SameDisk v v' ∧ ∀ rows, r = .ok rows → c.rowsOn v.disk = .ok rows := by
  rcases Ends.bind_iff.1 h with ⟨found, w, ended, h⟩ | ⟨e, ended, rfl⟩
  · rcases ends_withFault.1 ended with ⟨a, read, same⟩ | ⟨-, impossible⟩ | ⟨cause, -, impossible⟩
    · cases same
      obtain ⟨sameDisk, content⟩ := readFile?_cases read
      have there := content found rfl
      cases found with
      | none =>
          obtain ⟨rfl, rfl⟩ := Ends.pure_iff.1 h
          refine ⟨sameDisk, fun rows same => ?_⟩
          cases same
          simp [rowsOn, there]
      | some content =>
          obtain ⟨rfl, rfl⟩ := ends_ofOutcome.1 h
          refine ⟨sameDisk, fun rows same => ?_⟩
          simpa [rowsOn, there] using Outcome.mapError_eq_ok.1 same
    · cases impossible
    · cases impossible
  · rcases ends_withFault.1 ended with ⟨a, -, impossible⟩ | ⟨stopped, -⟩ | ⟨cause, failed, -⟩
    · cases impossible
    · exact ⟨(readFile?_cases stopped).1, nofun⟩
    · exact ⟨(readFile?_cases failed).1, nofun⟩

variable {s s' : Session}

/-- A load takes both files as the disk holds them, or it leaves the cache as it was. -/
theorem load_cases {r : Except Halt Unit} (h : Ends load s r s') :
    SameDisk s.device s'.device ∧
      ((r = .ok () ∧ ∃ m rows, s.cache.metaOn s.device.disk = .ok m ∧
          s.cache.rowsOn s.device.disk = .ok rows ∧ s'.cache = s.cache.withFiles m rows) ∨
        (∃ e, r = .error e) ∧ s'.cache = s.cache) := by
  unfold load at h
  rw [self_bind_iff] at h
  rcases Ends.bind_iff.1 h with ⟨m, s₁, readM, h⟩ | ⟨e, readM, rfl⟩
  · obtain ⟨v, metaRead, rfl⟩ := ends_onDevice.1 readM
    obtain ⟨sameDisk, held⟩ := readMeta_cases metaRead
    rcases Ends.bind_iff.1 h with ⟨rows, s₂, readR, h⟩ | ⟨e, readR, rfl⟩
    · obtain ⟨w, rowsRead, rfl⟩ := ends_onDevice.1 readR
      obtain ⟨sameDisk₂, rowsHeld⟩ := readRows_cases rowsRead
      obtain ⟨rfl, rfl⟩ := ends_change.1 h
      have rowsThere := rowsHeld rows rfl
      simp only [sameDisk.disk] at rowsThere
      exact ⟨sameDisk.trans sameDisk₂, Or.inl ⟨rfl, m, rows, held m rfl, rowsThere, rfl⟩⟩
    · obtain ⟨w, rowsRead, rfl⟩ := ends_onDevice.1 readR
      exact ⟨sameDisk.trans (readRows_cases rowsRead).1, Or.inr ⟨⟨e, rfl⟩, rfl⟩⟩
  · obtain ⟨v, metaRead, rfl⟩ := ends_onDevice.1 readM
    exact ⟨(readMeta_cases metaRead).1, Or.inr ⟨⟨e, rfl⟩, rfl⟩⟩

/-- A load for a quick start changes nothing. -/
theorem loadWarmup_cases {r : Except Halt (List Bar)} (h : Ends loadWarmup s r s') :
    SameDisk s.device s'.device ∧ s'.cache = s.cache := by
  unfold loadWarmup at h
  rw [self_bind_iff] at h
  rcases Ends.bind_iff.1 h with ⟨rows, s₁, read, h⟩ | ⟨e, read, rfl⟩
  · obtain ⟨v, rowsRead, rfl⟩ := ends_onDevice.1 read
    obtain ⟨-, rfl⟩ := Ends.pure_iff.1 h
    exact ⟨(readRows_cases rowsRead).1, rfl⟩
  · obtain ⟨v, rowsRead, rfl⟩ := ends_onDevice.1 read
    exact ⟨(readRows_cases rowsRead).1, rfl⟩

/-! ### Work in memory -/

/-- An append puts every bar of a batch behind the pending ones, or it leaves all as it was. -/
theorem append_cases {incoming : List Json} {r : Except Halt Nat}
    (h : Ends (append incoming) s r s') :
    (∃ bars, acceptAll s.cache.binding incoming = .ok bars ∧ r = .ok bars.length ∧
        s' = { s with cache := { s.cache with pending := s.cache.pending ++ bars } }) ∨
      (∃ e, r = .error e) ∧ s' = s := by
  unfold append at h
  rw [self_bind_iff] at h
  rcases Ends.bind_iff.1 h with ⟨bars, s₁, accepted, rest⟩ | ⟨e, refused, rfl⟩
  · obtain ⟨same, rfl⟩ := ends_require.1 accepted
    rw [change_bind_iff] at rest
    obtain ⟨rfl, rfl⟩ := Ends.pure_iff.1 rest
    exact Or.inl ⟨bars, Outcome.mapError_eq_ok.1 same.symm, rfl, rfl⟩
  · obtain ⟨-, rfl⟩ := ends_require.1 refused
    exact Or.inr ⟨⟨e, rfl⟩, rfl⟩

/-- The rows after a merge, trimmed to a limit. -/
def mergedRows (c : BarCache) (limit : Option Nat) : List Bar :=
  Rows.trim (limitOr c.maxBars limit) (Rows.merge c.rows c.pending).rows

/-- What a merge reports. -/
def mergeReport (c : BarCache) (limit : Option Nat) : Report where
  inserted := (c.mergedRows limit).length - c.rows.length
  duplicates := (Rows.merge c.rows c.pending).duplicates
  total := (c.mergedRows limit).length
  trimmed := (Rows.merge c.rows c.pending).rows.length - (c.mergedRows limit).length

theorem mergedRows_ascending (c : BarCache) (limit : Option Nat) :
    Rows.Ascending (c.mergedRows limit) :=
  Rows.trim_ascending _ (Rows.merge_ascending c.rows c.pending)

/-- A merge never fails, because the rows that it makes ascend. -/
theorem merged_eq (c : BarCache) (limit : Option Nat) :
    c.merged limit =
      .ok ({ c with rows := c.mergedRows limit, pending := [] }, c.mergeReport limit) := by
  have ascending := Rows.requireAscending_eq_ok.2 (mergedRows_ascending c limit)
  unfold mergedRows at ascending
  simp [merged, ascending, mergedRows, mergeReport, bind, Except.bind, pure, Except.pure]

theorem ends_mergeAndTrim {limit : Option Nat} {r : Except Halt Report} :
    Ends (mergeAndTrim limit) s r s' ↔
      r = .ok (s.cache.mergeReport limit) ∧
        s' = { s with cache :=
          { s.cache with rows := s.cache.mergedRows limit, pending := [] } } := by
  unfold mergeAndTrim
  rw [self_bind_iff, merged_eq]
  simp only [change_bind_iff, Ends.pure_iff]

theorem ends_setHeartbeat {ms : Int} {r : Except Halt Unit} :
    Ends (setHeartbeat ms) s r s' ↔
      r = .ok () ∧ s' = { s with cache :=
        { s.cache with heartbeat := some ms, metadata := { s.cache.metadata with heartbeat := ms } } } :=
  ends_change

/-! ### Saving -/

/-- The cache as a save at an instant leaves it, whether the disk takes it or not. -/
def savedAt (c : BarCache) (now : Int) : BarCache :=
  { c with metadata := c.metaToSave now, heartbeat := none }

/-- A cache that was never loaded refuses to be saved. -/
theorem save_unloaded {now : Int} (unloaded : s.cache.isLoaded = false) {r : Except Halt Unit}
    (h : Ends (save now) s r s') : r = .error (.fault (.input .saveBeforeLoad)) ∧ s' = s := by
  unfold save at h
  rw [self_bind_iff] at h
  simp only [unloaded, Bool.not_false, if_true] at h
  rcases Ends.bind_iff.1 h with ⟨⟨⟩, s₁, passed, -⟩ | ⟨e, refused, rfl⟩
  · cases (ends_require.1 passed).1
  · obtain ⟨same, rfl⟩ := ends_require.1 refused
    cases same
    exact ⟨rfl, rfl⟩

/-- A cache that was never loaded is not saved.  Any other is left as `savedAt` says; then the rows
are published, and if that works the metadata are. -/
theorem save_cases {now : Int} {r : Except Halt Unit} (h : Ends (save now) s r s') :
    (s.cache.isLoaded = false ∧ (∃ e, r = .error e) ∧ s' = s) ∨
      (s.cache.isLoaded = true ∧ s'.cache = s.cache.savedAt now ∧
        ((∃ e, r = .error e ∧ Ends (publishContent s.cache.tablePlace (Table.write s.cache.rows))
            s.device (.error e) s'.device) ∨
          ∃ v, Ends (publishContent s.cache.tablePlace (Table.write s.cache.rows)) s.device
              (.ok ()) v ∧
            Ends (publishContent s.cache.metaPlace (encode (s.cache.metaToSave now).write)) v r
              s'.device)) := by
  cases loaded : s.cache.isLoaded with
  | false =>
      obtain ⟨refused, rfl⟩ := save_unloaded loaded h
      exact Or.inl ⟨rfl, ⟨_, refused⟩, rfl⟩
  | true =>
      unfold save at h
      rw [self_bind_iff] at h
      dsimp only at h
      rw [if_neg (by simp [loaded]), change_bind_iff] at h
      refine Or.inr ⟨rfl, ?_⟩
      rcases Ends.bind_iff.1 h with ⟨⟨⟩, s₁, ended, rest⟩ | ⟨e, ended, rfl⟩
      · obtain ⟨v, published, rfl⟩ := ends_onDevice.1 ended
        obtain ⟨w, metaEnded, rfl⟩ := ends_onDevice.1 rest
        exact ⟨rfl, Or.inr ⟨v, published, metaEnded⟩⟩
      · obtain ⟨v, failed, rfl⟩ := ends_onDevice.1 ended
        exact ⟨rfl, Or.inl ⟨e, rfl, failed⟩⟩

/-- A save sets the heartbeat to the present instant unless one is waiting. -/
def withHeartbeat (c : BarCache) (now : Int) : BarCache :=
  { c with heartbeat := some (c.heartbeat.getD now) }

/-- A stream append loads, appends, merges and saves; it ends where the first of these fails. -/
theorem appendStream_cases {incoming : List Json} {now : Int} {r : Except Halt Report}
    (h : Ends (appendStream incoming now) s r s') :
    ((∃ e, r = .error e) ∧ Ends load s (r.map fun _ => ()) s') ∨
      ∃ s₁, Ends load s (.ok ()) s₁ ∧
        (((∃ e, r = .error e) ∧ s' = s₁) ∨
          ∃ bars, acceptAll s₁.cache.binding incoming = .ok bars ∧
            ∃ merged : BarCache, merged = { s₁.cache with
                rows := { s₁.cache with pending := s₁.cache.pending ++ bars }.mergedRows none
                pending := [] } ∧
              Ends (save now) ⟨merged.withHeartbeat now, s₁.device⟩ (r.map fun _ => ()) s') := by
  unfold appendStream at h
  rcases Ends.bind_iff.1 h with ⟨⟨⟩, s₁, loaded, h₁⟩ | ⟨e, failed, rfl⟩
  · refine Or.inr ⟨s₁, loaded, ?_⟩
    rcases Ends.bind_iff.1 h₁ with ⟨count, s₂, appended, h₂⟩ | ⟨e, refused, rfl⟩
    · rcases append_cases appended with ⟨bars, accepted, -, rfl⟩ | ⟨⟨e, impossible⟩, -⟩
      · refine Or.inr ⟨bars, accepted, _, rfl, ?_⟩
        rw [Ends.bind_of (ends_mergeAndTrim.2 ⟨rfl, rfl⟩), change_bind_iff] at h₂
        rcases Ends.bind_iff.1 h₂ with ⟨⟨⟩, s₃, saved, h₃⟩ | ⟨e, failed, rfl⟩
        · obtain ⟨rfl, rfl⟩ := Ends.pure_iff.1 h₃
          exact saved
        · exact failed
      · cases impossible
    · rcases append_cases refused with ⟨bars, -, impossible, -⟩ | ⟨-, rfl⟩
      · cases impossible
      · exact Or.inl ⟨⟨e, rfl⟩, rfl⟩
  · exact Or.inl ⟨⟨e, rfl⟩, failed⟩

/-- Recording a publication loads the cache if it has to, moves the watermark and saves. -/
theorem markPublished_cases {opened now : Int} {r : Except Halt Unit}
    (h : Ends (markPublished opened now) s r s') :
    ((∃ e, r = .error e) ∧ (s' = s ∨ s.cache.isLoaded = false ∧ Ends load s r s')) ∨
      ∃ s₁, (s₁ = s ∨ s.cache.isLoaded = false ∧ Ends load s (.ok ()) s₁) ∧
        Time.onRails opened = true ∧
        Ends (save now) { s₁ with cache :=
          { s₁.cache with metadata := { s₁.cache.metadata with watermark := opened } } } r s' := by
  unfold markPublished at h
  rcases Ends.bind_iff.1 h with ⟨ts, s₁, passed, h₁⟩ | ⟨e, refused, rfl⟩
  · obtain ⟨same, rfl⟩ := ends_require.1 passed
    obtain ⟨-, onTheRails⟩ := Time.requireRails_eq_ok.1 (Outcome.mapError_eq_ok.1 same.symm)
    rw [self_bind_iff] at h₁
    cases loaded : s₁.cache.isLoaded with
    | true =>
        dsimp only at h₁
        rw [if_neg (by simp [loaded]), change_bind_iff] at h₁
        exact Or.inr ⟨s₁, Or.inl rfl, onTheRails, h₁⟩
    | false =>
        simp only [loaded, Bool.not_false, if_true] at h₁
        rcases Ends.bind_iff.1 h₁ with ⟨⟨⟩, s₂, ended, h₂⟩ | ⟨e, failed, rfl⟩
        · rw [change_bind_iff] at h₂
          exact Or.inr ⟨s₂, Or.inr ⟨rfl, ended⟩, onTheRails, h₂⟩
        · exact Or.inl ⟨⟨e, rfl⟩, Or.inr ⟨rfl, failed⟩⟩
  · obtain ⟨-, rfl⟩ := ends_require.1 refused
    exact Or.inl ⟨⟨e, rfl⟩, Or.inl rfl⟩

end BarCache

end MarketBook
