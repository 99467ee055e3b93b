/-
Module: MarketBook.Proofs.BarBatches
Purpose: Bars that arrive in batches leave the same rows and the same file as if all had arrived at
  once, whichever instance takes which batch.
Main exports:
  Delivery, BarCache.feed, Session.Fed, Session.Keeping, Session.Keeping.feed,
  Session.Serves.batching
-/
import MarketBook.Proofs.NewestRows
import MarketBook.Proofs.WorkingCaches

namespace MarketBook

open BarCache Device Text

/-!
Every call starts from what the last one has left in the file, so nothing that an instance holds in
memory matters.  What a call leaves are the newest rows of the first file and of all bars that have
come in, and these do not depend on how the bars were cut into batches.
-/

/-- A batch that arrives at an instant: at the instance that took the last one, or at a new one with
its own number of rows for a quick start. -/
structure Delivery where
  renews : Option Nat
  batch : List Json
  now : Int

/-- The cache itself, or a new instance for its files. -/
def BarCache.renewed (c : BarCache) : Option Nat → BarCache
  | none => c
  | some warmupBars => c.reopened c.maxBars warmupBars

namespace BarCache

/-- Takes one delivery. -/
def take (call : Delivery) : Op Report := do
  change (·.renewed call.renews)
  appendStream call.batch call.now

/-- Takes deliveries one after another. -/
def feed : List Delivery → Op Unit
  | [] => pure ()
  | call :: rest => do
    let _ ← take call
    feed rest

/-- Two instances work on the same files with the same limit. -/
structure SameFiles (c c' : BarCache) : Prop where
  directory : c'.directory = c.directory
  binding : c'.binding = c.binding
  maxBars : c'.maxBars = c.maxBars

theorem SameFiles.trans {c c' c'' : BarCache} (first : SameFiles c c') (second : SameFiles c' c'') :
    SameFiles c c'' :=
  ⟨second.directory.trans first.directory, second.binding.trans first.binding,
    second.maxBars.trans first.maxBars⟩

theorem SameFiles.tablePath {c c' : BarCache} (same : SameFiles c c') :
    c'.tablePath = c.tablePath := by
  rw [tablePath_eq, tablePath_eq, same.directory, same.binding]

theorem renewed_sameFiles (c : BarCache) (renews : Option Nat) : SameFiles c (c.renewed renews) := by
  cases renews with
  | none => exact ⟨rfl, rfl, rfl⟩
  | some warmupBars => exact ⟨rfl, rfl, rfl⟩

theorem acceptAll_append {binding : Binding} {front back : List Json} {bars : List Bar} :
    acceptAll binding (front ++ back) = .ok bars ↔
      ∃ first rest, acceptAll binding front = .ok first ∧ acceptAll binding back = .ok rest ∧
        bars = first ++ rest := by
  induction front generalizing bars with
  | nil => simp [acceptAll]
  | cons j front ih =>
      simp only [List.cons_append, acceptAll, Outcome.bind_eq_ok, ih]
      constructor
      · rintro ⟨b, accepted, _, ⟨first, rest, frontAccepted, backAccepted, rfl⟩, same⟩
        cases same
        exact ⟨b :: first, rest, ⟨b, accepted, first, frontAccepted, rfl⟩, backAccepted, rfl⟩
      · rintro ⟨_, rest, ⟨b, accepted, first, frontAccepted, same⟩, backAccepted, rfl⟩
        cases same
        exact ⟨b, accepted, first ++ rest, ⟨first, rest, frontAccepted, backAccepted, rfl⟩, rfl⟩

end BarCache

theorem Action.appendStream_fits {incoming : List Json} {now : Int}
    (fits : ∀ j ∈ incoming, j.FieldsFit) (nowFits : isSigned64 now = true) :
    (Action.appendStream incoming now).Fits where
  incoming := fits
  heartbeats := by
    intro ms hms
    rw [List.mem_singleton.1 hms]
    exact nowFits

namespace Session

variable {process : Nat} {rows source bars : List Bar} {start : BarCache} {s : Session}
  {incoming : List Json} {now : Int}

/-- A session behind a call: memory and file hold the newest rows of all that has come in. -/
structure Fed (process : Nat) (start : BarCache) (source : List Bar) (s : Session) : Prop where
  serves : s.Serves process s.cache.rows
  files : SameFiles start s.cache
  newest : Rows.NewestOf start.maxBars source s.cache.rows
  table : s.device.disk.node? start.tablePath = some (.file (Table.write s.cache.rows))

/-- A session before a call: the file holds rows that keep the newest of all that has come in. -/
structure Keeping (process : Nat) (start : BarCache) (source rows : List Bar) (s : Session) :
    Prop where
  serves : s.Serves process rows
  files : SameFiles start s.cache
  keeps : Rows.Keeps start.maxBars source rows

theorem Fed.keeping (fed : Fed process start source s) :
    Keeping process start source s.cache.rows s where
  serves := fed.serves
  files := fed.files
  keeps := fed.newest.toKeeps

namespace Keeping

/-- One call takes bars that are accepted into the rows that are kept. -/
theorem fed_by (keeping : Keeping process start source rows s)
    (accepted : acceptAll start.binding incoming = .ok bars)
    (fits : (Action.appendStream incoming now).Fits) :
    ∃ report s', Ends (appendStream incoming now) s (.ok report) s' ∧
      Fed process start (source ++ bars) s' := by
  obtain ⟨serves, files, keeps⟩ := keeping
  rw [← files.binding] at accepted
  obtain ⟨report, s', ended, serves', setup, rowsNow, table⟩ := serves.appended accepted fits
  have files' : SameFiles start s'.cache :=
    files.trans ⟨setup.directory, setup.binding, setup.maxBars⟩
  rw [files.tablePath] at table
  refine ⟨report, s', ended, serves', files', ?_, table⟩
  rw [rowsNow, files.maxBars]
  exact (keeps.merged bars).trim

theorem renewed (keeping : Keeping process start source rows s) (renews : Option Nat) :
    Keeping process start source rows ⟨s.cache.renewed renews, s.device⟩ where
  serves := by
    cases renews with
    | none => exact keeping.serves
    | some warmupBars =>
        exact keeping.serves.reopened keeping.serves.reachable.normalized.1 warmupBars
  files := keeping.files.trans (renewed_sameFiles s.cache renews)
  keeps := keeping.keeps

theorem taken (keeping : Keeping process start source rows s) {call : Delivery}
    (accepted : acceptAll start.binding call.batch = .ok bars)
    (fits : (Action.appendStream call.batch call.now).Fits) :
    ∃ report s', Ends (take call) s (.ok report) s' ∧ Fed process start (source ++ bars) s' := by
  obtain ⟨report, s', ended, fed⟩ := (keeping.renewed call.renews).fed_by accepted fits
  exact ⟨report, s', change_bind_iff.2 ended, fed⟩

/-- However many calls follow one another, each is taken and leaves the newest rows.  The induction
is on the calls behind the first; every call leaves what the next one starts from. -/
theorem feed (later : List Delivery) :
    ∀ {call : Delivery} {source rows bars : List Bar} {s : Session},
      Keeping process start source rows s →
      (∀ c ∈ call :: later, (Action.appendStream c.batch c.now).Fits) →
      acceptAll start.binding ((call :: later).flatMap (·.batch)) = .ok bars →
      ∃ s', Ends (BarCache.feed (call :: later)) s (.ok ()) s' ∧
        Fed process start (source ++ bars) s' := by
  induction later with
  | nil =>
      intro call source rows bars s keeping fits accepted
      rw [List.flatMap_singleton] at accepted
      obtain ⟨report, s', taken, fed⟩ := keeping.taken accepted (fits call List.mem_cons_self)
      exact ⟨s', (Ends.bind_of taken).2 (Ends.pure_iff.2 ⟨rfl, rfl⟩), fed⟩
  | cons next later ih =>
      intro call source rows bars s keeping fits accepted
      rw [List.flatMap_cons] at accepted
      obtain ⟨first, others, firstAccepted, othersAccepted, rfl⟩ := acceptAll_append.1 accepted
      obtain ⟨firstFits, othersFit⟩ := List.forall_mem_cons.1 fits
      obtain ⟨report, t, taken, fed⟩ := keeping.taken firstAccepted firstFits
      obtain ⟨s', ended, last⟩ := ih fed.keeping othersFit othersAccepted
      rw [List.append_assoc] at last
      exact ⟨s', (Ends.bind_of taken).2 ended, last⟩

end Keeping

/-- Batches that are taken one after another, by one instance or by several, leave the rows and the
file that one call with all bars leaves.  The rows are the newest ones of the first file and the
bars, each the last with its open time.  If the last batch arrives again, no row changes. -/
theorem Serves.batching (serves : s.Serves process rows) {calls : List Delivery} (any : calls ≠ [])
    (fits : ∀ call ∈ calls, (Action.appendStream call.batch call.now).Fits)
    (accepted : acceptAll s.cache.binding (calls.flatMap (·.batch)) = .ok bars) (now : Int)
    (nowFits : isSigned64 now = true) :
    ∃ s' w report, Ends (feed calls) s (.ok ()) s' ∧
      Ends (appendStream (calls.flatMap (·.batch)) now) s (.ok report) w ∧
      s'.cache.rows = w.cache.rows ∧
      s'.device.disk.node? s.cache.tablePath = some (.file (Table.write w.cache.rows)) ∧
      w.device.disk.node? s.cache.tablePath = some (.file (Table.write w.cache.rows)) ∧
      Rows.NewestOf s.cache.maxBars (rows ++ bars) w.cache.rows ∧
      ∀ last ∈ calls.getLast?, ∀ later, isSigned64 later = true →
        ∃ report s'', Ends (appendStream last.batch later) s' (.ok report) s'' ∧
          s''.cache.rows = s'.cache.rows := by
  have keeping : Keeping process s.cache rows rows s :=
    ⟨serves, ⟨rfl, rfl, rfl⟩, (((gated_sound s.cache.binding []).rowsOn serves.rows).1).keeps _⟩
  have allFit : (Action.appendStream (calls.flatMap (·.batch)) now).Fits := by
    refine Action.appendStream_fits (fun j hj => ?_) nowFits
    obtain ⟨call, hc, hj⟩ := List.mem_flatMap.1 hj
    exact (fits call hc).incoming j hj
  obtain ⟨report, w, atOnce, whole⟩ := keeping.fed_by accepted allFit
  obtain ⟨s', inTurn, fed⟩ : ∃ s', Ends (feed calls) s (.ok ()) s' ∧
      s'.Fed process s.cache (rows ++ bars) := by
    cases calls with
    | nil => exact absurd rfl any
    | cons call later => exact keeping.feed later fits accepted
  have sameRows := fed.newest.unique whole.newest
  refine ⟨s', w, report, inTurn, atOnce, sameRows, sameRows ▸ fed.table, whole.table, whole.newest,
    ?_⟩
  intro last isLast later laterFits
  obtain ⟨before, rfl⟩ := List.getLast?_eq_some_iff.1 isLast
  rw [List.flatMap_append, List.flatMap_singleton] at accepted
  obtain ⟨earlier, again, -, againAccepted, rfl⟩ := acceptAll_append.1 accepted
  have againFits := (fits last (List.mem_append_right _ List.mem_cons_self)).incoming
  obtain ⟨report', s'', ended, replayed⟩ :=
    fed.keeping.fed_by againAccepted (Action.appendStream_fits againFits laterFits)
  refine ⟨report', s'', ended, ?_⟩
  have newest := replayed.newest
  rw [← List.append_assoc] at newest
  exact newest.replayed.unique (List.append_assoc _ _ _ ▸ fed.newest)

end Session

/-- Two rows are kept of three bars, although the first comes in again behind the third. -/
theorem metalCache_batching :
    let s : Session := ⟨metalCache.reopened 2 0, sound Disk.empty 1⟩
    let calls : List Delivery := [
      ⟨none, [metalBar 1700000040000 2, metalBar 1700000100000 3], 1700000160000⟩,
      ⟨some 5, [metalBar 1700000160000 4], 1700000220000⟩,
      ⟨none, [metalBar 1700000040000 5, metalBar 1700000100000 6], 1700000220000⟩]
    ∃ s' w report, Ends (feed calls) s (.ok ()) s' ∧
      Ends (appendStream (calls.flatMap (·.batch)) 1700000220000) s (.ok report) w ∧
      s'.cache.rows = w.cache.rows ∧
      w.cache.rows.map (·.openTime) = [1700000100000, 1700000160000] := by
  intro s calls
  have serves : s.Serves 1 [] := metalCache_serves.reopened (by decide) 0
  have fits : ∀ call ∈ calls, (Action.appendStream call.batch call.now).Fits := by
    simp only [calls, List.forall_mem_cons]
    refine ⟨⟨?_, ?_⟩, ⟨?_, ?_⟩, ⟨?_, ?_⟩, nofun⟩ <;>
      simp [Action.incoming, Action.heartbeats, metalBar_fits, isSigned64, limit63]
  obtain ⟨bars, accepted⟩ : ∃ bars,
      acceptAll s.cache.binding (calls.flatMap (·.batch)) = .ok bars :=
    Outcome.exists_of_isSome (by decide +kernel)
  obtain ⟨s', w, report, inTurn, atOnce, same, -⟩ :=
    serves.batching (by decide) fits accepted 1700000220000 (by decide)
  refine ⟨s', w, report, inTurn, atOnce, same, ?_⟩
  have rows : (((appendStream (calls.flatMap (·.batch)) 1700000220000).run s).2.cache.rows.map
      (·.openTime)) = [1700000100000, 1700000160000] := by
    decide +kernel
  rw [atOnce] at rows
  exact rows

end MarketBook
