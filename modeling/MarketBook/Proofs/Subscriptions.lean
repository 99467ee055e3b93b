/-
Module: MarketBook.Proofs.Subscriptions
Purpose: A subscriber gets every bar at most once, in ascending order, whatever else a cache does
  between the deliveries.
Main exports:
  Action.IsFeeding, Subscribed, BarCache.unseen_newest, Session.Follows, Session.Follows.fed,
  Session.Follows.publishes, Subscribed.delivers_once
-/
import MarketBook.Proofs.WorkingCaches

namespace MarketBook

open BarCache Device Text

/-!
The watermark on the disk moves with publications only: every other save writes the one that memory
took from the disk.  So at a delivery the watermark in memory is the one that the last delivery has
left there, and the slice holds only bars behind it.
-/

/-- A step that feeds a cache or looks after its files, and delivers nothing. -/
def Action.IsFeeding : Action → Prop
  | .markPublished _ _ => False
  | .tamper _ => False
  | _ => True

/-- Runs of a cache with a subscriber, with the slices that were delivered.  Between the deliveries
the cache is fed, or a new instance takes its place. -/
inductive Subscribed (start : Session) : List (List Bar) → Session → Prop where
  | start : Subscribed start [] start
  | fed {slices : List (List Bar)} {s : Session} (a : Action) (feeding : a.IsFeeding) (fits : a.Fits)
      (before : Subscribed start slices s) : Subscribed start slices (a.after s)
  | reopened {slices : List (List Bar)} {s : Session} {maxBars : Nat} (positive : 0 < maxBars)
      (warmupBars : Nat) (before : Subscribed start slices s) :
      Subscribed start slices ⟨s.cache.reopened maxBars warmupBars, s.device⟩
  | published {slices : List (List Bar)} {s : Session} (limit : Option Nat) (opened now : Int)
      (loaded : s.cache.isLoaded = true)
      (last : (s.cache.unseen false limit).getLast?.map (·.openTime) = some opened)
      (before : Subscribed start slices s) :
      Subscribed start (slices ++ [s.cache.unseen false limit])
        ((Action.markPublished opened now).after s)

/-! ### One slice -/

/-- The rows that a subscriber with the watermark of the cache has not seen. -/
def BarCache.fresh (c : BarCache) : List Bar :=
  c.rows.filter fun b => c.metadata.watermark ≤ 0 || c.metadata.watermark < b.openTime

theorem Rows.dropWhile_eq_filter {rows : List Bar} (ascending : Rows.Ascending rows) (mark : Int) :
    rows.dropWhile (·.openTime ≤ mark) = rows.filter (mark < ·.openTime) := by
  induction rows with
  | nil => rfl
  | cons r rest ih =>
      obtain ⟨first, tail⟩ := List.pairwise_cons.1 ascending
      by_cases seen : r.openTime ≤ mark
      · have notBehind : ¬ mark < r.openTime := by omega
        simp only [List.dropWhile_cons, List.filter_cons, decide_eq_true_eq, if_pos seen,
          if_neg notBehind]
        exact ih tail
      · have behind : ∀ b ∈ r :: rest, mark < b.openTime := by
          intro b hb
          rcases List.mem_cons.1 hb with rfl | hb
          · omega
          · have := first b hb
            omega
        simp only [List.dropWhile_cons, decide_eq_true_eq, if_neg seen]
        exact (List.filter_eq_self.2 fun b hb => decide_eq_true (behind b hb)).symm

variable {c : BarCache} {s s₁ s' : Session} {process : Nat} {slices : List (List Bar)}

theorem BarCache.unpublished_eq (ascending : Rows.Ascending c.rows) : c.unpublished = c.fresh := by
  unfold unpublished fresh
  split
  case isTrue none => simp [none]
  case isFalse some => simp [Rows.dropWhile_eq_filter ascending, some]

/-- A slice holds the newest of the rows that were not seen, as many as there are or as it may
hold. -/
theorem BarCache.unseen_newest (ascending : Rows.Ascending c.rows) (limit : Option Nat) :
    c.unseen false limit <:+ c.fresh ∧
      (c.unseen false limit).length = min (c.sliceLimit limit) c.fresh.length := by
  have slice : c.unseen false limit = Rows.trim (c.sliceLimit limit) c.fresh := by
    rw [← unpublished_eq ascending]
    rfl
  rw [slice]
  refine ⟨List.drop_suffix _ _, ?_⟩
  rw [Rows.trim, List.length_drop]
  omega

/-! ### The watermark -/

/-- The watermark that a disk holds for a cache. -/
def BarCache.watermarkOn (c : BarCache) (d : Disk) : Outcome Int :=
  (c.metaOn d).map (·.watermark)

/-- The watermark in memory is that on the disk. -/
def Session.Marked (s : Session) : Prop :=
  s.cache.watermarkOn s.device.disk = .ok s.cache.metadata.watermark

theorem BarCache.SameSetup.watermarkOn {c' : BarCache} (same : SameSetup c c') (d : Disk) :
    c'.watermarkOn d = c.watermarkOn d := by
  rw [BarCache.watermarkOn, BarCache.watermarkOn, same.metaOn]

/-- Work in memory that leaves the disk alone and the watermark at that of the disk. -/
structure Session.Tracks (process : Nat) (s s₁ : Session) : Prop where
  disk : s₁.device.disk = s.device.disk
  working : s₁.device.Working process
  setup : SameSetup s.cache s₁.cache
  marked : s₁.cache.isLoaded = true → s₁.Marked

namespace Session.Tracks

theorem of_load (tracks : Tracks process s s₁) {r : Except Halt Unit} (ended : Ends load s₁ r s') :
    Tracks process s s' := by
  have working := load_working ended tracks.working
  obtain ⟨sameDisk, ⟨-, m, rows, metaHeld, -, same⟩ | ⟨-, same⟩⟩ := load_cases ended
  · have setup : SameSetup s₁.cache s'.cache := by
      rw [same]
      exact ⟨rfl, rfl, rfl, rfl⟩
    refine ⟨sameDisk.disk.trans tracks.disk, working, tracks.setup.trans setup, fun _ => ?_⟩
    unfold Marked
    rw [setup.watermarkOn, sameDisk.disk, BarCache.watermarkOn, metaHeld, same]
    rfl
  · refine ⟨sameDisk.disk.trans tracks.disk, working, same ▸ tracks.setup, fun loaded => ?_⟩
    unfold Marked
    rw [same, sameDisk.disk]
    exact tracks.marked (same ▸ loaded)

/-- A change in memory that leaves the watermark and the setup alone. -/
theorem change (tracks : Tracks process s s₁) (setup : SameSetup s₁.cache c)
    (loaded : c.isLoaded = s₁.cache.isLoaded)
    (mark : c.metadata.watermark = s₁.cache.metadata.watermark) :
    Tracks process s ⟨c, s₁.device⟩ := by
  refine ⟨tracks.disk, tracks.working, tracks.setup.trans setup, fun isLoaded => ?_⟩
  unfold Marked
  rw [setup.watermarkOn, mark]
  exact tracks.marked (loaded ▸ isLoaded)

end Session.Tracks

/-- Before it saves, or instead of it, a feeding step works in memory. -/
theorem Action.tracks (a : Action) (feeding : a.IsFeeding) (start : s.Tracks process s) :
    ∃ s₁, s.Tracks process s₁ ∧
      (a.after s = s₁ ∨ ∃ now r, Ends (BarCache.save now) s₁ r (a.after s)) := by
  have ended := a.ended s
  cases a with
  | load => exact ⟨_, start.of_load ended, Or.inl rfl⟩
  | loadWarmup =>
      have working := Action.working .loadWarmup trivial start.working
      obtain ⟨_, ended⟩ := Ends.of_discard ended
      obtain ⟨sameDisk, same⟩ := loadWarmup_cases ended
      refine ⟨_, ⟨sameDisk.disk, working, same ▸ .refl _, fun loaded => ?_⟩, Or.inl rfl⟩
      unfold Session.Marked
      rw [same, sameDisk.disk]
      exact start.marked (same ▸ loaded)
  | append incoming =>
      obtain ⟨_, ended⟩ := Ends.of_discard ended
      rcases append_cases ended with ⟨bars, -, -, same⟩ | ⟨-, same⟩
      · refine ⟨_, ?_, Or.inl same⟩
        exact start.change ⟨rfl, rfl, rfl, rfl⟩ rfl rfl
      · exact ⟨s, start, Or.inl same⟩
  | mergeAndTrim limit =>
      obtain ⟨_, ended⟩ := Ends.of_discard ended
      refine ⟨_, ?_, Or.inl (ends_mergeAndTrim.1 ended).2⟩
      exact start.change ⟨rfl, rfl, rfl, rfl⟩ rfl rfl
  | save now => exact ⟨s, start, Or.inr ⟨now, _, ended⟩⟩
  | appendStream incoming now =>
      obtain ⟨_, ended⟩ := Ends.of_discard ended
      rcases appendStream_cases ended with
        ⟨-, failed⟩ | ⟨s₁, loaded, ⟨-, same⟩ | ⟨bars, -, merged, rfl, saved⟩⟩
      · exact ⟨_, start.of_load failed, Or.inl rfl⟩
      · exact ⟨s₁, start.of_load loaded, Or.inl same⟩
      · refine ⟨_, ?_, Or.inr ⟨now, _, saved⟩⟩
        exact (start.of_load loaded).change ⟨rfl, rfl, rfl, rfl⟩ rfl rfl
  | markPublished opened now => exact feeding.elim
  | setHeartbeat ms =>
      refine ⟨_, ?_, Or.inl (ends_setHeartbeat.1 ended).2⟩
      exact start.change ⟨rfl, rfl, rfl, rfl⟩ rfl rfl
  | tamper device => exact feeding.elim

theorem Session.Marked.eq (marked : s.Marked) :
    s.cache.watermarkOn s.device.disk = .ok s.cache.metadata.watermark :=
  marked

/-- A cache at work where nothing fails and the disk has room, with the watermark of the disk if it
was loaded. -/
structure Session.Follows (process : Nat) (s : Session) : Prop where
  reachable : Reachable Action.Fits s
  working : s.device.Working process
  writable : s.cache.Writable process s.device.disk
  marked : s.cache.isLoaded = true → s.Marked

namespace Session.Follows

/-- After a save that worked, the disk holds the watermark in memory. -/
theorem of_save {now : Int} (reachable : Reachable Action.Fits s')
    (working : s'.device.Working process) (writable : s'.cache.Writable process s'.device.disk)
    (ended : Ends (save now) s₁ (.ok ()) s') : s'.Follows process ∧ s'.Marked := by
  have marked : s'.Marked := by
    unfold Marked watermarkOn
    rw [(reachable.saved_held ended).1]
    rfl
  exact ⟨⟨reachable, working, writable, fun _ => marked⟩, marked⟩

/-- Work in memory moves nothing on the disk. -/
theorem of_tracks (follows : s.Follows process) (tracks : s.Tracks process s₁)
    (reachable : Reachable Action.Fits s₁) :
    s₁.Follows process ∧
      s₁.cache.watermarkOn s₁.device.disk = s.cache.watermarkOn s.device.disk := by
  have writable := tracks.setup.writable follows.writable
  rw [← tracks.disk] at writable
  refine ⟨⟨reachable, tracks.working, writable, tracks.marked⟩, ?_⟩
  rw [tracks.setup.watermarkOn, tracks.disk]

/-- No step but a publication moves the watermark on the disk. -/
theorem fed (follows : s.Follows process) (a : Action) (feeding : a.IsFeeding) (fits : a.Fits) :
    (a.after s).Follows process ∧
      (a.after s).cache.watermarkOn (a.after s).device.disk =
        s.cache.watermarkOn s.device.disk := by
  have reachable : Reachable Action.Fits (a.after s) := .step a fits follows.reachable
  have start : s.Tracks process s :=
    ⟨rfl, follows.working, .refl _, follows.marked⟩
  obtain ⟨s₁, tracks, same | ⟨now, r, saved⟩⟩ := a.tracks feeding start
  · rw [same] at reachable ⊢
    exact follows.of_tracks tracks reachable
  · cases loaded : s₁.cache.isLoaded with
    | false =>
        rcases save_cases saved with ⟨-, -, same⟩ | ⟨impossible, -⟩
        · rw [same] at reachable ⊢
          exact follows.of_tracks tracks reachable
        · rw [loaded] at impossible
          cases impossible
    | true =>
        have writable := tracks.setup.writable follows.writable
        rw [← tracks.disk] at writable
        obtain ⟨s', works, savedAs, working', writable', -⟩ :=
          writable.save tracks.working loaded now
        obtain ⟨-, same⟩ := saved.unique works
        rw [same] at reachable ⊢
        obtain ⟨follows', marked'⟩ := of_save reachable working' writable' works
        refine ⟨follows', ?_⟩
        rw [marked'.eq, ← tracks.disk, ← tracks.setup.watermarkOn, (tracks.marked loaded).eq,
          savedAs]
        rfl

/-- A new instance goes on where the last one was. -/
theorem reopened (follows : s.Follows process) {maxBars : Nat} (positive : 0 < maxBars)
    (warmupBars : Nat) :
    Session.Follows process ⟨s.cache.reopened maxBars warmupBars, s.device⟩ where
  reachable := follows.reachable.reopened positive warmupBars
  working := follows.working
  writable := follows.writable
  marked := nofun

/-- The publication of a row works, and the disk holds its open time then. -/
theorem publishes (follows : s.Follows process) (loaded : s.cache.isLoaded = true) {b : Bar}
    (hb : b ∈ s.cache.rows) (now : Int) :
    ∃ s', Ends (markPublished b.openTime now) s (.ok ()) s' ∧ s'.Follows process ∧
      s'.cache.watermarkOn s'.device.disk = .ok b.openTime := by
  have onTheRails := (follows.reachable.storable.rows b hb).sound.onTheRails
  set t : Session := { s with cache :=
    { s.cache with metadata := { s.cache.metadata with watermark := b.openTime } } }
  have room : t.cache.Writable process t.device.disk := follows.writable
  obtain ⟨s', saved, savedAs, working, writable, -⟩ := room.save follows.working loaded now
  have ended : Ends (markPublished b.openTime now) s (.ok ()) s' := by
    unfold markPublished
    have passed : Ends (require (Time.requireRails "last_published_open_time_ms" b.openTime)) s
        (.ok b.openTime) s :=
      ends_require.2 ⟨by rw [Time.requireRails_eq_ok.2 ⟨rfl, onTheRails⟩]; rfl, rfl⟩
    rw [Ends.bind_of passed, self_bind_iff]
    dsimp only
    rw [if_neg (by simp [loaded]), change_bind_iff]
    exact saved
  have reachable : Reachable Action.Fits s' := by
    rw [← Action.after_eq (a := .markPublished b.openTime now) ended]
    exact .step _ ⟨nofun, nofun⟩ follows.reachable
  obtain ⟨follows', marked⟩ := of_save reachable working writable saved
  refine ⟨s', ended, follows', ?_⟩
  rw [marked.eq, savedAs]
  rfl

end Session.Follows

/-! ### Whole runs -/

theorem Rows.Ascending.le_last {rows : List Bar} {last : Bar} (ascending : Rows.Ascending rows)
    (isLast : rows.getLast? = some last) : ∀ b ∈ rows, b.openTime ≤ last.openTime := by
  obtain ⟨front, rfl⟩ := List.getLast?_eq_some_iff.1 isLast
  intro b hb
  rcases List.mem_append.1 hb with inFront | isLast
  · have := (List.pairwise_append.1 ascending).2.2 b inFront last List.mem_cons_self
    omega
  · rw [List.mem_singleton.1 isLast]

/-- All that was delivered ascends, and none of it is newer than the watermark on the disk. -/
structure Session.Delivered (process : Nat) (slices : List (List Bar)) (s : Session) : Prop where
  follows : s.Follows process
  ascending : Rows.Ascending slices.flatten
  behind : ∀ b ∈ slices.flatten, ∃ mark,
    s.cache.watermarkOn s.device.disk = .ok mark ∧ 0 < mark ∧ b.openTime ≤ mark

namespace Session.Delivered

variable {limit : Option Nat} {opened now : Int}

/-- What is in a slice is newer than all that was delivered before. -/
theorem ascending_slice (delivered : s.Delivered process slices) (loaded : s.cache.isLoaded = true)
    (limit : Option Nat) :
    Rows.Ascending (slices ++ [s.cache.unseen false limit]).flatten := by
  have rows := delivered.follows.reachable.storable.ascending
  obtain ⟨suffix, -⟩ := unseen_newest rows limit
  rw [List.flatten_append, List.flatten_singleton]
  refine List.pairwise_append.2 ⟨delivered.ascending, ?_, fun b hb x hx => ?_⟩
  · exact rows.sublist (suffix.sublist.trans List.filter_sublist)
  · obtain ⟨mark, held, positive, notNewer⟩ := delivered.behind b hb
    rw [(delivered.follows.marked loaded).eq] at held
    cases held
    have new := (List.mem_filter.1 (suffix.subset hx)).2
    simp only [Bool.or_eq_true, decide_eq_true_eq] at new
    omega

/-- A delivery with the publication of its last bar. -/
theorem published (delivered : s.Delivered process slices) (loaded : s.cache.isLoaded = true)
    (last : (s.cache.unseen false limit).getLast?.map (·.openTime) = some opened) (now : Int) :
    ∃ s', Ends (markPublished opened now) s (.ok ()) s' ∧
      s'.cache.watermarkOn s'.device.disk = .ok opened ∧
      s'.Delivered process (slices ++ [s.cache.unseen false limit]) := by
  obtain ⟨b, isLast, rfl⟩ := Option.map_eq_some_iff.1 last
  have holds := delivered.follows.reachable.storable
  have inSlice := List.mem_of_getLast? isLast
  have suffix := (unseen_newest holds.ascending limit).1
  have inRows : b ∈ s.cache.rows := List.mem_of_mem_filter (suffix.subset inSlice)
  obtain ⟨s', ended, follows, mark⟩ := delivered.follows.publishes loaded inRows now
  refine ⟨s', ended, mark, follows, delivered.ascending_slice loaded limit, fun x hx => ?_⟩
  have positive : 0 < b.openTime := by
    have := (Time.onRails_iff.1 (holds.rows b inRows).sound.onTheRails).1
    simp only [Time.firstOnRails] at this
    omega
  refine ⟨_, mark, positive, ?_⟩
  have whole := delivered.ascending_slice loaded limit
  rw [List.flatten_append, List.flatten_singleton] at whole hx
  refine whole.le_last ?_ x hx
  rw [List.getLast?_append, isLast]
  rfl

end Session.Delivered

/-- The induction is on the run: feeding leaves the watermark on the disk alone, and a delivery
moves it to its last bar. -/
theorem Subscribed.delivered {start : Session} (follows : start.Follows process)
    (run : Subscribed start slices s) : s.Delivered process slices := by
  induction run with
  | start => exact ⟨follows, .nil, nofun⟩
  | fed a feeding fits _ ih =>
      obtain ⟨next, same⟩ := ih.follows.fed a feeding fits
      refine ⟨next, ih.ascending, fun b hb => ?_⟩
      rw [same]
      exact ih.behind b hb
  | reopened positive warmupBars _ ih =>
      exact ⟨ih.follows.reopened positive warmupBars, ih.ascending, ih.behind⟩
  | published limit opened now loaded last _ ih =>
      obtain ⟨s', ended, -, next⟩ := ih.published loaded last now
      rw [Action.after_eq (a := .markPublished opened now) ended]
      exact next

/-- In every run of a cache with a subscriber, where nothing fails and the disk has room, all that
was delivered ascends strictly.  A loaded cache has the watermark of the disk; its next slice holds
the newest rows behind that, as many as there are or as it may hold, and the publication of it works
and moves the watermark on the disk to its last bar.  No other step moves that watermark. -/
theorem Subscribed.delivers_once {directory : Place} {symbol : String} {tf : Timeframe}
    {maxBars warmupBars : Nat} {d : Disk}
    (created : BarCache.create directory symbol tf maxBars warmupBars = .ok c)
    (writable : c.Writable process d) (run : Subscribed ⟨c, sound d process⟩ slices s) :
    Rows.Ascending slices.flatten ∧
      (s.cache.isLoaded = true →
        s.cache.watermarkOn s.device.disk = .ok s.cache.metadata.watermark ∧
        ∀ limit,
          s.cache.unseen false limit <:+ s.cache.fresh ∧
          (s.cache.unseen false limit).length =
            min (s.cache.sliceLimit limit) s.cache.fresh.length ∧
          Rows.Ascending (slices ++ [s.cache.unseen false limit]).flatten ∧
          ∀ now opened, (s.cache.unseen false limit).getLast?.map (·.openTime) = some opened →
            ∃ s', Ends (markPublished opened now) s (.ok ()) s' ∧
              s'.cache.watermarkOn s'.device.disk = .ok opened) ∧
      ∀ a : Action, a.IsFeeding → a.Fits →
        (a.after s).cache.watermarkOn (a.after s).device.disk =
          s.cache.watermarkOn s.device.disk := by
  obtain ⟨-, normal, -, rfl⟩ := create_eq_ok created
  have delivered := run.delivered ⟨.start created _, working_sound d process, writable, nofun⟩
  have rows := delivered.follows.reachable.storable.ascending
  refine ⟨delivered.ascending, fun loaded => ⟨delivered.follows.marked loaded, fun limit => ?_⟩,
    fun a feeding fits => (delivered.follows.fed a feeding fits).2⟩
  obtain ⟨suffix, counted⟩ := unseen_newest rows limit
  refine ⟨suffix, counted, delivered.ascending_slice loaded limit, fun now opened last => ?_⟩
  obtain ⟨s', ended, mark, -⟩ := delivered.published loaded last now
  exact ⟨s', ended, mark⟩

/-- The arrival of two bars. -/
def metalBatch : Action :=
  .appendStream [metalBar 1700000040000 2, metalBar 1700000100000 3] 1700000160000

theorem metalBatch_fits : metalBatch.Fits := by
  refine ⟨?_, ?_⟩ <;>
    simp [metalBatch, Action.incoming, Action.heartbeats, metalBar_fits, isSigned64, limit63]

/-- The second bar once more, and a third. -/
def metalRevision : Action :=
  .append [metalBar 1700000100000 4, metalBar 1700000160000 5]

theorem metalRevision_fits : metalRevision.Fits := by
  refine ⟨?_, ?_⟩ <;>
    simp [metalRevision, Action.incoming, Action.heartbeats, metalBar_fits, isSigned64, limit63]

/-- A row that changes after it was delivered is not delivered again. -/
theorem metalCache_subscribed :
    ∃ slice s, Subscribed ⟨metalCache, sound Disk.empty 1⟩ [slice] s ∧
      (s.cache.unseen false none).map (·.openTime) = [1700000160000] ∧
      Rows.Ascending ([slice] ++ [s.cache.unseen false none]).flatten := by
  have fed : Subscribed ⟨metalCache, sound Disk.empty 1⟩ [] _ :=
    .fed metalBatch trivial metalBatch_fits .start
  have published := fed.published none 1700000100000 1700000160000 (by decide +kernel)
    (by decide +kernel)
  have revised := published.fed metalRevision trivial metalRevision_fits
  have merged := revised.fed (.mergeAndTrim none) trivial ⟨nofun, nofun⟩
  obtain ⟨-, slices, -⟩ := Subscribed.delivers_once metalCache_created metalCache_serves.writable merged
  exact ⟨_, _, merged, by decide +kernel, ((slices (by decide +kernel)).2 none).2.2.1⟩

end MarketBook
