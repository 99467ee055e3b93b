/-
Module: MarketBook.Proofs.RefusedOperations
Purpose: An operation of a cache that is refused leaves memory and disk as they were.
Main exports:
  FaultsOnly, Device.publishContent_faults, BarCache.save_faults, BarCache.appendStream_refused,
  Session.Unread, Session.KeptByRefusals, Session.kept_by_refusals
-/
import MarketBook.Proofs.CacheRuns

namespace MarketBook

open BarCache Device Text Time

/-!
Every check of an operation comes before its first write.  Once a save has begun, all that can still
go wrong is the storage; so a fault of any other kind shows that no file was touched.
-/

/-- Whatever fault the operation ends with is one of the allowed. -/
def FaultsOnly {σ α : Type} (allowed : Fault → Prop) (act : ExceptT Halt (StateM σ) α) : Prop :=
  ∀ ⦃s : σ⦄ ⦃cause : Fault⦄ ⦃s' : σ⦄, Ends act s (.error (.fault cause)) s' → allowed cause

namespace FaultsOnly

variable {σ α β : Type} {allowed : Fault → Prop} {act : ExceptT Halt (StateM σ) α}

theorem pure (a : α) : FaultsOnly allowed (pure a : ExceptT Halt (StateM σ) α) := by
  intro s cause s' h
  cases (Ends.pure_iff.1 h).1

theorem throw {e : Halt} (ok : ∀ cause, e = .fault cause → allowed cause) :
    FaultsOnly allowed (throw e : ExceptT Halt (StateM σ) α) := by
  intro s cause s' h
  cases (Ends.throw_iff.1 h).1
  exact ok cause rfl

theorem get : FaultsOnly allowed (get : ExceptT Halt (StateM σ) σ) := by
  intro s cause s' h
  cases h

theorem bind {f : α → ExceptT Halt (StateM σ) β} (first : FaultsOnly allowed act)
    (rest : ∀ a, FaultsOnly allowed (f a)) : FaultsOnly allowed (act >>= f) := by
  intro s cause s' h
  rcases Ends.bind_iff.1 h with ⟨a, t, -, h⟩ | ⟨e, ended, same⟩
  · exact rest a h
  · cases same
    exact first ended

/-- What is caught was allowed, so a handler may end with it again. -/
theorem tryCatch {handle : Halt → ExceptT Halt (StateM σ) α} (first : FaultsOnly allowed act)
    (rest : ∀ e, (∀ cause, e = .fault cause → allowed cause) → FaultsOnly allowed (handle e)) :
    FaultsOnly allowed (tryCatch act handle) := by
  intro s cause s' h
  rcases Ends.tryCatch_iff.1 h with ⟨a, -, same⟩ | ⟨e, t, ended, h⟩
  · cases same
  · refine rest e ?_ h
    rintro found rfl
    exact first ended

end FaultsOnly

/-! ### Faults of the storage -/

namespace Device

variable {α : Type}

/-- The operation fails with nothing but a fault of the storage. -/
abbrev IoOnly (act : Act α) : Prop :=
  FaultsOnly (· = .io) act

theorem fail_io : IoOnly (fail .io : Act α) :=
  .throw fun _ same => (Halt.fault.inj same).symm

theorem whole_io (run : Disk → Except Disk.Refusal (α × Disk)) : IoOnly (whole run anyRefusal) := by
  intro v cause v' h
  rcases ends_whole.1 h with
    ⟨-, -, same, -⟩ | ⟨-, -, same, -⟩ | ⟨-, ⟨a, d, -, same, -⟩ | ⟨e, -, same, -⟩⟩
  · cases same
    rfl
  · cases same
  · cases same
  · cases same
    rfl

theorem writeFile_io (p : Disk.Path) (content : Octets) : IoOnly (writeFile p content) := by
  intro v cause v' h
  rcases ends_writeFile.1 h with ⟨-, same, -⟩ | ⟨kept, -, ⟨-, same⟩ | ⟨-, same⟩⟩
  · cases same
  · cases same
    rfl
  · cases same

theorem look_io (f : Disk → Except Disk.Refusal α) : IoOnly (look f) := by
  intro v cause v' h
  rcases (ends_look.1 h).2 with ⟨a, -, same⟩ | ⟨e, -, same⟩
  · cases same
  · cases same
    rfl

theorem makeDirs_io (p : Place) : IoOnly (makeDirs p) := by
  refine .bind (whole_io _) fun made => ?_
  cases made with
  | ok _ => exact .pure _
  | error _ => exact fail_io

theorem orDiscard_io (staging : Disk.Path) {act : Act Unit} (first : IoOnly act) :
    IoOnly (orDiscard staging act) := by
  refine .tryCatch first fun e ok => ?_
  cases e with
  | stopped => exact .throw ok
  | fault cause =>
      refine .bind (.tryCatch (whole_io _) fun e ok => ?_) fun _ => .throw ok
      cases e with
      | stopped => exact .throw ok
      | fault _ => exact .pure _

/-- A content that is there as a whole brings no fault of its own. -/
theorem stage_io (staging : Disk.Path) (content : Octets) : IoOnly (stage staging ⟨content, none⟩) :=
  .bind (whole_io _) fun _ => .bind (writeFile_io _ _) fun _ => whole_io _

theorem publishContent_faults (target : Place) (content : Octets) :
    IoOnly (publishContent target content) :=
  .bind (makeDirs_io _) fun _ => .bind .get fun _ => .bind (look_io _) fun _ =>
    .bind (orDiscard_io _ (stage_io _ _)) fun _ => orDiscard_io _ (whole_io _)

end Device

namespace BarCache

variable {s s' : Session} {incoming : List Json} {opened now : Int} {cause : Fault} {j : Json}

/-- A save of a loaded cache can fail in the storage only. -/
theorem save_faults (loaded : s.cache.isLoaded = true)
    (h : Ends (save now) s (.error (.fault cause)) s') : cause = .io := by
  rcases save_cases h with ⟨unloaded, -⟩ | ⟨-, -, ⟨e, same, failed⟩ | ⟨v, -, failed⟩⟩
  · rw [loaded] at unloaded
    cases unloaded
  · cases same
    exact publishContent_faults _ _ failed
  · exact publishContent_faults _ _ failed

/-! ### Refusals, operation by operation -/

theorem load_refused {e : Halt} (h : Ends load s (.error e) s') :
    s'.cache = s.cache ∧ s'.device.disk = s.device.disk := by
  obtain ⟨sameDisk, ⟨same, -⟩ | ⟨-, sameCache⟩⟩ := load_cases h
  · cases same
  · exact ⟨sameCache, sameDisk.disk⟩

theorem append_refused {e : Halt} (h : Ends (append incoming) s (.error e) s') : s' = s := by
  rcases append_cases h with ⟨bars, -, same, -⟩ | ⟨-, same⟩
  · cases same
  · exact same

/-- A stream append that ends with a fault, but not one of the storage, has not come to its save. -/
theorem appendStream_refused (other : cause ≠ .io)
    (h : Ends (appendStream incoming now) s (.error (.fault cause)) s') :
    s'.device.disk = s.device.disk := by
  rcases appendStream_cases h with
    ⟨-, failed⟩ | ⟨s₁, loaded, ⟨-, rfl⟩ | ⟨bars, -, merged, rfl, saved⟩⟩
  · exact (load_cases failed).1.disk
  · exact (load_cases loaded).1.disk
  · obtain ⟨-, ⟨-, m, rows, -, -, same⟩ | ⟨⟨e, impossible⟩, -⟩⟩ := load_cases loaded
    · refine absurd (save_faults ?_ saved) other
      simp only [withHeartbeat, same]
      rfl
    · cases impossible

/-- One value that describes no bar, wherever it stands, refuses a batch. -/
theorem acceptAll_ne_ok {binding : Binding} {bars : List Bar} (hj : j ∈ incoming)
    (bad : ∀ b, Bar.accept binding.symbol binding.tf j ≠ .ok b) :
    acceptAll binding incoming ≠ .ok bars := by
  intro accepted
  obtain ⟨i, inRange, rfl⟩ := List.getElem_of_mem hj
  obtain ⟨same, each⟩ := List.forall₂_iff_get.1 (acceptAll_eq_ok.1 accepted)
  exact bad _ (each i inRange (same ▸ inRange))

/-- The cache cannot read its files, or a value of a batch describes no bar of its binding. -/
def Rejects (c : BarCache) (d : Disk) (incoming : List Json) : Prop :=
  (∀ m, c.metaOn d ≠ .ok m) ∨ (∀ rows, c.rowsOn d ≠ .ok rows) ∨
    ∃ j ∈ incoming, ∀ b, Bar.accept c.binding.symbol c.binding.tf j ≠ .ok b

/-- Files that cannot be read and bad values let no stream append come to its save. -/
theorem appendStream_rejects (rejects : s.cache.Rejects s.device.disk incoming)
    {r : Except Halt Report} (h : Ends (appendStream incoming now) s r s') :
    (∃ e, r = .error e) ∧ s'.device.disk = s.device.disk := by
  rcases appendStream_cases h with
    ⟨error, failed⟩ | ⟨s₁, loaded, ⟨error, rfl⟩ | ⟨bars, accepted, -⟩⟩
  · exact ⟨error, (load_cases failed).1.disk⟩
  · exact ⟨error, (load_cases loaded).1.disk⟩
  · obtain ⟨-, ⟨-, m, rows, metaHeld, rowsHeld, same⟩ | ⟨⟨e, impossible⟩, -⟩⟩ := load_cases loaded
    · rw [same] at accepted
      rcases rejects with noMeta | noRows | ⟨j, hj, bad⟩
      · exact absurd metaHeld (noMeta m)
      · exact absurd rowsHeld (noRows rows)
      · exact absurd accepted (acceptAll_ne_ok hj bad)
    · cases impossible

/-- A time off the rails is refused before anything is loaded or changed. -/
theorem markPublished_offRails (off : onRails opened = false) {r : Except Halt Unit}
    (h : Ends (markPublished opened now) s r s') :
    (∃ cause, r = .error (.fault (.contract cause))) ∧ s' = s := by
  unfold markPublished at h
  rcases Ends.bind_iff.1 h with ⟨ts, s₁, passed, -⟩ | ⟨e, refused, rfl⟩
  · have gives := Outcome.mapError_eq_ok.1 (ends_require.1 passed).1.symm
    rw [(requireRails_eq_ok.1 gives).2] at off
    cases off
  · obtain ⟨same, rfl⟩ := ends_require.1 refused
    unfold requireRails at same
    refine ⟨?_, rfl⟩
    split at same
    · cases same
      exact ⟨_, rfl⟩
    · split at same
      · cases same
        exact ⟨_, rfl⟩
      · cases same

end BarCache

/-! ### Caches that were never loaded -/

/-- The steps in whose course a cache that is not loaded comes to a load. -/
def Action.Reads : Action → Prop
  | .load | .appendStream _ _ => True
  | .markPublished opened _ => onRails opened = true
  | _ => False

/-- The sessions before the first load that works, from a new cache on any device. -/
inductive Session.Unread : Session → Prop where
  | start {directory : Place} {symbol : String} {tf : Timeframe} {maxBars warmupBars : Nat}
      {c : BarCache} (created : BarCache.create directory symbol tf maxBars warmupBars = .ok c)
      (device : Device) : Unread ⟨c, device⟩
  | step {s : Session} (a : Action) (fails : a.Reads → (load.run s).1 ≠ .ok ())
      (before : Unread s) : Unread (a.after s)

variable {s s' : Session}

theorem BarCache.load_unread {r : Except Halt Unit} (unloaded : s.cache.isLoaded = false)
    (ended : Ends load s r s') (fails : r ≠ .ok ()) : s'.cache.isLoaded = false := by
  obtain ⟨-, ⟨works, -⟩ | ⟨-, same⟩⟩ := load_cases ended
  · exact absurd works fails
  · rw [same]
    exact unloaded

theorem BarCache.save_isLoaded {now : Int} {r : Except Halt Unit} (ended : Ends (save now) s r s') :
    s'.cache.isLoaded = s.cache.isLoaded := by
  rcases save_cases ended with ⟨-, -, rfl⟩ | ⟨-, same, -⟩
  · rfl
  · rw [same]
    rfl

/-- A step loads a cache only by a load that works. -/
theorem Action.unread_after (a : Action) (fails : a.Reads → (load.run s).1 ≠ .ok ())
    (unloaded : s.cache.isLoaded = false) : (a.after s).cache.isLoaded = false := by
  have ended := a.ended s
  have notLoaded : ∀ {s₁}, a.Reads → ¬ Ends BarCache.load s (.ok ()) s₁ :=
    fun reads works => fails reads (congrArg Prod.fst works)
  cases a with
  | load => exact load_unread unloaded ended (fails trivial)
  | loadWarmup =>
      obtain ⟨_, ended⟩ := Ends.of_discard ended
      rw [(loadWarmup_cases ended).2]
      exact unloaded
  | append incoming =>
      obtain ⟨_, ended⟩ := Ends.of_discard ended
      rcases append_cases ended with ⟨bars, -, -, same⟩ | ⟨-, same⟩
      · rw [same]
        exact unloaded
      · rw [same]
        exact unloaded
  | mergeAndTrim limit =>
      obtain ⟨_, ended⟩ := Ends.of_discard ended
      rw [(ends_mergeAndTrim.1 ended).2]
      exact unloaded
  | save now => exact (save_isLoaded ended).trans unloaded
  | appendStream incoming now =>
      obtain ⟨_, ended⟩ := Ends.of_discard ended
      rcases appendStream_cases ended with ⟨⟨e, rfl⟩, failed⟩ | ⟨s₁, works, -⟩
      · exact load_unread unloaded failed nofun
      · exact absurd works (notLoaded trivial)
  | markPublished opened now =>
      rcases markPublished_cases ended with
        ⟨⟨e, failed⟩, same | ⟨-, loadFailed⟩⟩ | ⟨s₁, rfl | ⟨-, works⟩, onTheRails, saved⟩
      · rw [same]
        exact unloaded
      · rw [failed] at loadFailed
        exact load_unread unloaded loadFailed nofun
      · exact (save_isLoaded saved).trans unloaded
      · exact absurd works (notLoaded onTheRails)
  | setHeartbeat ms => exact unloaded
  | tamper device => exact unloaded

theorem Session.Unread.unloaded (unread : s.Unread) : s.cache.isLoaded = false := by
  induction unread with
  | start created device =>
      obtain ⟨-, normal, -, rfl⟩ := create_eq_ok created
      rfl
  | step a fails _ ih => exact a.unread_after fails ih

/-! ### What refusals leave alone -/

/-- What the refused operations of a session keep, whatever stands on its disk. -/
structure Session.KeptByRefusals (s : Session) : Prop where
  load : ∀ e s', Ends BarCache.load s (.error e) s' →
    s'.cache = s.cache ∧ s'.device.disk = s.device.disk
  append : ∀ incoming e s', Ends (BarCache.append incoming) s (.error e) s' → s' = s
  appendStream : ∀ incoming now cause s', cause ≠ .io →
    Ends (BarCache.appendStream incoming now) s (.error (.fault cause)) s' →
    s'.device.disk = s.device.disk
  badArrival : ∀ incoming now r s', s.cache.Rejects s.device.disk incoming →
    Ends (BarCache.appendStream incoming now) s r s' →
    (∃ e, r = .error e) ∧ s'.device.disk = s.device.disk
  markPublished : ∀ opened now r s', onRails opened = false →
    Ends (BarCache.markPublished opened now) s r s' →
    (∃ cause, r = .error (.fault (.contract cause))) ∧ s' = s
  save : s.Unread ∨ s.cache.isLoaded = false → ∀ now r s', Ends (BarCache.save now) s r s' →
    r = .error (.fault (.input .saveBeforeLoad)) ∧ s' = s

/-- In every session, whatever its cache holds and whatever stands on its disk, refused operations
leave memory and disk as they were; of a stream append that is refused this is said of the disk. -/
theorem Session.kept_by_refusals (s : Session) : s.KeptByRefusals where
  load := fun _ _ => load_refused
  append := fun _ _ _ => append_refused
  appendStream := fun _ _ _ _ => appendStream_refused
  badArrival := fun _ _ _ _ rejects ended => appendStream_rejects rejects ended
  markPublished := fun _ _ _ _ off ended => markPublished_offRails off ended
  save := by
    rintro (unread | unloaded) now r s' ended
    · exact save_unloaded unread.unloaded ended
    · exact save_unloaded unloaded ended

/-- A cache with a row, on a disk that has an empty file where the rows should be. -/
def metalHeaderless : Session :=
  ⟨metalSession.cache,
    sound ((Disk.empty.set ["data"] .directory).set ["data", "XAUUSD_1m.csv"] (.file [])) 1⟩

/-- The same cache on a disk with nothing on it. -/
def metalMoved : Session :=
  ⟨metalSession.cache, sound Disk.empty 1⟩

/-- A load, batches with one bad value, a publication at no plausible time, and the save of a cache
that was never loaded, each refused. -/
theorem metal_kept_by_refusals :
    (∃ s', Ends load metalHeaderless
        (.error (.fault (.contract (.headerMismatch "/data/XAUUSD_1m.csv")))) s' ∧
      s'.cache = metalHeaderless.cache ∧ s'.device.disk = metalHeaderless.device.disk) ∧
    (∃ s', Ends (append (metalArrival.incoming ++ [.null])) metalHeaderless
        (.error (.fault (.contract .barNotObject))) s' ∧ s' = metalHeaderless) ∧
    (∃ s', Ends (appendStream metalArrival.incoming 1700000160000) metalHeaderless
        (.error (.fault (.contract (.headerMismatch "/data/XAUUSD_1m.csv")))) s' ∧
      s'.device.disk = metalHeaderless.device.disk) ∧
    (∃ s', Ends (appendStream (metalArrival.incoming ++ [.null]) 1700000160000) metalMoved
        (.error (.fault (.contract .barNotObject))) s' ∧
      s'.device.disk = metalMoved.device.disk) ∧
    (∃ s', Ends (markPublished 17 1700000160000) metalHeaderless
        (.error (.fault (.contract (.timeTooSmall "last_published_open_time_ms" 17)))) s' ∧
      s' = metalHeaderless) ∧
    ∃ s', Ends (save 1700000160000) ⟨metalCache, metalHeaderless.device⟩
        (.error (.fault (.input .saveBeforeLoad))) s' ∧
      s' = ⟨metalCache, metalHeaderless.device⟩ := by
  have kept := metalHeaderless.kept_by_refusals
  have loadEnds : Ends load metalHeaderless
      (.error (.fault (.contract (.headerMismatch "/data/XAUUSD_1m.csv")))) _ :=
    Ends.of_result (by decide +kernel)
  have appendEnds : Ends (append (metalArrival.incoming ++ [.null])) metalHeaderless
      (.error (.fault (.contract .barNotObject))) _ :=
    Ends.of_result (by decide +kernel)
  have streamEnds : Ends (appendStream metalArrival.incoming 1700000160000) metalHeaderless
      (.error (.fault (.contract (.headerMismatch "/data/XAUUSD_1m.csv")))) _ :=
    Ends.of_result (by decide +kernel)
  have badEnds : Ends (appendStream (metalArrival.incoming ++ [.null]) 1700000160000) metalMoved
      (.error (.fault (.contract .barNotObject))) _ :=
    Ends.of_result (by decide +kernel)
  have markEnds : Ends (markPublished 17 1700000160000) metalHeaderless
      (.error (.fault (.contract (.timeTooSmall "last_published_open_time_ms" 17)))) _ :=
    Ends.of_result (by decide +kernel)
  have saveEnds : Ends (save 1700000160000) ⟨metalCache, metalHeaderless.device⟩
      (.error (.fault (.input .saveBeforeLoad))) _ :=
    Ends.of_result (by decide +kernel)
  have rejects : metalMoved.cache.Rejects metalMoved.device.disk
      (metalArrival.incoming ++ [.null]) :=
    Or.inr (Or.inr ⟨.null, List.mem_append_right _ List.mem_cons_self, nofun⟩)
  have unread : Session.Unread ⟨metalCache, metalHeaderless.device⟩ := .start metalCache_created _
  refine ⟨⟨_, loadEnds, kept.load _ _ loadEnds⟩, ⟨_, appendEnds, kept.append _ _ _ appendEnds⟩,
    ⟨_, streamEnds, ?_⟩, ⟨_, badEnds, ?_⟩, ⟨_, markEnds, ?_⟩, ⟨_, saveEnds, ?_⟩⟩
  · exact kept.appendStream _ _ _ _ (by decide) streamEnds
  · exact (metalMoved.kept_by_refusals.badArrival _ _ _ _ rejects badEnds).2
  · exact (kept.markPublished _ _ _ _ (by decide) markEnds).2
  · exact ((Session.kept_by_refusals _).save (Or.inl unread) _ _ _ saveEnds).2

end MarketBook
