/-
Module: MarketBook.Proofs.CacheNumbers
Purpose: The numbers that a cache holds in memory are in the ranges of their fields.
Main exports:
  Action.Fits, BarCache.Fits, Reachable.storable, Reachable.fits, BarCache.metaToSave_fits
-/
import MarketBook.Proofs.CacheRuns
import MarketBook.Proofs.MetaTexts
import MarketBook.Proofs.TableTexts

namespace MarketBook

open BarCache Outcome Text

/-!
Integers have no bound in this model, but those that come in have one: a JSON text holds integers of
64 bits only, and every instant that is handed in is one of them.  What the files hold is checked
when it is read.  So all that a save writes is in range, and can be read again.
-/

/-- Integers at the keys of an object have 64 bits, as all that are read from text have. -/
def Json.FieldsFit (j : Json) : Prop :=
  ∀ key n, j.get? key = some (.int n) → Json.IsInteger64 n

theorem Json.fieldsFit_obj {fields : List (String × Json)}
    (each : ∀ f ∈ fields, ∀ n, f.2 = .int n → Json.IsInteger64 n) : (Json.obj fields).FieldsFit := by
  intro key n found
  obtain ⟨f, held, same⟩ := Option.map_eq_some_iff.1 found
  exact each f (List.mem_of_find?_eq_some held) n same

/-- Everything that is handed to a step is in range. -/
structure Action.Fits (a : Action) : Prop where
  incoming : ∀ j ∈ a.incoming, j.FieldsFit
  heartbeats : ∀ ms ∈ a.heartbeats, isSigned64 ms = true

theorem metalArrival_fits : metalArrival.Fits where
  incoming := by
    intro j hj
    rw [List.mem_singleton.1 hj]
    apply Json.fieldsFit_obj
    intro f hf n same
    simp only [List.mem_cons, List.not_mem_nil, or_false] at hf
    rcases hf with rfl | rfl | rfl | rfl | rfl | rfl | rfl <;> cases same <;>
      exact ⟨by decide, by decide⟩
  heartbeats := by
    intro ms hms
    rw [List.mem_singleton.1 hms]
    decide

/-! ### Rows -/

theorem Bar.requireTicks_fits {o : Json} {ticks : Nat} (fits : o.FieldsFit)
    (h : Bar.requireTicks (o.get? "tick_count") = .ok ticks) : ticks < limit64 := by
  have zero : 0 < limit64 := by decide
  unfold Bar.requireTicks at h
  split at h
  case h_1 =>
    cases h
    exact zero
  case h_2 =>
    cases h
    exact zero
  case h_3 n found =>
    split at h
    case isTrue positive =>
      cases h
      obtain ⟨-, high⟩ := fits _ n found
      simp only [Int.ofNat_eq_natCast] at high
      omega
    case isFalse => cases h
  case h_4 => cases h
  case h_5 => cases h

theorem Table.barOfFields?_ticks {record : List String} {b : Bar}
    (h : Table.barOfFields? record = some b) : b.ticks < limit64 := by
  unfold Table.barOfFields? at h
  split at h
  case h_1 =>
    simp only [bind, Option.bind_eq_some_iff] at h
    obtain ⟨tf, -, openTime, -, closeTime, -, opening, -, high, -, low, -, closing, -, volume, -,
      ticks, read, same⟩ := h
    cases same
    have limited : ∀ base cs n, unsigned? base limit64 cs = some n → n < limit64 := by
      intro base cs n found
      exact of_decide_eq_true (Option.filter_eq_some_iff.1 found).2
    unfold Table.integer? at read
    split at read
    · exact limited _ _ _ read
    · exact limited _ _ _ read
  case h_2 => cases h

theorem Table.readRows_ticks {binding : Binding} {path : String} {records : List (List Csv.Field)} :
    ∀ {row : Nat} {rows : List Bar}, Table.readRows binding path row records = .ok rows →
      ∀ b ∈ rows, b.ticks < limit64 := by
  induction records with
  | nil =>
      intro row rows h
      cases h
      nofun
  | cons record rest ih =>
      intro row rows h
      obtain ⟨first, firstRead, h⟩ := bind_eq_ok.1 h
      obtain ⟨others, othersRead, h⟩ := bind_eq_ok.1 h
      cases h
      intro b hb
      rcases List.mem_cons.1 hb with rfl | hb
      · obtain ⟨fields, -, held⟩ := Option.bind_eq_some_iff.1 (Table.readRow_eq_ok.1 firstRead).1
        exact Table.barOfFields?_ticks held
      · exact ih othersRead b hb

/-- Both gates let only bars through that a table can hold. -/
theorem gated_storable (binding : Binding) {a : Action} (fits : a.Fits) :
    Gated (Bar.Storable binding) binding a.incoming where
  accepted := by
    intro j hj b accepted
    have described := Bar.accept_eq_ok.1 accepted
    exact ⟨described.sound, Bar.requireTicks_fits (fits.incoming j hj) described.ticks⟩
  read := by
    intro path content rows read b hb
    obtain ⟨-, h⟩ := check_eq_ok.1 read
    obtain ⟨found, foundRead, h⟩ := bind_eq_ok.1 h
    obtain ⟨-, h⟩ := check_eq_ok.1 h
    cases h
    exact ⟨(Table.read_sound read).2 b hb, Table.readRows_ticks foundRead b hb⟩

variable {s : Session}

theorem Reachable.storable (reachable : Reachable Action.Fits s) :
    s.cache.Holds (Bar.Storable s.cache.binding) :=
  reachable.holds fun binding _ fits => gated_storable binding fits

/-- Rows that ascend within bounds are not more than the bounds let in. -/
theorem Rows.length_le {rows : List Bar} (ascending : Rows.Ascending rows) :
    ∀ {low high : Int}, (∀ b ∈ rows, low ≤ b.openTime ∧ b.openTime ≤ high) →
      rows.length ≤ (high + 1 - low).toNat := by
  induction rows with
  | nil => exact fun _ => Nat.zero_le _
  | cons b rest ih =>
      intro low high within
      obtain ⟨first, tail⟩ := List.pairwise_cons.1 ascending
      have bounds := within b List.mem_cons_self
      have behind := @ih tail (b.openTime + 1) high fun c hc =>
        ⟨first c hc, (within c (List.mem_cons_of_mem b hc)).2⟩
      rw [List.length_cons]
      omega

/-! ### Metadata -/

/-- The instants in memory are in range. -/
structure BarCache.Fits (c : BarCache) : Prop where
  waiting : ∀ ms ∈ c.heartbeat, isSigned64 ms = true
  heartbeat : isSigned64 c.metadata.heartbeat = true
  watermark : isSigned64 c.metadata.watermark = true

/-- The instants of metadata that were read are in range. -/
theorem CacheMeta.read_fits {text : String} {m : CacheMeta} (h : CacheMeta.read text = .ok m) :
    isSigned64 m.heartbeat = true ∧ isSigned64 m.watermark = true := by
  have instant : ∀ key j n, fieldOr 0 Json.asInt64? key j = some n → isSigned64 n = true := by
    intro key j n found
    unfold fieldOr at found
    split at found
    · cases found
      decide
    · exact (Option.filter_eq_some_iff.1 found).2
  unfold CacheMeta.read at h
  split at h
  case h_2 => cases h
  case h_1 j _ =>
    unfold CacheMeta.ofJson at h
    split at h
    case h_2 => cases h
    case h_1 =>
      obtain ⟨-, h⟩ := check_eq_ok.1 h
      split at h
      case h_2 => cases h
      case h_1 found held =>
        cases h
        unfold CacheMeta.ofFields? at held
        simp only [bind, Option.bind_eq_some_iff] at held
        obtain ⟨rows, -, lastCloseTime, -, lastRefresh, -, heartbeat, beats, watermark, marks,
          symbol, -, tf, -, same⟩ := held
        cases same
        exact ⟨instant _ _ _ beats, instant _ _ _ marks⟩

variable {a : Action} {c c' : BarCache}

theorem BarCache.metaOn_fits {d : Disk} {m : CacheMeta} (h : c.metaOn d = .ok m) :
    isSigned64 m.heartbeat = true ∧ isSigned64 m.watermark = true := by
  unfold BarCache.metaOn at h
  split at h
  · cases h
    decide
  · exact CacheMeta.read_fits h
  · cases h

theorem BarCache.Fits.pending_or {c : BarCache} (fits : c.Fits) {standard : Int}
    (inRange : isSigned64 standard = true) : isSigned64 (c.heartbeat.getD standard) = true := by
  cases waiting : c.heartbeat with
  | none => exact inRange
  | some ms => exact fits.waiting ms waiting

/-- Every change keeps the instants in memory in range, if those that are handed in are. -/
theorem BarCache.Change.fits (change : Change a c c') (allowed : a.Fits) (fits : c.Fits) :
    c'.Fits := by
  cases change with
  | load metaHeld _ =>
      obtain ⟨heartbeat, watermark⟩ := metaOn_fits metaHeld
      exact ⟨fits.waiting, fits.pending_or heartbeat, watermark⟩
  | append _ => exact ⟨fits.waiting, fits.heartbeat, fits.watermark⟩
  | merge _ => exact ⟨fits.waiting, fits.heartbeat, fits.watermark⟩
  | stamp own =>
      refine ⟨fun ms same => ?_, fits.heartbeat, fits.watermark⟩
      cases same
      exact fits.pending_or (allowed.heartbeats _ own)
  | beat own =>
      have inRange := allowed.heartbeats _ own
      refine ⟨fun ms same => ?_, inRange, fits.watermark⟩
      cases same
      exact inRange
  | mark onTheRails => exact ⟨fits.waiting, fits.heartbeat, Time.onRails_fits onTheRails⟩
  | save _ => exact ⟨nofun, fits.pending_or fits.heartbeat, fits.watermark⟩

theorem BarCache.Changes.fits (changes : Changes a c c') (allowed : a.Fits) (fits : c.Fits) :
    c'.Fits := by
  induction changes with
  | refl => exact fits
  | tail _ change ih => exact change.fits allowed ih

theorem Reachable.fits (reachable : Reachable Action.Fits s) : s.cache.Fits := by
  induction reachable with
  | start created device =>
      obtain ⟨-, normal, -, rfl⟩ := create_eq_ok created
      exact ⟨nofun, rfl, rfl⟩
  | step a permitted _ ih => exact (a.changes _).fits permitted ih

/-- The metadata that a save of a reachable cache writes can be read again. -/
theorem BarCache.metaToSave_fits (reachable : Reachable Action.Fits s) (now : Int) :
    (s.cache.metaToSave now).Fits := by
  have fits := reachable.fits
  have holds := reachable.storable
  refine ⟨?_, ?_, fits.pending_or fits.heartbeat, fits.watermark⟩
  · have count := @Rows.length_le _ holds.ascending Time.firstOnRails Time.lastOnRails fun b hb =>
      Time.onRails_iff.1 (holds.rows b hb).sound.onTheRails
    apply lt_of_le_of_lt count
    decide
  · change isSigned64 ((s.cache.rows.getLast?.map (·.closeTime)).getD 0) = true
    cases last : s.cache.rows.getLast? with
    | none => decide
    | some b => exact (holds.rows b (List.mem_of_getLast? last)).sound.closeTime_fits

end MarketBook
