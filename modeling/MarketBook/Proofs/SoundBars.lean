/-
Module: MarketBook.Proofs.SoundBars
Purpose: Both gates let sound bars through and no others: the one for JSON values and the one for
  the rows of a file.
Main exports:
  Bar.IsSound, Bar.Described, Bar.accept_eq_ok, Bar.accept_sound, Table.readRow_eq_ok,
  Table.read_sound
-/
import Mathlib.Logic.Basic
import MarketBook.Bar.Admission
import MarketBook.Cache.Table
import MarketBook.Proofs.Numerals
import MarketBook.Proofs.RowLists

namespace MarketBook

open Decimal Outcome Time

/-!
The two gates check the same things in different orders and by different means.  What a bar has
passed is stated once, as a structure, and each gate is shown to establish every part of it.  What a
gate goes by is stated beside it: the first takes exactly the bars that objects describe, the second
exactly the sound bars that fields hold.
-/

/-- A bar of the binding with plausible times that fit its timeframe, and with finite numbers. -/
structure Bar.IsSound (binding : Binding) (b : Bar) : Prop where
  symbol : b.symbol = binding.symbol
  tf : b.tf = binding.tf
  onTheRails : onRails b.openTime = true
  aligned : b.openTime % binding.tf.ms = 0
  closes : b.closeTime = b.openTime + binding.tf.ms - 1
  finite : ∀ q ∈ b.quantities, q.2.isFinite = true

theorem Time.onRails_fits {ts : Int} (onTheRails : onRails ts = true) :
    Text.isSigned64 ts = true := by
  obtain ⟨low, high⟩ := onRails_iff.1 onTheRails
  simp only [firstOnRails, lastOnRails] at low high
  rw [Text.isSigned64_iff]
  omega

namespace Bar

variable {binding : Binding} {symbol : String} {tf : Timeframe} {o : Json} {b : Bar}

/-! ### Bars from JSON -/

/-- The object describes the bar as one of the binding.  A symbol or a timeframe counts only where it
is given as a text; then it has to be that of the binding. -/
structure Described (binding : Binding) (o : Json) (b : Bar) : Prop where
  isObject : ∃ fields, o = .obj fields
  symbolText : ∀ raw, o.get? "symbol" = some (.str raw) →
    Symbol.normalize raw = .ok binding.symbol
  tfText : ∀ raw, o.get? "tf" = some (.str raw) → Timeframe.read raw = .ok binding.tf
  openTime : (o.get? "open_time_ms").or (o.get? "open_time") = some (.int b.openTime)
  closeTime : (o.get? "close_time_ms").or (o.get? "close_time") = some (.int b.closeTime)
  closeOnRails : onRails b.closeTime = true
  complete : o.get? "complete" = some (.bool true)
  opening : (o.get? "open").bind number? = some b.opening
  high : (o.get? "high").bind number? = some b.high
  low : (o.get? "low").bind number? = some b.low
  closing : (o.get? "close").bind number? = some b.closing
  volume : requireVolume (o.get? "volume") = .ok b.volume
  ticks : requireTicks (o.get? "tick_count") = .ok b.ticks
  sound : b.IsSound binding

theorem requireObject_eq_ok : requireObject o = .ok () ↔ ∃ fields, o = .obj fields := by
  cases o <;> simp [requireObject]

theorem requireSymbol_eq_ok :
    requireSymbol symbol o = .ok () ↔
      ∀ raw, o.get? "symbol" = some (.str raw) → Symbol.normalize raw = .ok symbol := by
  unfold requireSymbol
  rcases o.get? "symbol" with _ | v
  · simp
  · cases v with
    | str raw =>
        simp only [Option.bind_some, Json.asText?, Option.some.injEq, Json.str.injEq, forall_eq']
        generalize Symbol.normalize raw = found
        cases found with
        | error cause => simp
        | ok found => by_cases same : found = symbol <;> simp [same]
    | _ => simp [Json.asText?]

theorem requireTimeframe_eq_ok :
    requireTimeframe tf o = .ok () ↔
      ∀ raw, o.get? "tf" = some (.str raw) → Timeframe.read raw = .ok tf := by
  unfold requireTimeframe
  rcases o.get? "tf" with _ | v
  · simp
  · cases v with
    | str raw =>
        simp only [Option.bind_some, Json.asText?, Option.some.injEq, Json.str.injEq, forall_eq']
        generalize Timeframe.read raw = found
        cases found with
        | error cause => simp
        | ok found => by_cases same : found = tf <;> simp [same]
    | _ => simp [Json.asText?]

theorem timeField_eq_ok {name short : String} {v : Json} :
    timeField name short o = .ok v ↔ (o.get? name).or (o.get? short) = some v := by
  unfold timeField
  cases (o.get? name).or (o.get? short) <;> simp

/-- A time stamp is taken from an integer and from nothing else. -/
theorem requireRailsJson_eq_ok {field : String} {j : Json} {ts : Int} :
    requireRailsJson field j = .ok ts ↔ j = .int ts ∧ onRails ts = true := by
  cases j with
  | int n =>
      simp only [requireRailsJson, Json.int.injEq]
      split
      case isTrue =>
        rw [requireRails_eq_ok]
        constructor
        · rintro ⟨rfl, onTheRails⟩
          exact ⟨rfl, onTheRails⟩
        · rintro ⟨rfl, onTheRails⟩
          exact ⟨rfl, onTheRails⟩
      case isFalse beyond =>
        refine ⟨nofun, ?_⟩
        rintro ⟨rfl, onTheRails⟩
        exact absurd (Time.onRails_fits onTheRails) beyond
  | _ => exact ⟨nofun, nofun⟩

theorem isComplete_iff : isComplete o = true ↔ o.get? "complete" = some (.bool true) := by
  unfold isComplete
  rcases o.get? "complete" with _ | v
  · simp
  · cases v <;> simp

theorem requireFinite_eq_ok {field : String} {v : Option Json} {x : Binary64} :
    requireFinite field v = .ok x ↔ v.bind number? = some x ∧ x.isFinite = true := by
  unfold requireFinite
  rw [← Option.filter_eq_some_iff]
  cases (v.bind number?).filter (·.isFinite) <;> simp

theorem requireVolume_eq_ok {v : Option Json} {x : Binary64} (h : requireVolume v = .ok x) :
    x.isFinite = true := by
  unfold requireVolume at h
  split at h
  · cases h
    decide
  · cases h
    decide
  · exact (requireFinite_eq_ok.1 h).2

/-- The gate lets in exactly the bars that objects describe. -/
theorem accept_eq_ok : accept binding.symbol binding.tf o = .ok b ↔ b.Described binding o := by
  constructor
  · intro h
    obtain ⟨object, h⟩ := check_eq_ok.1 h
    obtain ⟨symbolText, h⟩ := check_eq_ok.1 h
    obtain ⟨tfText, h⟩ := check_eq_ok.1 h
    obtain ⟨openField, openFound, h⟩ := bind_eq_ok.1 h
    obtain ⟨closeField, closeFound, h⟩ := bind_eq_ok.1 h
    obtain ⟨openTime, opened, h⟩ := bind_eq_ok.1 h
    obtain ⟨closeTime, closed, h⟩ := bind_eq_ok.1 h
    obtain ⟨geometry, h⟩ := check_eq_ok.1 h
    obtain ⟨complete, h⟩ := (guard_eq_ok violated_bind_ne_ok).1 h
    obtain ⟨volume, volumeRead, h⟩ := bind_eq_ok.1 h
    obtain ⟨opening, openingRead, h⟩ := bind_eq_ok.1 h
    obtain ⟨high, highRead, h⟩ := bind_eq_ok.1 h
    obtain ⟨low, lowRead, h⟩ := bind_eq_ok.1 h
    obtain ⟨closing, closingRead, h⟩ := bind_eq_ok.1 h
    obtain ⟨ticks, counted, h⟩ := bind_eq_ok.1 h
    cases h
    obtain ⟨rfl, openOnRails⟩ := requireRailsJson_eq_ok.1 opened
    obtain ⟨rfl, closeOnRails⟩ := requireRailsJson_eq_ok.1 closed
    obtain ⟨aligned, closes⟩ := Bucket.requireGeometry_eq_ok.1 geometry
    obtain ⟨opening, openingFinite⟩ := requireFinite_eq_ok.1 openingRead
    obtain ⟨high, highFinite⟩ := requireFinite_eq_ok.1 highRead
    obtain ⟨low, lowFinite⟩ := requireFinite_eq_ok.1 lowRead
    obtain ⟨closing, closingFinite⟩ := requireFinite_eq_ok.1 closingRead
    exact {
      isObject := requireObject_eq_ok.1 object
      symbolText := requireSymbol_eq_ok.1 symbolText
      tfText := requireTimeframe_eq_ok.1 tfText
      openTime := timeField_eq_ok.1 openFound
      closeTime := timeField_eq_ok.1 closeFound
      closeOnRails := closeOnRails
      complete := isComplete_iff.1 (by simpa using complete)
      opening := opening
      high := high
      low := low
      closing := closing
      volume := volumeRead
      ticks := counted
      sound := ⟨rfl, rfl, openOnRails, aligned, closes, by
        simpa [quantities] using ⟨openingFinite, highFinite, lowFinite, closingFinite,
          requireVolume_eq_ok volumeRead⟩⟩ }
  · intro described
    obtain ⟨symbol, tf, openOnRails, aligned, closes, finite⟩ := described.sound
    simp only [quantities, List.forall_mem_cons] at finite
    obtain ⟨openingFinite, highFinite, lowFinite, closingFinite, -⟩ := finite
    refine check_eq_ok.2 ⟨requireObject_eq_ok.2 described.isObject, ?_⟩
    refine check_eq_ok.2 ⟨requireSymbol_eq_ok.2 described.symbolText, ?_⟩
    refine check_eq_ok.2 ⟨requireTimeframe_eq_ok.2 described.tfText, ?_⟩
    refine bind_eq_ok.2 ⟨_, timeField_eq_ok.2 described.openTime, ?_⟩
    refine bind_eq_ok.2 ⟨_, timeField_eq_ok.2 described.closeTime, ?_⟩
    refine bind_eq_ok.2 ⟨_, requireRailsJson_eq_ok.2 ⟨rfl, openOnRails⟩, ?_⟩
    refine bind_eq_ok.2 ⟨_, requireRailsJson_eq_ok.2 ⟨rfl, described.closeOnRails⟩, ?_⟩
    refine check_eq_ok.2 ⟨Bucket.requireGeometry_eq_ok.2 ⟨aligned, closes⟩, ?_⟩
    refine (guard_eq_ok violated_bind_ne_ok).2 ⟨by simp [isComplete_iff.2 described.complete], ?_⟩
    refine bind_eq_ok.2 ⟨_, described.volume, ?_⟩
    refine bind_eq_ok.2 ⟨_, requireFinite_eq_ok.2 ⟨described.opening, openingFinite⟩, ?_⟩
    refine bind_eq_ok.2 ⟨_, requireFinite_eq_ok.2 ⟨described.high, highFinite⟩, ?_⟩
    refine bind_eq_ok.2 ⟨_, requireFinite_eq_ok.2 ⟨described.low, lowFinite⟩, ?_⟩
    refine bind_eq_ok.2 ⟨_, requireFinite_eq_ok.2 ⟨described.closing, closingFinite⟩, ?_⟩
    refine bind_eq_ok.2 ⟨_, described.ticks, ?_⟩
    rw [← symbol, ← tf]
    rfl

theorem accept_sound (h : accept symbol tf o = .ok b) : b.IsSound ⟨symbol, tf⟩ :=
  (accept_eq_ok.1 h).sound

end Bar

namespace Table

variable {binding : Binding} {path : String} {b : Bar} {rows : List Bar}

/-! ### Bars from a file -/

/-- No quantity is found that is not finite exactly if all are. -/
theorem firstNotFinite?_eq_none :
    b.firstNotFinite? = none ↔ ∀ q ∈ b.quantities, q.2.isFinite = true := by
  simp [Bar.firstNotFinite?]

/-- A row is read exactly if its fields hold a sound bar of the binding. -/
theorem readRow_eq_ok {row : Nat} {record : List Csv.Field} :
    readRow binding path row record = .ok b ↔
      (Csv.texts? record).bind barOfFields? = some b ∧ b.IsSound binding := by
  unfold readRow
  split
  case h_1 unreadable => simp [unreadable]
  case h_2 found held =>
    simp only [guard_eq_ok violated_bind_ne_ok, bind_eq_ok (α := Int), requireRails_eq_ok,
      check_eq_ok, Bucket.requireGeometry_eq_ok]
    constructor
    · rintro ⟨own, ts, ⟨-, onTheRails⟩, ⟨aligned, closes⟩, h⟩
      split at h
      · cases h
      case h_2 finite =>
        cases h
        rw [not_or, not_not, not_not] at own
        exact ⟨held, own.1, own.2, onTheRails, aligned, closes, firstNotFinite?_eq_none.1 finite⟩
    · rintro ⟨same, sound⟩
      rw [held] at same
      cases same
      refine ⟨?_, b.openTime, ⟨rfl, sound.onTheRails⟩, ⟨sound.aligned, sound.closes⟩, ?_⟩
      · rw [not_or, not_not, not_not]
        exact ⟨sound.symbol, sound.tf⟩
      · rw [firstNotFinite?_eq_none.2 sound.finite]
        rfl

theorem readRows_sound {records : List (List Csv.Field)} :
    ∀ {row : Nat} {rows : List Bar}, readRows binding path row records = .ok rows →
      ∀ b ∈ rows, b.IsSound binding := by
  induction records with
  | nil =>
      intro row rows h
      cases h
      nofun
  | cons record rest ih =>
      intro row rows h
      obtain ⟨first, firstRead, h⟩ := bind_eq_ok.1 h
      obtain ⟨others, othersRead, h⟩ := bind_eq_ok.1 h
      cases h
      intro b hb
      rcases List.mem_cons.1 hb with rfl | hb
      · exact (readRow_eq_ok.1 firstRead).2
      · exact ih othersRead b hb

/-- A file that can be read holds sound bars in ascending order. -/
theorem read_sound {content : Text.Octets} (h : read binding path content = .ok rows) :
    Rows.Ascending rows ∧ ∀ b ∈ rows, b.IsSound binding := by
  obtain ⟨-, h⟩ := check_eq_ok.1 h
  obtain ⟨found, foundRead, h⟩ := bind_eq_ok.1 h
  obtain ⟨ascending, h⟩ := check_eq_ok.1 h
  cases h
  exact ⟨Rows.requireAscending_eq_ok.1 ascending, readRows_sound foundRead⟩

end Table

end MarketBook
