/-
Module: MarketBook.Proofs.TableTexts
Purpose: A table that was written is read back as the same rows.
Main exports:
  Bar.Storable, Table.barOfFields?_fieldsOf, Table.read_write
-/
import MarketBook.Proofs.CsvRecords
import MarketBook.Proofs.DecimalTexts
import MarketBook.Proofs.SoundBars

namespace MarketBook

open Csv Decimal Outcome Text

/-- A sound bar whose count of ticks has 64 bits. -/
structure Bar.Storable (binding : Binding) (b : Bar) : Prop where
  sound : b.IsSound binding
  ticks : b.ticks < limit64

variable {binding : Binding} {path : String} {b : Bar} {rows : List Bar}

theorem Bar.IsSound.closeTime_fits (sound : b.IsSound binding) : isSigned64 b.closeTime = true := by
  obtain ⟨low, high⟩ := Time.onRails_iff.1 sound.onTheRails
  simp only [Time.firstOnRails, Time.lastOnRails] at low high
  have width : 0 < binding.tf.ms ∧ binding.tf.ms ≤ 86400000 := by
    cases binding.tf <;> decide
  rw [isSigned64_iff, sound.closes]
  omega

namespace Table

/-! ### One row -/

/-- An integer in decimal has no mark of another base. -/
theorem integer?_decimal {α : Type} {read? : Nat → List Char → Option α} {s : String}
    (decimal : ∀ c ∈ s.toList, c ≠ 'x') : integer? read? s = read? 10 s.toList := by
  unfold integer?
  split
  case h_1 r same =>
    rw [same] at decimal
    exact absurd rfl (decimal 'x' (List.mem_cons_of_mem '0' List.mem_cons_self))
  case h_2 => rfl

theorem integer?_signed {n : Int} (inRange : isSigned64 n = true) :
    integer? signed? (toString n) = some n := by
  rw [integer?_decimal, signed?_toString inRange]
  intro c h
  rw [toString_int_toList] at h
  split at h
  · exact ne_of_isDigit (allDigits_toDigits _ c h) (by decide)
  · rcases List.mem_cons.1 h with rfl | h
    · decide
    · exact ne_of_isDigit (allDigits_toDigits _ c h) (by decide)

theorem integer?_ticks {n : Nat} (inRange : n < limit64) :
    integer? (fun base => unsigned? base limit64) (toString n) = some n := by
  have digits : (toString n).toList = Nat.toDigits 10 n := Nat.toList_repr
  rw [integer?_decimal, digits, unsigned?_toDigits inRange]
  intro c h
  rw [digits] at h
  exact ne_of_isDigit (allDigits_toDigits n c h) (by decide)

theorem read?_number {x : Binary64} (finite : x.isFinite = true) :
    read? (numberLayout.render x) = some x :=
  Layout.read?_render (Or.inl rfl) finite

theorem barOfFields?_fieldsOf (storable : b.Storable binding) :
    barOfFields? (fieldsOf b) = some b := by
  obtain ⟨sound, ticks⟩ := storable
  have finite := sound.finite
  simp only [Bar.quantities, List.mem_cons, List.not_mem_nil, or_false, forall_eq_or_imp,
    forall_eq] at finite
  obtain ⟨opening, high, low, closing, volume⟩ := finite
  simp only [barOfFields?, fieldsOf, Timeframe.read_label, Except.toOption,
    integer?_signed (Time.onRails_fits sound.onTheRails), integer?_signed sound.closeTime_fits,
    read?_number opening, read?_number high, read?_number low, read?_number closing,
    read?_number volume, integer?_ticks ticks]
  rfl

theorem readRow_write (storable : b.Storable binding) (row : Nat) :
    readRow binding path row ((fieldsOf b).map encode) = .ok b := by
  rw [readRow_eq_ok, texts?_encode, Option.bind_some]
  exact ⟨barOfFields?_fieldsOf storable, storable.sound⟩

/-! ### All rows -/

theorem readRows_write (storable : ∀ b ∈ rows, b.Storable binding) (row : Nat) :
    readRows binding path row (rows.map fun b => (fieldsOf b).map encode) = .ok rows := by
  induction rows generalizing row with
  | nil => rfl
  | cons b rest ih =>
      rw [List.map_cons, readRows, readRow_write (storable b List.mem_cons_self),
        ih fun c h => storable c (List.mem_cons_of_mem b h)]
      rfl

/-- The records of a written table: the names of the columns, then the fields of each row. -/
theorem records_write (rows : List Bar) :
    records (write rows) = columns.map encode :: rows.map fun b => (fieldsOf b).map encode := by
  have lines : writeText rows = (columns :: rows.map fieldsOf).flatMap writeRecord := by
    rw [List.flatMap_cons, List.flatMap_map]
    rfl
  have noMark : skipMark (write rows) = write rows := by
    have first : writeRecord columns = 's' :: (writeRecord columns).tail := by decide
    rw [write, encode_ofList, writeText, first, List.cons_append, octetsOf_cons,
      show String.utf8EncodeChar 's' = [Char.toUInt8 's'] by decide, List.singleton_append]
    unfold skipMark
    split
    case h_1 same => exact absurd (List.cons.inj same).1 (by decide)
    case h_2 => rfl
  unfold records
  rw [noMark, write, encode_ofList, lines, recordsFrom_write]
  · simp
  · intro line h
    rcases List.mem_cons.1 h with rfl | h
    · decide
    · obtain ⟨b, -, rfl⟩ := List.mem_map.1 h
      simp [fieldsOf]

/-- Reading what was written gives the rows back, if they ascend and both their gates would let them
pass. -/
theorem read_write (ascending : Rows.Ascending rows) (storable : ∀ b ∈ rows, b.Storable binding) :
    read binding path (write rows) = .ok rows := by
  have header : requireHeader path (columns.map encode) = .ok () := by
    unfold requireHeader
    rw [texts?_encode]
    rfl
  unfold read
  rw [records_write]
  unfold readRecords
  rw [List.headD_cons, List.tail_cons, check_eq_ok]
  refine ⟨header, bind_eq_ok.2 ⟨rows, readRows_write storable 1, ?_⟩⟩
  exact check_eq_ok.2 ⟨Rows.requireAscending_eq_ok.2 ascending, rfl⟩

end Table

end MarketBook
