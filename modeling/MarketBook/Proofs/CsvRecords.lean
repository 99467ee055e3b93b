/-
Module: MarketBook.Proofs.CsvRecords
Purpose: Records written as comma-separated lines are read back octet for octet.
Main exports:
  Csv.recordsFrom_writeField, Csv.recordsFrom_writeFields, Csv.recordsFrom_write, Csv.texts?_encode
-/
import Mathlib.Logic.Basic
import MarketBook.Csv.Reader
import MarketBook.Csv.Writer

namespace MarketBook.Csv

open Text

/-!
The writer works on characters and the reader on octets.  They agree because every octet of a
character beyond ASCII is beyond ASCII too, so an octet that looks like a mark is one.
-/

variable {cs : List Char} {c mark : Char} {s : String} {p : Position} {field : Field}
  {fields : List Field}

/-- The octets of characters. -/
def octetsOf (cs : List Char) : Octets :=
  cs.flatMap String.utf8EncodeChar

theorem octetsOf_append (front back : List Char) :
    octetsOf (front ++ back) = octetsOf front ++ octetsOf back :=
  List.flatMap_append

theorem octetsOf_cons (c : Char) (cs : List Char) :
    octetsOf (c :: cs) = String.utf8EncodeChar c ++ octetsOf cs :=
  List.flatMap_cons

theorem encode_ofList (cs : List Char) : encode (String.ofList cs) = octetsOf cs := by
  simp [encode, octetsOf]

/-- An ASCII octet stands for its own character and is part of no other. -/
theorem eq_of_mem_encodeChar {b : UInt8} (ascii : b.toNat < 128)
    (h : b ∈ String.utf8EncodeChar c) : c.toNat = b.toNat := by
  have beyond : ∀ n : Nat, 128 ≤ n → n < 256 → b ≠ UInt8.ofNat n := by
    intro n low high same
    rw [same, UInt8.toNat_ofNat_of_lt' high] at ascii
    omega
  unfold String.utf8EncodeChar at h
  simp only [] at h
  split at h
  case isTrue small =>
    rw [List.mem_singleton.1 h, UInt8.toNat_ofNat_of_lt' (show c.val.toNat < 256 by omega)]
    rfl
  case isFalse =>
    split at h
    · simp only [List.mem_cons, List.not_mem_nil, or_false] at h
      rcases h with h | h
      · exact absurd h (beyond _ (by omega) (by omega))
      · exact absurd h (beyond _ (by omega) (by omega))
    · split at h
      · simp only [List.mem_cons, List.not_mem_nil, or_false] at h
        rcases h with h | h | h
        · exact absurd h (beyond _ (by omega) (by omega))
        · exact absurd h (beyond _ (by omega) (by omega))
        · exact absurd h (beyond _ (by omega) (by omega))
      · simp only [List.mem_cons, List.not_mem_nil, or_false] at h
        rcases h with h | h | h | h
        · exact absurd h (beyond _ (by omega) (by omega))
        · exact absurd h (beyond _ (by omega) (by omega))
        · exact absurd h (beyond _ (by omega) (by omega))
        · exact absurd h (beyond _ (by omega) (by omega))

theorem eq_of_mark_mem (ascii : mark.toNat < 128) (h : mark.toUInt8 ∈ octetsOf cs) :
    mark ∈ cs := by
  obtain ⟨c, hc, inside⟩ := List.mem_flatMap.1 h
  have value : mark.toUInt8.toNat = mark.toNat := by
    change mark.toNat % 256 = mark.toNat
    omega
  have same := eq_of_mem_encodeChar (by omega) inside
  rw [value] at same
  rwa [← Char.toNat_inj.1 same]

/-! ### One field -/

theorem quote_ne_comma : quote ≠ comma := by decide

theorem lineFeed_ne_quote : Char.toUInt8 '\n' ≠ quote := by decide

@[simp] theorem isLineEnd_quote : isLineEnd quote = false := by decide

@[simp] theorem isLineEnd_comma : isLineEnd comma = false := by decide

@[simp] theorem isLineEnd_lineFeed : isLineEnd (Char.toUInt8 '\n') = true := by decide

/-- Octets that are no marks. -/
def Plain (bs : Octets) : Prop :=
  ∀ b ∈ bs, isLineEnd b = false ∧ b ≠ comma ∧ b ≠ quote

theorem plain_octetsOf (bare : cs.any needsQuotes = false) : Plain (octetsOf cs) := by
  have absent : ∀ mark : Char, mark.toNat < 128 → needsQuotes mark = true →
      mark.toUInt8 ∉ octetsOf cs := by
    intro mark ascii marks h
    exact List.any_eq_false.1 bare mark (eq_of_mark_mem ascii h) marks
  intro b h
  refine ⟨?_, ?_, ?_⟩
  · unfold isLineEnd
    rw [Bool.or_eq_false_iff, beq_eq_false_iff_ne, beq_eq_false_iff_ne]
    constructor
    · intro same
      exact absent '\n' (by decide) (by decide) (same ▸ h)
    · intro same
      exact absent '\r' (by decide) (by decide) (same ▸ h)
  · rintro rfl
    exact absent ',' (by decide) (by decide) h
  · rintro rfl
    exact absent '"' (by decide) (by decide) h

theorem recordsFrom_bare {bs : Octets} (plain : Plain bs) (rest : Octets) :
    ∀ field, recordsFrom .bare field fields (bs ++ rest) =
      recordsFrom .bare (bs.reverse ++ field) fields rest := by
  induction bs with
  | nil => exact fun _ => rfl
  | cons b bs ih =>
      intro field
      obtain ⟨noLineEnd, noComma, -⟩ := plain b List.mem_cons_self
      have step : recordsFrom .bare field fields (b :: (bs ++ rest)) =
          recordsFrom .bare (b :: field) fields (bs ++ rest) := by
        simp [recordsFrom, noLineEnd, noComma]
      rw [List.cons_append, step, ih fun d h => plain d (List.mem_cons_of_mem b h)]
      simp

/-- A field without marks goes on to the mark behind it. -/
theorem recordsFrom_plain {b : UInt8} {bs : Octets} (plain : Plain (b :: bs))
    (start : p = .recordStart ∨ p = .fieldStart) (rest : Octets) :
    recordsFrom p [] fields (b :: bs ++ rest) =
      recordsFrom .bare (b :: bs).reverse fields rest := by
  obtain ⟨noLineEnd, noComma, noQuote⟩ := plain b List.mem_cons_self
  have step : recordsFrom p [] fields (b :: (bs ++ rest)) =
      recordsFrom .bare [b] fields (bs ++ rest) := by
    rcases start with rfl | rfl
    · simp [recordsFrom, noLineEnd, noComma, noQuote]
    · simp [recordsFrom, noLineEnd, noComma, noQuote]
  rw [List.cons_append, step, recordsFrom_bare fun d h => plain d (List.mem_cons_of_mem b h)]
  simp

/-- Between quotes everything is text, a doubled quote being one. -/
theorem recordsFrom_quoted (cs : List Char) (rest : Octets) :
    ∀ field, recordsFrom .inQuotes field fields (octetsOf (cs.flatMap doubleQuote) ++ rest) =
      recordsFrom .inQuotes ((octetsOf cs).reverse ++ field) fields rest := by
  induction cs with
  | nil => exact fun _ => rfl
  | cons c cs ih =>
      intro field
      rw [List.flatMap_cons, octetsOf_append, List.append_assoc]
      by_cases isQuote : c = '"'
      · subst isQuote
        have step : recordsFrom .inQuotes field fields
            (octetsOf (doubleQuote '"') ++ (octetsOf (cs.flatMap doubleQuote) ++ rest)) =
            recordsFrom .inQuotes (quote :: field) fields
              (octetsOf (cs.flatMap doubleQuote) ++ rest) := by
          rw [show octetsOf (doubleQuote '"') = [quote, quote] by decide]
          simp [recordsFrom]
        rw [step, ih, octetsOf_cons, show String.utf8EncodeChar '"' = [quote] by decide]
        simp
      · have noQuote : ∀ b ∈ String.utf8EncodeChar c, b ≠ quote := by
          intro b h same
          subst same
          exact isQuote (Char.toNat_inj.1 (eq_of_mem_encodeChar (by decide) h))
        have step : ∀ (bs : Octets), (∀ b ∈ bs, b ≠ quote) → ∀ field rest,
            recordsFrom .inQuotes field fields (bs ++ rest) =
              recordsFrom .inQuotes (bs.reverse ++ field) fields rest := by
          intro bs
          induction bs with
          | nil => exact fun _ _ _ => rfl
          | cons b bs ih =>
              intro none field rest
              rw [List.cons_append, recordsFrom, if_pos rfl, if_neg (none b List.mem_cons_self),
                ih fun d h => none d (List.mem_cons_of_mem b h)]
              simp
        have same : octetsOf (doubleQuote c) = String.utf8EncodeChar c := by
          simp [doubleQuote, isQuote, octetsOf]
        rw [same, step _ noQuote, ih, octetsOf_cons]
        simp

/-- Behind a written field the reader has its octets and stands where a mark ends the field. -/
theorem recordsFrom_writeField (fields : List Field) (s : String)
    (start : p = .recordStart ∨ p = .fieldStart) :
    ∃ q, q ≠ .inQuotes ∧ (q = .recordStart → p = .recordStart) ∧
      ∀ rest, recordsFrom p [] fields (octetsOf (writeField s) ++ rest) =
        recordsFrom q (encode s).reverse fields rest := by
  unfold writeField
  split
  case isTrue =>
    refine ⟨.behindQuote, nofun, nofun, fun rest => ?_⟩
    have opened : ∀ rest, recordsFrom p [] fields (quote :: rest) =
        recordsFrom .inQuotes [] fields rest := by
      intro rest
      rcases start with rfl | rfl
      · simp [recordsFrom, quote_ne_comma]
      · simp [recordsFrom, quote_ne_comma]
    have closed : ∀ field rest, recordsFrom .inQuotes field fields (quote :: rest) =
        recordsFrom .behindQuote field fields rest := by
      intro field rest
      rw [recordsFrom, if_pos rfl, if_pos rfl]
    rw [List.cons_append, octetsOf_cons, octetsOf_append,
      show String.utf8EncodeChar '"' = [quote] by decide, show octetsOf ['"'] = [quote] by decide]
    rw [List.append_assoc, List.append_assoc, List.singleton_append, opened, recordsFrom_quoted,
      List.singleton_append, closed, List.append_nil]
    rfl
  case isFalse bare =>
    rw [Bool.not_eq_true] at bare
    have plain := plain_octetsOf bare
    cases found : octetsOf s.toList with
    | nil =>
        refine ⟨p, ?_, id, fun rest => ?_⟩
        · rcases start with rfl | rfl <;> nofun
        · rw [show encode s = [] from found]
          rfl
    | cons b bs =>
        rw [found] at plain
        refine ⟨.bare, nofun, nofun, fun rest => ?_⟩
        rw [recordsFrom_plain plain start, show encode s = b :: bs from found]

/-! ### Whole records -/

theorem recordsFrom_comma (outside : p ≠ .inQuotes) (rest : Octets) :
    recordsFrom p field fields (comma :: rest) =
      recordsFrom .fieldStart [] (field.reverse :: fields) rest := by
  cases p with
  | inQuotes => exact absurd rfl outside
  | _ => simp [recordsFrom, quote_ne_comma.symm]

theorem recordsFrom_lineEnd (outside : p ≠ .inQuotes) (begun : p ≠ .recordStart) (rest : Octets) :
    recordsFrom p field fields (Char.toUInt8 '\n' :: rest) =
      (field.reverse :: fields).reverse :: recordsFrom .recordStart [] [] rest := by
  cases p with
  | inQuotes => exact absurd rfl outside
  | recordStart => exact absurd rfl begun
  | _ => simp [recordsFrom, lineFeed_ne_quote]

/-- A written line is one record of its fields.  An empty line would be none, so a record that
begins the line needs a second field. -/
theorem recordsFrom_writeFields {r : List String} (start : p = .recordStart ∨ p = .fieldStart)
    (long : p = .recordStart → r ≠ []) (rest : Octets) :
    recordsFrom p [] fields (octetsOf (writeRecord (s :: r)) ++ rest) =
      (fields.reverse ++ (s :: r).map encode) :: recordsFrom .recordStart [] [] rest := by
  unfold writeRecord
  rw [octetsOf_append, List.append_assoc, show octetsOf ['\n'] = [Char.toUInt8 '\n'] by decide,
    List.singleton_append]
  induction r generalizing s p fields with
  | nil =>
      obtain ⟨q, outside, begun, read⟩ := recordsFrom_writeField fields s start
      rw [writeFields, read, recordsFrom_lineEnd outside fun h => long (begun h) rfl]
      simp
  | cons t r ih =>
      obtain ⟨q, outside, -, read⟩ := recordsFrom_writeField fields s start
      rw [writeFields, octetsOf_append, octetsOf_cons,
        show String.utf8EncodeChar ',' = [comma] by decide, List.append_assoc, List.append_assoc,
        List.singleton_append, read, recordsFrom_comma outside]
      · rw [ih (Or.inr rfl) nofun]
        simp
      · nofun

/-- Lines of two fields and more are read as the records that were written. -/
theorem recordsFrom_write (lines : List (List String)) (long : ∀ line ∈ lines, 2 ≤ line.length) :
    recordsFrom .recordStart [] [] (octetsOf (lines.flatMap writeRecord)) =
      lines.map (·.map encode) := by
  induction lines with
  | nil => rfl
  | cons line lines ih =>
      have twoOrMore := long line List.mem_cons_self
      cases line with
      | nil => simp at twoOrMore
      | cons s r =>
          have more : r ≠ [] := by
            intro single
            rw [single] at twoOrMore
            simp at twoOrMore
          rw [List.flatMap_cons, octetsOf_append, recordsFrom_writeFields (Or.inl rfl) fun _ => more,
            ih fun line h => long line (List.mem_cons_of_mem _ h)]
          rfl

theorem texts?_encode (line : List String) : texts? (line.map encode) = some line := by
  unfold texts?
  induction line with
  | nil => rfl
  | cons s line ih => simp [List.mapM_cons, decode?_encode, ih]

end MarketBook.Csv
