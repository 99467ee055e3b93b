/-
Module: MarketBook.Proofs.JsonTexts
Purpose: Texts and integers that were printed are read back.
Main exports:
  Json.readChars_escape, Json.readNumber_int
-/
import MarketBook.Json.Printer
import MarketBook.Json.Reader
import MarketBook.Proofs.DecimalTexts

namespace MarketBook.Json

open Decimal Text

variable {cs rest : List Char} {c : Char}

/-! ### Texts -/

/-- The escape of a control character has four digits, of which two are zeros. -/
theorem controlEscape_eq (n : Fin 32) :
    controlEscape (Char.ofNat n) =
        ['\\', 'u', '0', '0', Nat.digitChar (n / 16), Nat.digitChar (n % 16)] ∧
      hex4? '0' '0' (Nat.digitChar (n / 16)) (Nat.digitChar (n % 16)) = some n.val := by
  revert n
  decide

theorem readChars_control (small : c.toNat < 32) :
    readChars (controlEscape c ++ rest) = (readChars rest).map fun s => (c :: s.1, s.2) := by
  obtain ⟨text, value⟩ := controlEscape_eq ⟨c.toNat, small⟩
  have same : Char.ofNat c.toNat = c := Char.ofNat_toNat c
  dsimp only at text value
  rw [same] at text
  have below : c.toNat < 0xD800 := by omega
  rw [text]
  simp only [List.cons_append, List.nil_append]
  rw [readChars]
  simp only [value, below, decide_true, Bool.true_or, if_true, same]

/-- A character that is written as it is. -/
theorem readChars_plain (noQuote : c ≠ '"') (noEscape : c ≠ '\\') (large : ¬ c.toNat < 32) :
    readChars (c :: rest) = (readChars rest).map fun s => (c :: s.1, s.2) := by
  rw [readChars.eq_def]
  split
  case h_1 same => cases same
  case h_2 same => exact absurd (List.cons.inj same).1 noQuote
  case h_3 same => exact absurd (List.cons.inj same).1 noEscape
  case h_4 same => exact absurd (List.cons.inj same).1 noEscape
  case h_5 same =>
    obtain ⟨rfl, rfl⟩ := List.cons.inj same
    rw [if_neg large]

theorem readChars_escapeChar (c : Char) :
    readChars (escapeChar c ++ rest) = (readChars rest).map fun s => (c :: s.1, s.2) := by
  have short : ∀ e d : Char, e ≠ 'u' → shortEscape? e = some d →
      readChars ('\\' :: e :: rest) = (readChars rest).map fun s => (d :: s.1, s.2) := by
    intro e d noCode means
    rw [readChars.eq_def]
    split
    case h_1 same => cases same
    case h_2 same => exact absurd (List.cons.inj same).1 (by decide)
    case h_3 same => exact absurd (List.cons.inj (List.cons.inj same).2).1 noCode
    case h_4 same =>
      obtain ⟨rfl, rfl⟩ := List.cons.inj (List.cons.inj same).2
      simp only [means]
    case h_5 noEscape same =>
      obtain ⟨rfl, rfl⟩ := List.cons.inj same
      exact absurd rfl (noEscape _ _ rfl)
  unfold escapeChar
  by_cases isQuote : c = '"'
  · rw [if_pos isQuote, isQuote]
    exact short '"' '"' (by decide) rfl
  rw [if_neg isQuote]
  by_cases isEscape : c = '\\'
  · rw [if_pos isEscape, isEscape]
    exact short '\\' '\\' (by decide) rfl
  rw [if_neg isEscape]
  by_cases isLineFeed : c = '\n'
  · rw [if_pos isLineFeed, isLineFeed]
    exact short 'n' '\n' (by decide) rfl
  rw [if_neg isLineFeed]
  by_cases isReturn : c = '\r'
  · rw [if_pos isReturn, isReturn]
    exact short 'r' '\r' (by decide) rfl
  rw [if_neg isReturn]
  by_cases isTab : c = '\t'
  · rw [if_pos isTab, isTab]
    exact short 't' '\t' (by decide) rfl
  rw [if_neg isTab]
  by_cases isBack : c.toNat = 8
  · rw [if_pos isBack, show c = '\x08' from Char.toNat_inj.1 isBack]
    exact short 'b' '\x08' (by decide) rfl
  rw [if_neg isBack]
  by_cases isFeed : c.toNat = 12
  · rw [if_pos isFeed, show c = '\x0c' from Char.toNat_inj.1 isFeed]
    exact short 'f' '\x0c' (by decide) rfl
  rw [if_neg isFeed]
  by_cases isControl : c.toNat < 32
  · rw [if_pos isControl]
    exact readChars_control isControl
  · rw [if_neg isControl]
    exact readChars_plain isQuote isEscape isControl

/-- An escaped text is read up to its closing quote. -/
theorem readChars_escape (cs rest : List Char) :
    readChars (cs.flatMap escapeChar ++ '"' :: rest) = some (cs, rest) := by
  induction cs with
  | nil => rfl
  | cons c cs ih =>
      rw [List.flatMap_cons, List.append_assoc, readChars_escapeChar, ih]
      rfl

/-! ### Integers -/

/-- What may follow a number without becoming part of it. -/
def EndsNumber (rest : List Char) : Prop :=
  ∀ c ∈ rest.head?, c = ',' ∨ isSpace c = true

theorem EndsNumber.cons (ends : EndsNumber (c :: rest)) :
    c.isDigit = false ∧ c ≠ '.' ∧ c ≠ 'e' ∧ c ≠ 'E' := by
  have first := ends c rfl
  simp only [isSpace, Bool.or_eq_true, beq_iff_eq] at first
  rcases first with rfl | ((rfl | rfl) | rfl) | rfl <;> decide

/-- Digits of a number that fits are all gathered. -/
theorem gather_digits (digits : AllDigits cs) :
    ∀ significand used, Nat.ofDigitChars 10 cs significand < limit64 →
      gather significand used cs = ⟨Nat.ofDigitChars 10 cs significand, used + cs.length, 0⟩ := by
  induction cs with
  | nil => exact fun _ _ _ => rfl
  | cons c cs ih =>
      intro significand used fits
      have next : Nat.ofDigitChars 10 (c :: cs) significand =
          Nat.ofDigitChars 10 cs (significand * 10 + (c.toNat - 48)) := by
        rw [Nat.ofDigitChars_cons, Nat.mul_comm]
        rfl
      rw [next] at fits ⊢
      have small : significand * 10 + (c.toNat - 48) < limit64 := by
        refine lt_of_le_of_lt ?_ fits
        rw [Nat.ofDigitChars_eq_ofDigitChars_zero]
        exact (Nat.le_mul_of_pos_left _ (Nat.pow_pos (by decide))).trans (Nat.le_add_right _ _)
      rw [gather]
      simp only [small, if_true]
      rw [ih (fun d h => digits d (List.mem_cons_of_mem c h)) _ _ fits, List.length_cons]
      congr 1
      omega

/-- A whole number of 64 bits is read in full. -/
theorem readMagnitude_digits {n : Nat} {negative : Bool} (fits : n < limit64)
    (signed : negative = true → n ≠ 0 ∧ n ≤ limit63) (ends : EndsNumber rest) :
    readMagnitude negative (Nat.toDigits 10 n ++ rest) =
      some (if negative then .int (-Int.ofNat n) else ofNat n, rest) := by
  have digits := allDigits_toDigits n
  have split : splitDigits (Nat.toDigits 10 n ++ rest) = (Nat.toDigits 10 n, rest) := by
    refine splitDigits_append digits fun c h => ?_
    cases rest with
    | nil => cases h
    | cons d r =>
        cases h
        exact ends.cons.1
  have leading : ((Nat.toDigits 10 n).isEmpty ||
      ((Nat.toDigits 10 n).head? == some '0' && (Nat.toDigits 10 n).length != 1)) = false := by
    cases spelled : Nat.toDigits 10 n with
    | nil => exact absurd spelled Nat.toDigits_ne_nil
    | cons c r =>
        by_cases zero : c = '0'
        · rw [zero] at spelled
          rw [toDigits_of_zero spelled]
          simp
        · simp [zero]
  have gathered := gather_digits digits 0 0
  rw [Nat.ofDigitChars_ten_toDigits] at gathered
  unfold readMagnitude
  simp only [split, leading, gathered fits, Bool.false_eq_true, if_false]
  have finish : (if (0 : Nat) != 0 then finishFloat negative n (Int.ofNat 0) rest
      else if !negative then some (ofNat n, rest)
      else if n == 0 || limit63 < n then some (.float (Binary64.ofInt (Int.ofNat n)).neg, rest)
      else some (.int (-Int.ofNat n), rest)) =
      some (if negative then .int (-Int.ofNat n) else ofNat n, rest) := by
    cases negative with
    | false => simp
    | true =>
        obtain ⟨notZero, inRange⟩ := signed rfl
        simp [notZero, not_lt.2 inRange]
  cases rest with
  | nil => exact finish
  | cons c r =>
      obtain ⟨-, noPoint, noSmall, noLarge⟩ := ends.cons
      split
      case h_1 same => exact absurd (List.cons.inj same).1 noPoint
      case h_2 same => exact absurd (List.cons.inj same).1 noSmall
      case h_3 same => exact absurd (List.cons.inj same).1 noLarge
      case h_4 => exact finish

/-- An integer of 64 bits with or without sign. -/
def IsInteger64 (n : Int) : Prop :=
  -Int.ofNat limit63 ≤ n ∧ n < Int.ofNat limit64

theorem isInteger64_of_signed {n : Int} (h : isSigned64 n = true) : IsInteger64 n := by
  rw [isSigned64_iff] at h
  simp only [IsInteger64, limit63, limit64, Int.ofNat_eq_natCast]
  omega

theorem isInteger64_ofNat {n : Nat} (fits : n < limit64) : IsInteger64 (Int.ofNat n) := by
  simp only [IsInteger64, limit63, limit64, Int.ofNat_eq_natCast] at fits ⊢
  omega

theorem readNumber_int {n : Int} (inRange : IsInteger64 n) (ends : EndsNumber rest) :
    readNumber ((toString n).toList ++ rest) = some (.int n, rest) := by
  obtain ⟨low, high⟩ := inRange
  simp only [limit63, limit64, Int.ofNat_eq_natCast] at low high
  rw [toString_int_toList]
  split
  case isTrue positive =>
    have digits := allDigits_toDigits n.toNat
    have read := readMagnitude_digits (n := n.toNat)
      (by simp only [limit64]; omega) (absurd · Bool.false_ne_true) ends
    have value : ofNat n.toNat = .int n := congrArg Json.int (Int.toNat_of_nonneg positive)
    rw [value] at read
    unfold readNumber
    split
    case h_1 same =>
      cases spelled : Nat.toDigits 10 n.toNat with
      | nil => exact absurd spelled Nat.toDigits_ne_nil
      | cons c r =>
          rw [spelled] at same digits
          obtain ⟨rfl, -⟩ := List.cons.inj same
          exact absurd rfl (ne_of_isDigit (digits '-' List.mem_cons_self) (by decide))
    case h_2 => exact read
  case isFalse negative =>
    have read := readMagnitude_digits (n := (-n).toNat)
      (by simp only [limit64]; omega)
      (fun _ : true = true => by simp only [limit63]; omega) ends
    rw [if_pos rfl, show -Int.ofNat (-n).toNat = n by simp only [Int.ofNat_eq_natCast]; omega] at read
    exact read

end MarketBook.Json
