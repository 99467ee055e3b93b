/-
Module: MarketBook.Proofs.Numerals
Purpose: Whole numbers written in decimal read back as the same numbers.
Main exports:
  Text.AllDigits, Text.IsNumeral, Text.digits?_eq_some, Text.digits?_toDigits,
  Text.IsCount, Text.unsigned?_eq_some, Text.unsigned?_toDigits, Text.signed?_toString
-/
import Mathlib.Algebra.Ring.Nat
import MarketBook.Text.Numeral

namespace MarketBook.Text

/-- Nothing but decimal digits. -/
def AllDigits (cs : List Char) : Prop :=
  ∀ c ∈ cs, c.isDigit = true

variable {cs ds : List Char} {c : Char} {n limit : Nat}

theorem AllDigits.append (front : AllDigits cs) (back : AllDigits ds) : AllDigits (cs ++ ds) := by
  intro d h
  rcases List.mem_append.1 h with h | h
  · exact front d h
  · exact back d h

theorem allDigits_zeros (n : Nat) : AllDigits (List.replicate n '0') := by
  intro c h
  rw [List.eq_of_mem_replicate h]
  decide

theorem allDigits_toDigits (n : Nat) : AllDigits (Nat.toDigits 10 n) :=
  fun _ h => Nat.isDigit_of_mem_toDigits (by decide) (by decide) h

theorem isDigit_bounds (h : c.isDigit = true) : 48 ≤ c.toNat ∧ c.toNat ≤ 57 := by
  simp only [Char.isDigit, Bool.and_eq_true, decide_eq_true_eq] at h
  exact h

/-- A digit is none of the marks that a numeral may have besides digits. -/
theorem ne_of_isDigit {mark : Char} (h : c.isDigit = true) (noDigit : mark.isDigit = false) :
    c ≠ mark := by
  intro same
  rw [same, noDigit] at h
  cases h

/-! ### Digits and their value -/

theorem digitValue?_ten (h : c.isDigit = true) : digitValue? 10 c = some (c.toNat - 48) := by
  obtain ⟨low, high⟩ := isDigit_bounds h
  have small : c.toNat - 48 < 10 := by omega
  simp [digitValue?, low, high, small]

theorem digitValue?_eq_some :
    digitValue? 10 c = some n ↔ c.isDigit = true ∧ c.toNat - 48 = n := by
  constructor
  · intro read
    have digit : c.isDigit = true := by
      simp only [Char.isDigit, Bool.and_eq_true, decide_eq_true_eq]
      change 48 ≤ c.toNat ∧ c.toNat ≤ 57
      simp only [digitValue?, Bool.and_eq_true, decide_eq_true_eq] at read
      by_contra other
      rw [if_neg other] at read
      split_ifs at read <;> omega
    rw [digitValue?_ten digit] at read
    exact ⟨digit, Option.some.inj read⟩
  · rintro ⟨digit, rfl⟩
    exact digitValue?_ten digit

theorem digitsFrom?_ten (digits : AllDigits cs) :
    ∀ value, digitsFrom? 10 value cs = some (Nat.ofDigitChars 10 cs value) := by
  induction cs with
  | nil => exact fun _ => rfl
  | cons c cs ih =>
      intro value
      have first := digitValue?_ten (digits c List.mem_cons_self)
      rw [digitsFrom?, first, Nat.ofDigitChars_cons]
      rw [Option.bind_some, ih fun d h => digits d (List.mem_cons_of_mem c h), Nat.mul_comm]
      rfl

theorem digits?_ten (some? : cs ≠ []) (digits : AllDigits cs) :
    digits? 10 cs = some (Nat.ofDigitChars 10 cs 0) := by
  unfold digits?
  rw [if_neg (by simpa using some?)]
  exact digitsFrom?_ten digits 0

theorem allDigits_of_digitsFrom? {value : Nat}
    (read : digitsFrom? 10 value cs = some n) : AllDigits cs := by
  induction cs generalizing value with
  | nil => exact fun _ => nofun
  | cons c cs ih =>
      obtain ⟨d, first, rest⟩ := Option.bind_eq_some_iff.1 read
      intro other given
      rcases List.mem_cons.1 given with rfl | given
      · exact (digitValue?_eq_some.1 first).1
      · exact ih rest other given

/-- One digit or more, and their value. -/
structure IsNumeral (cs : List Char) (n : Nat) : Prop where
  some? : cs ≠ []
  digits : AllDigits cs
  value : Nat.ofDigitChars 10 cs 0 = n

theorem digits?_eq_some : digits? 10 cs = some n ↔ IsNumeral cs n := by
  constructor
  · intro read
    have some? : cs ≠ [] := by
      rintro rfl
      cases read
    have digits : AllDigits cs := by
      unfold digits? at read
      rw [if_neg (by simpa using some?)] at read
      exact allDigits_of_digitsFrom? read
    rw [digits?_ten some? digits] at read
    exact ⟨some?, digits, Option.some.inj read⟩
  · rintro ⟨some?, digits, rfl⟩
    exact digits?_ten some? digits

/-- A numeral begins with a digit. -/
theorem IsNumeral.exists_cons (numeral : IsNumeral cs n) :
    ∃ c rest, cs = c :: rest ∧ c.isDigit = true := by
  cases cs with
  | nil => exact absurd rfl numeral.some?
  | cons c rest => exact ⟨c, rest, rfl, numeral.digits c List.mem_cons_self⟩

theorem digits?_toDigits (n : Nat) : digits? 10 (Nat.toDigits 10 n) = some n := by
  rw [digits?_ten Nat.toDigits_ne_nil (allDigits_toDigits n), Nat.ofDigitChars_ten_toDigits]

/-- Digits in front count as often as the power of ten of those behind them says. -/
theorem ofDigitChars_append (cs ds : List Char) :
    Nat.ofDigitChars 10 (cs ++ ds) 0 =
      Nat.ofDigitChars 10 cs 0 * 10 ^ ds.length + Nat.ofDigitChars 10 ds 0 := by
  rw [Nat.ofDigitChars_append, Nat.ofDigitChars_eq_ofDigitChars_zero, Nat.mul_comm]

/-- No number but zero starts with a zero. -/
theorem toDigits_of_zero (h : Nat.toDigits 10 n = '0' :: cs) : cs = [] := by
  induction n using Nat.strongRecOn generalizing cs with
  | ind n ih =>
    by_cases small : n < 10
    · rw [Nat.toDigits_of_lt_base small] at h
      exact (List.cons.inj h).2.symm
    · rw [Nat.toDigits_of_base_le (by decide) (by omega)] at h
      cases front : Nat.toDigits 10 (n / 10) with
      | nil => exact absurd front Nat.toDigits_ne_nil
      | cons d ds =>
          rw [front] at h
          obtain ⟨rfl, -⟩ := List.cons.inj h
          have single := ih (n / 10) (by omega) front
          have value : n / 10 = 0 := by
            rw [← Nat.ofDigitChars_ten_toDigits (n := n / 10), front, single]
            rfl
          omega

/-! ### Numbers with a range -/

/-- The text is a number of 64 bits: a numeral, behind a plus sign or nothing. -/
def IsCount (text : String) (n : Nat) : Prop :=
  n < limit64 ∧ ∃ digits, (text.toList = digits ∨ text.toList = '+' :: digits) ∧ IsNumeral digits n

theorem unsigned?_eq_some {text : String} :
    unsigned? 10 limit64 text.toList = some n ↔ IsCount text n := by
  unfold unsigned? IsCount
  simp only [Option.filter_eq_some_iff, decide_eq_true_eq, digits?_eq_some]
  rw [and_comm]
  refine and_congr_right fun _ => ?_
  split
  case h_1 rest spelled =>
    constructor
    · exact fun numeral => ⟨rest, .inr spelled, numeral⟩
    · rintro ⟨digits, same | same, numeral⟩
      · obtain ⟨c, _, rfl, digit⟩ := numeral.exists_cons
        rw [spelled] at same
        cases same
        cases digit
      · rw [spelled] at same
        cases same
        exact numeral
  case h_2 unsigned =>
    constructor
    · exact fun numeral => ⟨_, .inl rfl, numeral⟩
    · rintro ⟨digits, same | same, numeral⟩
      · rw [same]
        exact numeral
      · exact absurd same (unsigned digits)

theorem unsigned?_toDigits (below : n < limit) :
    unsigned? 10 limit (Nat.toDigits 10 n) = some n := by
  have read := digits?_toDigits n
  have digits := allDigits_toDigits n
  unfold unsigned?
  split
  case h_1 r same =>
    rw [same] at digits
    exact absurd rfl (ne_of_isDigit (digits '+' List.mem_cons_self) (by decide))
  case h_2 => simp [read, below]

/-- The text of an integer: its digits, behind a sign if it is negative. -/
theorem toString_int_toList (n : Int) :
    (toString n).toList =
      if 0 ≤ n then Nat.toDigits 10 n.toNat else '-' :: Nat.toDigits 10 (-n).toNat := by
  rw [Int.toString_eq_repr, Int.repr_eq_if]
  split
  · exact Nat.toList_repr
  · simp

theorem signed?_toString {n : Int} (inRange : isSigned64 n = true) :
    signed? 10 (toString n).toList = some n := by
  obtain ⟨low, high⟩ := isSigned64_iff.1 inRange
  rw [toString_int_toList]
  split
  case isTrue positive =>
    have digits := allDigits_toDigits n.toNat
    unfold signed?
    split
    case h_1 r same =>
      rw [same] at digits
      exact absurd rfl (ne_of_isDigit (digits '-' List.mem_cons_self) (by decide))
    case h_2 =>
      rw [unsigned?_toDigits (by simp only [limit63]; omega), Option.map_some]
      exact congrArg some (Int.toNat_of_nonneg positive)
  case isFalse negative =>
    have below : (-n).toNat ≤ limit63 := by
      simp only [limit63]
      omega
    simp only [signed?, digits?_toDigits, Option.filter_some, below, decide_true, if_true,
      Option.map_some, Option.some.injEq]
    change -((-n).toNat : Int) = n
    omega

end MarketBook.Text
