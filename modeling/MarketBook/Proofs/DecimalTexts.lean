/-
Module: MarketBook.Proofs.DecimalTexts
Purpose: The text of every finite word, in any of the written forms, reads back as the same word.
Main exports:
  ofDecimal_near, Reads, Layout.read?_render
-/
import MarketBook.Decimal.Layout
import MarketBook.Decimal.Reader
import MarketBook.Proofs.Numerals
import MarketBook.Proofs.ShortestDigits

namespace MarketBook.Decimal

open Binary64 Text

/-!
A layout only moves the point and fills up with zeros, so the text has other digits and another
power of ten than the shortest digits, but stands for the same number.  Of the number it is known
that it rounds to the word, whatever digits it is read from.
-/

variable {x : Binary64} {n : Nat} {e : ℤ}

/-! ### Digits and a power of ten -/

theorem digits_size (positive : 0 < n) :
    (10 : ℚ) ^ (e + Int.ofNat (Nat.toDigits 10 n).length - 1) ≤ n * 10 ^ e ∧
      (n * 10 ^ e : ℚ) < 10 ^ (e + Int.ofNat (Nat.toDigits 10 n).length) := by
  obtain ⟨low, high⟩ := ten_pow_length positive
  have length := Nat.length_toDigits_pos (b := 10) (n := n)
  set len := (Nat.toDigits 10 n).length
  have ten : (10 : ℚ) ≠ 0 := by norm_num
  have low' : (10 : ℚ) ^ (len - 1) ≤ n := by exact_mod_cast low
  have high' : (n : ℚ) < 10 ^ len := by exact_mod_cast high
  constructor
  · rw [show e + Int.ofNat len - 1 = ((len - 1 : Nat) : ℤ) + e by
      simp only [Int.ofNat_eq_natCast]
      omega, zpow_add₀ ten, zpow_natCast]
    exact mul_le_mul_of_nonneg_right low' (ten_zpow_pos e).le
  · rw [show e + Int.ofNat len = (len : ℤ) + e by
      simp only [Int.ofNat_eq_natCast]
      omega, zpow_add₀ ten, zpow_natCast]
    exact mul_lt_mul_of_pos_right high' (ten_zpow_pos e)

/-- The quotient that digits and a power of ten are rounded as. -/
theorem ofDecimal_ratio (negative : Bool) (positive : 0 < n)
    (inside : -400 ≤ e + Int.ofNat (Nat.toDigits 10 n).length ∧
      e + Int.ofNat (Nat.toDigits 10 n).length ≤ 400) :
    ∃ num den : Nat, 0 < den ∧ (num / den : ℚ) = n * 10 ^ e ∧
      ofDecimal negative n e = ofRatio negative num den := by
  have some? : (n == 0) = false := by simpa using positive.ne'
  unfold ofDecimal
  simp only [some?, Bool.false_or]
  rw [if_neg (by simpa using inside.1), if_neg (by omega)]
  split
  case isTrue upward =>
    refine ⟨_, 1, Nat.one_pos, ?_, rfl⟩
    rw [Nat.cast_mul, tenTo_cast, ← zpow_natCast, Int.toNat_of_nonneg upward]
    simp
  case isFalse downward =>
    refine ⟨n, _, tenTo_pos _, ?_, rfl⟩
    rw [tenTo_cast, ← zpow_natCast, Int.toNat_of_nonneg (by omega), zpow_neg, div_inv_eq_mul]

/-- No finite word comes near the sizes that are told by their power of ten alone. -/
theorem largest_size : (2 : ℚ) ^ (1024 : ℤ) ≤ 10 ^ (400 : ℤ) := by
  have sizes : 2 ^ 1024 ≤ 10 ^ 400 := by decide +kernel
  exact_mod_cast sizes

theorem smallest_size : (10 : ℚ) ^ (-400 : ℤ) ≤ 2 ^ (-1075 : ℤ) := by
  have sizes : 2 ^ 1075 ≤ 10 ^ 400 := by decide +kernel
  rw [zpow_neg, zpow_neg]
  apply inv_anti₀ (two_zpow_pos _)
  exact_mod_cast sizes

/-- Digits and a power of ten that stand for a number near a finite word are read as that word. -/
theorem ofDecimal_near (finite : x.isFinite = true) (notZero : x.isZero = false)
    (near : x.Near (n * 10 ^ e)) : ofDecimal x.negative n e = x := by
  have one : (1 : ℚ) < 10 := by norm_num
  have positive : 0 < n := by
    rw [Nat.pos_iff_ne_zero]
    rintro rfl
    have := near.pos notZero
    simp at this
  obtain ⟨low, high⟩ := digits_size (e := e) positive
  have least : (2 : ℚ) ^ (-1075 : ℤ) ≤ n * 10 ^ e := by
    have some? : (1 : ℚ) ≤ x.significand := by exact_mod_cast significand_pos notZero
    have gap := x.gapBelow_le
    calc (2 : ℚ) ^ (-1075 : ℤ) = 1 / 2 * 2 ^ (-1074 : ℤ) := by
          rw [show (-1075 : ℤ) = -1 + -1074 by rfl, zpow_add₀ (by norm_num)]
          norm_num
      _ ≤ 1 / 2 * 2 ^ x.power :=
          mul_le_mul_of_nonneg_left (zpow_le_zpow_right₀ (by norm_num) x.power_least) (by norm_num)
      _ ≤ (x.significand - x.gapBelow) * 2 ^ x.power :=
          mul_le_mul_of_nonneg_right (by linarith) (two_zpow_pos _).le
      _ ≤ n * 10 ^ e := near.low
  have greatest : (n * 10 ^ e : ℚ) < 2 ^ (1024 : ℤ) := by
    have := power_greatest finite
    exact near.lt.trans_le (zpow_le_zpow_right₀ (by norm_num) (by omega))
  have notSmall : -400 ≤ e + Int.ofNat (Nat.toDigits 10 n).length := by
    have : (10 : ℚ) ^ (-400 : ℤ) < 10 ^ (e + Int.ofNat (Nat.toDigits 10 n).length) :=
      smallest_size.trans_lt (least.trans_lt high)
    exact ((zpow_lt_zpow_iff_right₀ one).1 this).le
  have notLarge : e + Int.ofNat (Nat.toDigits 10 n).length ≤ 400 := by
    have : (10 : ℚ) ^ (e + Int.ofNat (Nat.toDigits 10 n).length - 1) < 10 ^ (400 : ℤ) :=
      low.trans_lt (greatest.trans_le largest_size)
    have := (zpow_lt_zpow_iff_right₀ one).1 this
    omega
  obtain ⟨num, den, denPos, ratio, same⟩ := ofDecimal_ratio x.negative positive
    ⟨notSmall, notLarge⟩
  rw [same]
  rw [← ratio] at near
  exact ofRatio_near finite notZero denPos near

theorem ofDecimal_zero (negative : Bool) (e : ℤ) : ofDecimal negative 0 e = ofMagnitude negative 0 :=
  rfl

/-! ### Digits, a point and an exponent -/

variable {whole fraction tail cs : List Char}

theorem splitDigits_append (digits : AllDigits whole) (stops : ∀ c ∈ tail.head?, c.isDigit = false) :
    splitDigits (whole ++ tail) = (whole, tail) := by
  have taken : tail.takeWhile Char.isDigit = [] ∧ tail.dropWhile Char.isDigit = tail := by
    cases tail with
    | nil => exact ⟨rfl, rfl⟩
    | cons c r =>
        have first := stops c rfl
        constructor
        · rw [List.takeWhile_cons_of_neg (by simp [first])]
        · rw [List.dropWhile_cons_of_neg (by simp [first])]
  unfold splitDigits
  rw [List.takeWhile_append_of_pos digits, List.dropWhile_append_of_pos digits, taken.1, taken.2,
    List.append_nil]

/-- What may stand behind the digits of a number, and the power of ten that it means. -/
structure Tail (tail : List Char) (e : ℤ) : Prop where
  stops : ∀ c ∈ tail.head?, c.isDigit = false
  noPoint : ∀ r, tail ≠ '.' :: r
  means : exponent? tail = some e

theorem Tail.nil : Tail [] 0 :=
  ⟨nofun, nofun, rfl⟩

/-- The text stands for a number: it starts with a digit, and what it is read from has that
value. -/
structure Reads (cs : List Char) (v : ℚ) : Prop where
  digitFirst : ∃ c r, cs = c :: r ∧ c.isDigit = true
  means : ∃ (digits : Nat) (e : ℤ), (digits * 10 ^ e : ℚ) = v ∧
    ∀ negative, magnitude? negative cs = some (ofDecimal negative digits e)

theorem digitFirst (digits : AllDigits whole) (some? : whole ≠ []) (rest : List Char) :
    ∃ c r, whole ++ rest = c :: r ∧ c.isDigit = true := by
  cases whole with
  | nil => exact absurd rfl some?
  | cons c r => exact ⟨c, r ++ rest, rfl, digits c List.mem_cons_self⟩

theorem reads_whole (digits : AllDigits whole) (some? : whole ≠ []) (behind : Tail tail e) :
    Reads (whole ++ tail) (Nat.ofDigitChars 10 whole 0 * 10 ^ e) := by
  refine ⟨digitFirst digits some? tail, _, e, rfl, fun negative => ?_⟩
  have split := splitDigits_append digits behind.stops
  unfold magnitude?
  simp only [split]
  split
  case h_1 => exact absurd rfl (behind.noPoint _)
  case h_2 =>
    simp only [List.append_nil, digits?_ten some? digits, behind.means, List.length_nil]
    simp

theorem reads_point (digits : AllDigits whole) (some? : whole ≠ []) (decimals : AllDigits fraction)
    (behind : Tail tail e) :
    Reads (whole ++ '.' :: (fraction ++ tail))
      (Nat.ofDigitChars 10 (whole ++ fraction) 0 * 10 ^ (e - fraction.length)) := by
  refine ⟨digitFirst digits some? _, _, _, rfl, fun negative => ?_⟩
  have point : splitDigits (whole ++ '.' :: (fraction ++ tail)) =
      (whole, '.' :: (fraction ++ tail)) := by
    refine splitDigits_append digits fun c h => ?_
    cases h
    rfl
  have all := digits?_ten (List.append_ne_nil_of_left_ne_nil some? fraction) (digits.append decimals)
  unfold magnitude?
  simp only [point, splitDigits_append decimals behind.stops, all, behind.means]
  rfl

/-! ### The written forms -/

/-- The power of ten of the first digit. -/
def Digits.first (d : Digits) : ℤ :=
  d.exponent + Int.ofNat (Nat.toDigits 10 d.digits).length - 1

theorem value_digits (d : Digits) :
    (Nat.ofDigitChars 10 (Nat.toDigits 10 d.digits) 0 * 10 ^ d.exponent : ℚ) = d.value := by
  rw [Nat.ofDigitChars_ten_toDigits]
  rfl

/-- A zero, the point, and zeros in front of the digits. -/
theorem reads_zeros (digits : AllDigits whole) (small : e + whole.length ≤ 0) :
    Reads ('0' :: '.' :: (List.replicate (-(e + whole.length)).toNat '0' ++ whole))
      (Nat.ofDigitChars 10 whole 0 * 10 ^ e) := by
  set zeros := List.replicate (-(e + (whole.length : ℤ))).toNat '0' with zerosEq
  have zero : AllDigits ['0'] := allDigits_zeros 1
  have decimals : AllDigits (zeros ++ whole) := (allDigits_zeros _).append digits
  have reads := reads_point zero nofun decimals .nil
  have none : Nat.ofDigitChars 10 (['0'] ++ zeros) 0 = 0 := by
    rw [List.singleton_append, ← List.replicate_succ, Nat.ofDigitChars_replicate_zero, Nat.mul_zero]
  have exponent : (0 : ℤ) - ((zeros ++ whole).length : ℤ) = e := by
    rw [List.length_append, zerosEq, List.length_replicate]
    omega
  rw [exponent, ← List.append_assoc, ofDigitChars_append, none, Nat.zero_mul, Nat.zero_add,
    List.append_nil] at reads
  exact reads

/-- All digits stand before the point, with zeros behind them. -/
theorem reads_filled (wholeFraction : Bool) (digits : AllDigits whole) (some? : whole ≠ [])
    (more : Nat) :
    Reads (whole ++ List.replicate more '0' ++ (if wholeFraction then ['.', '0'] else []))
      (Nat.ofDigitChars 10 whole 0 * 10 ^ more) := by
  have filled : AllDigits (whole ++ List.replicate more '0') := digits.append (allDigits_zeros _)
  have filledSome : whole ++ List.replicate more '0' ≠ [] :=
    List.append_ne_nil_of_left_ne_nil some? _
  have value : Nat.ofDigitChars 10 (whole ++ List.replicate more '0') 0 =
      Nat.ofDigitChars 10 whole 0 * 10 ^ more := by
    rw [ofDigitChars_append, Nat.ofDigitChars_replicate_zero, Nat.mul_zero, Nat.add_zero,
      List.length_replicate]
  have value' : (Nat.ofDigitChars 10 (whole ++ List.replicate more '0') 0 : ℚ) =
      Nat.ofDigitChars 10 whole 0 * 10 ^ more := by
    exact_mod_cast value
  rw [← value']
  cases wholeFraction with
  | false =>
      have reads := reads_whole filled filledSome .nil
      rw [zpow_zero, mul_one] at reads
      exact reads
  | true =>
      have zero : AllDigits ['0'] := allDigits_zeros 1
      have reads := reads_point filled filledSome zero .nil
      rw [ofDigitChars_append (whole ++ _)] at reads
      have tenth : ((Nat.ofDigitChars 10 (whole ++ List.replicate more '0') 0 *
          10 ^ ['0'].length + Nat.ofDigitChars 10 ['0'] 0 : Nat) : ℚ) *
          10 ^ ((0 : ℤ) - (['0'].length : ℤ)) =
            Nat.ofDigitChars 10 (whole ++ List.replicate more '0') 0 := by
        simp [Nat.ofDigitChars_cons]
      rw [tenth] at reads
      exact reads

/-- The point stands among the digits. -/
theorem reads_split (digits : AllDigits whole) {n : Nat} (positive : 0 < n)
    (inside : n < whole.length) :
    Reads (whole.take n ++ '.' :: whole.drop n)
      (Nat.ofDigitChars 10 whole 0 * 10 ^ ((n : ℤ) - whole.length)) := by
  have front : AllDigits (whole.take n) := fun c h => digits c (List.mem_of_mem_take h)
  have back : AllDigits (whole.drop n) := fun c h => digits c (List.mem_of_mem_drop h)
  have frontSome : whole.take n ≠ [] := by
    apply List.ne_nil_of_length_pos
    rw [List.length_take_of_le inside.le]
    exact positive
  have reads := reads_point front frontSome back .nil
  have exponent : (0 : ℤ) - ((whole.drop n).length : ℤ) = n - whole.length := by
    rw [List.length_drop]
    omega
  rw [exponent, List.take_append_drop, List.append_nil] at reads
  exact reads

theorem setPoint_reads (wholeFraction : Bool) (d : Digits) :
    Reads (setPoint wholeFraction (Nat.toDigits 10 d.digits) (d.first + 1)) d.value := by
  have digits := allDigits_toDigits d.digits
  have some? : Nat.toDigits 10 d.digits ≠ [] := Nat.toDigits_ne_nil
  rw [← value_digits d]
  simp only [Digits.first, Int.ofNat_eq_natCast, sub_add_cancel]
  generalize Nat.toDigits 10 d.digits = ds at *
  unfold setPoint
  split
  case isTrue small => exact reads_zeros digits small
  case isFalse large =>
    obtain ⟨n, whole⟩ : ∃ n : Nat, d.exponent + (ds.length : ℤ) = n :=
      Int.eq_ofNat_of_zero_le (not_le.1 large).le
    have exponent : d.exponent = n - ds.length := by omega
    rw [whole, exponent]
    simp only [Int.toNat_natCast, List.isEmpty_iff]
    split
    case isTrue behind =>
      have short : ds.length ≤ n := List.drop_eq_nil_iff.1 behind
      rw [List.take_of_length_le short, ← Nat.cast_sub short, zpow_natCast]
      exact reads_filled wholeFraction digits some? (n - ds.length)
    case isFalse inside =>
      have long : n < ds.length := by
        rw [← not_le]
        exact fun short => inside (List.drop_eq_nil_of_le short)
      rw [Nat.sub_eq_zero_of_le long.le, List.replicate_zero, List.append_nil]
      exact reads_split digits (by omega) long

theorem exponent?_e {r ds : List Char} {negative : Bool} {n : Nat}
    (signed : splitSign r = (negative, ds)) (read : digits? 10 ds = some n) :
    exponent? ('e' :: r) = some (if negative then -Int.ofNat n else Int.ofNat n) := by
  simp [exponent?, signed, read]

/-- The exponent behind its letter. -/
theorem exponent_tail {plus : String} (sign : plus = "" ∨ plus = "+") (e : ℤ) :
    Tail ('e' :: (if e < 0 then ['-'] else plus.toList) ++ Nat.toDigits 10 e.natAbs) e := by
  refine ⟨?_, nofun, ?_⟩
  · intro c h
    cases h
    rfl
  · have digits := allDigits_toDigits e.natAbs
    have read := digits?_toDigits e.natAbs
    have bare : splitSign (Nat.toDigits 10 e.natAbs) = (false, Nat.toDigits 10 e.natAbs) := by
      unfold splitSign
      split
      case h_1 r same =>
        rw [same] at digits
        exact absurd rfl (ne_of_isDigit (digits '-' List.mem_cons_self) (by decide))
      case h_2 r same =>
        rw [same] at digits
        exact absurd rfl (ne_of_isDigit (digits '+' List.mem_cons_self) (by decide))
      case h_3 => rfl
    split
    case isTrue negative =>
      have signed : splitSign ('-' :: Nat.toDigits 10 e.natAbs) =
          (true, Nat.toDigits 10 e.natAbs) := rfl
      rw [List.cons_append, List.singleton_append, exponent?_e signed read]
      simp only [if_true, Option.some.injEq, Int.ofNat_eq_natCast]
      omega
    case isFalse positive =>
      have signed : splitSign (plus.toList ++ Nat.toDigits 10 e.natAbs) =
          (false, Nat.toDigits 10 e.natAbs) := by
        rcases sign with rfl | rfl
        · exact bare
        · rfl
      rw [List.cons_append, exponent?_e signed read]
      simp only [Bool.false_eq_true, if_false, Option.some.injEq, Int.ofNat_eq_natCast]
      omega

theorem setExponent_reads {plus : String} (sign : plus = "" ∨ plus = "+") (d : Digits) :
    Reads (setExponent plus (Nat.toDigits 10 d.digits) d.first) d.value := by
  have digits := allDigits_toDigits d.digits
  have some? : Nat.toDigits 10 d.digits ≠ [] := Nat.toDigits_ne_nil
  have value := value_digits d
  unfold Digits.first
  generalize Nat.toDigits 10 d.digits = ds at *
  have behind := exponent_tail sign (d.exponent + Int.ofNat ds.length - 1)
  unfold setExponent
  match ds with
  | [] => exact absurd rfl some?
  | [c] =>
      have reads := reads_whole digits some? behind
      rw [show d.exponent + Int.ofNat [c].length - 1 = d.exponent by simp] at reads ⊢
      rw [value] at reads
      exact reads
  | c :: c' :: r =>
      have first : AllDigits [c] := fun x h => digits x (by simp_all)
      have others : AllDigits (c' :: r) := fun x h => digits x (List.mem_cons_of_mem c h)
      have reads := reads_point first nofun others behind
      have exponent : d.exponent + Int.ofNat (c :: c' :: r).length - 1 - ((c' :: r).length : ℤ) =
          d.exponent := by
        simp only [List.length_cons, Int.ofNat_eq_natCast]
        omega
      rw [exponent, show [c] ++ c' :: r = c :: c' :: r from rfl, value] at reads
      change Reads ((c :: '.' :: c' :: r) ++ _ ++ _) _
      rw [List.append_assoc]
      exact reads

/-! ### Whole texts -/

/-- A text that starts with a digit is no named value. -/
theorem named?_digit {c : Char} {r : List Char} (digit : c.isDigit = true) (negative : Bool) :
    named? negative (c :: r) = none := by
  obtain ⟨low, high⟩ := isDigit_bounds digit
  have lower : c.toLower = c := by
    unfold Char.toLower
    rw [dif_neg]
    intro upper
    have : 65 ≤ c.toNat := upper.1
    omega
  have other : ∀ name : String, ∀ d cs, name.toList = d :: cs → d.isDigit = false →
      (String.ofList ((c :: r).map Char.toLower) == name) = false := by
    intro name d cs spelled noDigit
    rw [beq_eq_false_iff_ne]
    intro same
    rw [← same, String.toList_ofList, List.map_cons, lower] at spelled
    exact ne_of_isDigit digit noDigit (List.cons.inj spelled).1
  unfold named?
  simp only [other "inf" 'i' ['n', 'f'] rfl (by decide),
    other "infinity" 'i' ['n', 'f', 'i', 'n', 'i', 't', 'y'] rfl (by decide),
    other "nan" 'n' ['a', 'n'] rfl (by decide)]
  rfl

/-- The text of a finite word reads back as the word, in every layout whose exponents have at most
a plus sign. -/
theorem Layout.read?_render {l : Layout} (sign : l.exponentPlus = "" ∨ l.exponentPlus = "+")
    (finite : x.isFinite = true) : read? (l.render x) = some x := by
  have reads : ∀ body, Reads body (shortest l.tie x).value →
      read? (String.ofList (if x.negative then '-' :: body else body)) = some x := by
    intro body reads
    obtain ⟨⟨c, r, rfl, digit⟩, digits, e, value, parsed⟩ := reads
    have word : ofDecimal x.negative digits e = x := by
      cases zero : x.isZero with
      | false =>
          apply ofDecimal_near finite zero
          rw [value]
          exact shortest_near l.tie zero
      | true =>
          have none : (shortest l.tie x).value = 0 := by
            unfold shortest
            rw [zero]
            simp [Digits.value]
          rw [none, mul_eq_zero] at value
          rcases value with value | value
          · rw [show digits = 0 by exact_mod_cast value, ofDecimal_zero]
            have magnitude : x.magnitude = 0 := by simpa [isZero] using zero
            conv_rhs => rw [← ofMagnitude_magnitude x, magnitude]
          · exact absurd value (ten_zpow_pos e).ne'
    have split : splitSign (if x.negative then '-' :: c :: r else c :: r) = (x.negative, c :: r) := by
      cases x.negative with
      | true => rfl
      | false =>
          have noMinus := ne_of_isDigit digit (show Char.isDigit '-' = false by decide)
          have noPlus := ne_of_isDigit digit (show Char.isDigit '+' = false by decide)
          simp only [Bool.false_eq_true, if_false]
          unfold splitSign
          split
          case h_1 same => exact absurd (List.cons.inj same).1 noMinus
          case h_2 same => exact absurd (List.cons.inj same).1 noPlus
          case h_3 => rfl
    unfold read?
    rw [String.toList_ofList, split]
    simp only [named?_digit digit, parsed, word, Option.none_or]
  have body : ∀ (d : Digits) (isPlain : Bool), Reads
      (if isPlain then setPoint l.wholeFraction (Nat.toDigits 10 d.digits) (d.first + 1)
        else setExponent l.exponentPlus (Nat.toDigits 10 d.digits) d.first) d.value := by
    intro d isPlain
    cases isPlain with
    | true => exact setPoint_reads l.wholeFraction _
    | false => exact setExponent_reads sign _
  exact reads _ (body _ _)

end MarketBook.Decimal
