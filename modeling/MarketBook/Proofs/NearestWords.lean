/-
Module: MarketBook.Proofs.NearestWords
Purpose: The numbers that round to a finite word of the binary format, and that they do.
Main exports:
  Binary64.Near, Binary64.floorLog2_eq, Binary64.roundHalfEven_eq, Binary64.ofRatio_near
-/
import Mathlib.Algebra.Order.Field.Power
import Mathlib.Data.Nat.Log
import Mathlib.Data.Rat.Cast.Order
import Mathlib.Tactic.FieldSimp
import Mathlib.Tactic.Linarith
import Mathlib.Tactic.NormNum
import Mathlib.Tactic.Positivity
import Mathlib.Tactic.Ring
import MarketBook.Decimal.Binary64

namespace MarketBook.Decimal

/-!
A number rounds to a word if it lies no farther from it than half way to the next word on either
side.  At half way it does so if the significand of the word is even.  Below a power of two the
words stand twice as close, which is the one case in which a number has another binary exponent than
the word that it rounds to.
-/

theorem twoTo_cast (n : Nat) : ((twoTo n : Nat) : ℚ) = 2 ^ n := by
  change ((2 ^ n : Nat) : ℚ) = 2 ^ n
  exact Nat.cast_pow 2 n

theorem twoTo_pos (n : Nat) : 0 < twoTo n :=
  Nat.pow_pos (by decide)

theorem two_zpow_pos (e : ℤ) : (0 : ℚ) < 2 ^ e :=
  zpow_pos (by norm_num) e

namespace Binary64

variable {num den m : Nat} {q e : ℤ}

/-! ### Rounding a quotient -/

/-- Half way up and down, a tie included if it is to go here, is what rounds to a number. -/
theorem roundHalfEven_eq (positive : 0 < den) (low : 2 * m * den ≤ 2 * num + den)
    (high : 2 * num ≤ 2 * m * den + den)
    (odd : m % 2 = 1 → 2 * m * den < 2 * num + den ∧ 2 * num < 2 * m * den + den) :
    roundHalfEven num den = m := by
  have split := Nat.div_add_mod num den
  have small := Nat.mod_lt num positive
  generalize num / den = whole at split
  generalize num % den = rest at split small
  subst split
  have above : whole ≤ m := by
    by_contra less
    have := Nat.mul_le_mul_left den (show m + 1 ≤ whole by omega)
    rw [Nat.mul_add] at this
    nlinarith
  have below : m ≤ whole + 1 := by
    by_contra more
    have := Nat.mul_le_mul_left den (show whole + 2 ≤ m by omega)
    rw [Nat.mul_add] at this
    nlinarith
  have quotient : (den * whole + rest) / den = whole := by
    rw [Nat.mul_add_div positive, Nat.div_eq_of_lt small, Nat.add_zero]
  have remainder : (den * whole + rest) % den = rest := by
    rw [Nat.mul_add_mod, Nat.mod_eq_of_lt small]
  unfold roundHalfEven
  simp only [quotient, remainder, Bool.or_eq_true, Bool.and_eq_true, decide_eq_true_eq, beq_iff_eq]
  rcases Nat.eq_or_lt_of_le above with rfl | less
  · have near : 2 * rest ≤ den := by nlinarith
    have tie : whole % 2 = 1 → 2 * rest < den := fun h => by
      have := (odd h).2
      nlinarith
    rw [if_pos (by omega)]
  · have same : m = whole + 1 := by omega
    subst same
    have near : den ≤ 2 * rest := by nlinarith
    have tie : (whole + 1) % 2 = 1 → den < 2 * rest := fun h => by
      have := (odd h).1
      nlinarith
    rw [if_neg (by omega)]

/-- The quotient in units of a power of two, rounded to a whole number. -/
def roundAt (num den : Nat) (q : ℤ) : Nat :=
  if 0 ≤ q then roundHalfEven num (den * twoTo q.toNat)
  else roundHalfEven (num * twoTo (-q).toNat) den

/-- What lies between half a unit below and half a unit above a number, in units of a power of
two. -/
structure Within (v below above : ℚ) (closed : Bool) : Prop where
  low : below ≤ v
  high : v ≤ above
  inside : closed = false → below < v ∧ v < above

theorem roundHalfEven_within (positive : 0 < den)
    (within : Within (num / den : ℚ) (m - 1 / 2) (m + 1 / 2) (m % 2 == 0)) :
    roundHalfEven num den = m := by
  have positive' : (0 : ℚ) < den := by exact_mod_cast positive
  obtain ⟨low, high, inside⟩ := within
  rw [le_div_iff₀ positive'] at low
  rw [div_le_iff₀ positive'] at high
  rw [lt_div_iff₀ positive', div_lt_iff₀ positive'] at inside
  have low' : (2 * m * den : ℚ) ≤ 2 * num + den := by linarith
  have high' : (2 * num : ℚ) ≤ 2 * m * den + den := by linarith
  apply roundHalfEven_eq positive (by exact_mod_cast low') (by exact_mod_cast high')
  intro odd
  obtain ⟨above, below⟩ := inside (by simp [odd])
  have above' : (2 * m * den : ℚ) < 2 * num + den := by linarith
  have below' : (2 * num : ℚ) < 2 * m * den + den := by linarith
  exact ⟨by exact_mod_cast above', by exact_mod_cast below'⟩

theorem Within.scale {v below above c : ℚ} {closed : Bool} (positive : 0 < c)
    (within : Within v (below * c) (above * c) closed) : Within (v / c) below above closed where
  low := (le_div_iff₀ positive).2 within.low
  high := (div_le_iff₀ positive).2 within.high
  inside := fun h =>
    ⟨(lt_div_iff₀ positive).2 (within.inside h).1, (div_lt_iff₀ positive).2 (within.inside h).2⟩

theorem roundAt_within (positive : 0 < den)
    (within : Within (num / den : ℚ) ((m - 1 / 2) * 2 ^ q) ((m + 1 / 2) * 2 ^ q) (m % 2 == 0)) :
    roundAt num den q = m := by
  have scaled := within.scale (two_zpow_pos q)
  have positive' : (den : ℚ) ≠ 0 := by exact_mod_cast positive.ne'
  unfold roundAt
  split
  case isTrue upward =>
    apply roundHalfEven_within (Nat.mul_pos positive (twoTo_pos _))
    have same : (num : ℚ) / ((den * twoTo q.toNat : Nat) : ℚ) = num / den / 2 ^ q := by
      rw [Nat.cast_mul, twoTo_cast, ← zpow_natCast, Int.toNat_of_nonneg upward, div_div]
    rw [same]
    exact scaled
  case isFalse downward =>
    apply roundHalfEven_within positive
    have same : ((num * twoTo (-q).toNat : Nat) : ℚ) / den = num / den / 2 ^ q := by
      rw [Nat.cast_mul, twoTo_cast, ← zpow_natCast, Int.toNat_of_nonneg (by omega), zpow_neg]
      field_simp
    rw [same]
    exact scaled

/-! ### The binary exponent of a quotient -/

theorem log2_bounds (h : 0 < num) :
    (2 : ℚ) ^ (num.log2 : ℤ) ≤ num ∧ (num : ℚ) < 2 ^ ((num.log2 : ℤ) + 1) := by
  have low : 2 ^ num.log2 ≤ num := Nat.log2_self_le h.ne'
  have high : num < 2 ^ (num.log2 + 1) := Nat.lt_log2_self
  constructor
  · rw [zpow_natCast]
    exact_mod_cast low
  · rw [show (num.log2 : ℤ) + 1 = ((num.log2 + 1 : Nat) : ℤ) by omega, zpow_natCast]
    exact_mod_cast high

theorem floorLog2_bounds (numPos : 0 < num) (denPos : 0 < den) :
    (2 : ℚ) ^ floorLog2 num den ≤ num / den ∧ (num / den : ℚ) < 2 ^ (floorLog2 num den + 1) := by
  obtain ⟨numLow, numHigh⟩ := log2_bounds numPos
  obtain ⟨denLow, denHigh⟩ := log2_bounds denPos
  have denPos' : (0 : ℚ) < den := by exact_mod_cast denPos
  have two : (2 : ℚ) ≠ 0 := by norm_num
  have whole : ∀ e : ℤ, (if 0 ≤ e then den * twoTo e.toNat ≤ num else den ≤ num * twoTo (-e).toNat) ↔
      (2 : ℚ) ^ e ≤ num / den := by
    intro e
    rw [le_div_iff₀ denPos']
    split
    case isTrue upward =>
      rw [← Nat.cast_le (α := ℚ), Nat.cast_mul, twoTo_cast, ← zpow_natCast,
        Int.toNat_of_nonneg upward, mul_comm]
    case isFalse downward =>
      rw [← Nat.cast_le (α := ℚ), Nat.cast_mul, twoTo_cast, ← zpow_natCast,
        Int.toNat_of_nonneg (by omega), zpow_neg, ← div_eq_mul_inv, le_div_iff₀ (two_zpow_pos e),
        mul_comm]
  set e : ℤ := Int.ofNat num.log2 - Int.ofNat den.log2 with he
  have above : (2 : ℚ) ^ (e - 1) ≤ num / den := by
    rw [le_div_iff₀ denPos']
    calc (2 : ℚ) ^ (e - 1) * den ≤ 2 ^ (e - 1) * 2 ^ ((den.log2 : ℤ) + 1) :=
          mul_le_mul_of_nonneg_left denHigh.le (two_zpow_pos _).le
      _ = 2 ^ (num.log2 : ℤ) := by
          rw [← zpow_add₀ two]
          congr 1
          simp only [he, Int.ofNat_eq_natCast]
          ring
      _ ≤ num := numLow
  have below : (num / den : ℚ) < 2 ^ (e + 1) := by
    rw [div_lt_iff₀ denPos']
    calc (num : ℚ) < 2 ^ ((num.log2 : ℤ) + 1) := numHigh
      _ = 2 ^ (e + 1) * 2 ^ (den.log2 : ℤ) := by
          rw [← zpow_add₀ two]
          congr 1
          simp only [he, Int.ofNat_eq_natCast]
          ring
      _ ≤ 2 ^ (e + 1) * den := mul_le_mul_of_nonneg_left denLow (two_zpow_pos _).le
  unfold floorLog2
  simp only [← he]
  by_cases reached : (2 : ℚ) ^ e ≤ num / den
  · rw [if_pos (by simpa using (whole e).2 reached)]
    exact ⟨reached, below⟩
  · rw [if_neg (by simpa using fun h => reached ((whole e).1 h))]
    refine ⟨above, ?_⟩
    rw [sub_add_cancel]
    exact not_le.1 reached

theorem floorLog2_eq (numPos : 0 < num) (denPos : 0 < den) (low : (2 : ℚ) ^ e ≤ num / den)
    (high : (num / den : ℚ) < 2 ^ (e + 1)) : floorLog2 num den = e := by
  obtain ⟨low', high'⟩ := floorLog2_bounds numPos denPos
  have one : (1 : ℚ) < 2 := by norm_num
  have first := (zpow_lt_zpow_iff_right₀ one).1 (low.trans_lt high')
  have second := (zpow_lt_zpow_iff_right₀ one).1 (low'.trans_lt high)
  omega

/-! ### Finite words -/

variable {x : Binary64}

theorem fractionSize_eq : fractionSize = 4503599627370496 := by decide

theorem infinityMagnitude_eq : infinityMagnitude = 9218868437227405312 := by decide

theorem signSize_eq : signSize = 9223372036854775808 := by decide

theorem isFinite_iff : x.isFinite = true ↔ x.magnitude < infinityMagnitude :=
  decide_eq_true_iff

/-- A word is made of its sign and its magnitude. -/
theorem ofMagnitude_magnitude (x : Binary64) : ofMagnitude x.negative x.magnitude = x := by
  have range := x.bits.toNat_lt
  obtain ⟨bits⟩ := x
  unfold ofMagnitude
  congr 1
  apply UInt64.toNat_inj.1
  simp only [negative, magnitude, signSize_eq, UInt64.toNat_ofNat', decide_eq_true_eq] at range ⊢
  split <;> omega

/-- The magnitude from the parts of the value. -/
theorem magnitude_eq (x : Binary64) :
    x.magnitude = (x.power + 1074).toNat * fractionSize + x.significand := by
  unfold power significand
  split
  case isTrue => simp
  case isFalse large =>
    rw [fractionSize_eq] at large ⊢
    simp only [Int.ofNat_eq_natCast]
    omega

theorem power_least (x : Binary64) : -1074 ≤ x.power := by
  unfold power
  split
  · exact le_rfl
  · rename_i large
    rw [fractionSize_eq] at large ⊢
    simp only [Int.ofNat_eq_natCast]
    omega

/-- Beyond the least power every word uses all of its significand. -/
theorem significand_normal (h : -1074 < x.power) : fractionSize ≤ x.significand := by
  unfold power significand at *
  split
  case isTrue small =>
    rw [if_pos small] at h
    exact absurd h (lt_irrefl _)
  case isFalse => exact Nat.le_add_right _ _

theorem significand_lt (x : Binary64) : x.significand < 2 * fractionSize := by
  unfold significand
  split
  · omega
  · have := Nat.mod_lt x.magnitude (show 0 < fractionSize by decide)
    omega

theorem power_greatest (finite : x.isFinite = true) : x.power ≤ 971 := by
  rw [isFinite_iff, infinityMagnitude_eq, magnitude_eq] at finite
  by_contra great
  have normal := significand_normal (x := x) (by omega)
  rw [fractionSize_eq] at finite normal
  omega

theorem significand_pos (notZero : x.isZero = false) : 0 < x.significand := by
  have some? : x.magnitude ≠ 0 := by simpa [isZero] using notZero
  rw [magnitude_eq] at some?
  by_contra none
  by_cases normal : -1074 < x.power
  · have := significand_normal normal
    rw [fractionSize_eq] at this
    omega
  · have least : x.power = -1074 := le_antisymm (not_lt.1 normal) x.power_least
    rw [least] at some?
    simp only [Int.reduceNeg, Int.add_left_neg, Int.toNat_zero, zero_mul, zero_add] at some?
    omega

/-- How far down numbers round to a word, in units of its last place. -/
def gapBelow (x : Binary64) : ℚ :=
  if x.significand = fractionSize ∧ fractionSize < x.magnitude then 1 / 4 else 1 / 2

/-- The number lies where numbers round to a finite word, signs aside. -/
def Near (x : Binary64) (v : ℚ) : Prop :=
  Within v ((x.significand - x.gapBelow) * 2 ^ x.power) ((x.significand + 1 / 2) * 2 ^ x.power)
    (x.significand % 2 == 0)

theorem gapBelow_le (x : Binary64) : x.gapBelow ≤ 1 / 2 := by
  unfold gapBelow
  split <;> norm_num

variable {v : ℚ}

theorem Near.pos (near : x.Near v) (notZero : x.isZero = false) : 0 < v := by
  have one : (1 : ℚ) ≤ x.significand := by exact_mod_cast significand_pos notZero
  have gap := x.gapBelow_le
  exact (mul_pos (by linarith) (two_zpow_pos _)).trans_le near.low

theorem Near.lt (near : x.Near v) : v < 2 ^ (x.power + 53) := by
  have size : (x.significand : ℚ) ≤ 9007199254740991 := by
    have := x.significand_lt
    rw [fractionSize_eq] at this
    exact_mod_cast Nat.le_of_lt_succ this
  calc v ≤ (x.significand + 1 / 2) * 2 ^ x.power := near.high
    _ < 9007199254740992 * 2 ^ x.power :=
        mul_lt_mul_of_pos_right (by linarith) (two_zpow_pos _)
    _ = 2 ^ (x.power + 53) := by
        rw [zpow_add₀ (by norm_num), mul_comm]
        norm_num

theorem ofRatio_eq {negative : Bool} (numPos : 0 < num)
    (exponent : Max.max (floorLog2 num den - 52) (-1074) = q) (rounded : roundAt num den q = m)
    (finite : (q + 1074).toNat * fractionSize + m < infinityMagnitude) :
    ofRatio negative num den = ofMagnitude negative ((q + 1074).toNat * fractionSize + m) := by
  unfold ofRatio
  rw [if_neg (by simpa using numPos.ne')]
  unfold roundAt at rounded
  simp only [exponent, rounded]
  rw [show Nat.min _ infinityMagnitude = _ from Nat.min_eq_left finite.le]

/-- Only the least word of a power of two has numbers near it that lie below that power. -/
theorem Near.lowest (near : x.Near v) (notLeast : x.power ≠ -1074) (under : v < 2 ^ (x.power + 52)) :
    x.significand = fractionSize ∧ (4503599627370496 - 1 / 4 : ℚ) * 2 ^ x.power ≤ v := by
  have least := x.power_least
  have normal := significand_normal (x := x) (by omega)
  have power52 : (2 : ℚ) ^ (x.power + 52) = 4503599627370496 * 2 ^ x.power := by
    rw [zpow_add₀ two_ne_zero, mul_comm]
    norm_num
  have close : ((x.significand : ℚ) - x.gapBelow) * 2 ^ x.power <
      4503599627370496 * 2 ^ x.power := (near.low.trans_lt under).trans_eq power52
  have lowest : x.significand = fractionSize := by
    have bound := lt_of_mul_lt_mul_right close (two_zpow_pos x.power).le
    have small : (x.significand : ℚ) < 4503599627370497 := by linarith [x.gapBelow_le]
    have small' : x.significand < 4503599627370497 := by exact_mod_cast small
    rw [fractionSize_eq] at normal ⊢
    omega
  have gap : x.gapBelow = 1 / 4 := by
    refine if_pos ⟨lowest, ?_⟩
    rw [magnitude_eq, lowest, fractionSize_eq]
    omega
  refine ⟨lowest, ?_⟩
  have reached := near.low
  rw [gap, lowest, fractionSize_eq] at reached
  exact_mod_cast reached

/-- A quotient in the range of a word's own power of two rounds to its significand. -/
theorem ofRatio_ownPower (numPos : 0 < num) (denPos : 0 < den) (near : x.Near (num / den))
    (reached : x.power = -1074 ∨ (2 : ℚ) ^ (x.power + 52) ≤ num / den)
    (finite : (x.power + 1074).toNat * fractionSize + x.significand < infinityMagnitude) :
    ofRatio x.negative num den =
      ofMagnitude x.negative ((x.power + 1074).toNat * fractionSize + x.significand) := by
  have exponent : Max.max (floorLog2 num den - 52) (-1074) = x.power := by
    rcases reached with least | reached
    · have low := (floorLog2_bounds numPos denPos).1.trans_lt near.lt
      have below := (zpow_lt_zpow_iff_right₀ one_lt_two).1 low
      omega
    · have least := x.power_least
      have floor := floorLog2_eq (e := x.power + 52) numPos denPos reached
        (by rw [add_assoc]; exact near.lt)
      omega
  apply ofRatio_eq numPos exponent (roundAt_within denPos ?_) finite
  have wider : ((x.significand : ℚ) - 1 / 2) * 2 ^ x.power ≤
      (x.significand - x.gapBelow) * 2 ^ x.power :=
    mul_le_mul_of_nonneg_right (by linarith [x.gapBelow_le]) (two_zpow_pos _).le
  exact ⟨wider.trans near.low, near.high,
    fun odd => ⟨wider.trans_lt (near.inside odd).1, (near.inside odd).2⟩⟩

/-- A quotient just below the power of two that a word is rounds to twice as many units of half the
size. -/
theorem ofRatio_powerBelow (numPos : 0 < num) (denPos : 0 < den) (notLeast : x.power ≠ -1074)
    (under : (num / den : ℚ) < 2 ^ (x.power + 52))
    (reached : (4503599627370496 - 1 / 4 : ℚ) * 2 ^ x.power ≤ num / den)
    (finite : (x.power + 1074).toNat * fractionSize + fractionSize < infinityMagnitude) :
    ofRatio x.negative num den =
      ofMagnitude x.negative ((x.power + 1074).toNat * fractionSize + fractionSize) := by
  have least := x.power_least
  have half : (2 : ℚ) ^ x.power = 2 * 2 ^ (x.power - 1) := by
    rw [← zpow_one_add₀ two_ne_zero]
    congr 1
    omega
  have exponent : Max.max (floorLog2 num den - 52) (-1074) = x.power - 1 := by
    have low : (2 : ℚ) ^ (x.power + 51) ≤ num / den := by
      calc (2 : ℚ) ^ (x.power + 51) = 2251799813685248 * 2 ^ x.power := by
            rw [zpow_add₀ two_ne_zero, mul_comm]
            norm_num
        _ ≤ (4503599627370496 - 1 / 4) * 2 ^ x.power :=
            mul_le_mul_of_nonneg_right (by norm_num) (two_zpow_pos _).le
        _ ≤ num / den := reached
    have floor := floorLog2_eq (e := x.power + 51) numPos denPos low
      (by rw [add_assoc]; exact under)
    omega
  have rounded : roundAt num den (x.power - 1) = 2 * fractionSize := by
    have unit := two_zpow_pos (x.power - 1)
    apply roundAt_within denPos
    refine ⟨?_, ?_, fun odd => ?_⟩
    · rw [half] at reached
      rw [fractionSize_eq]
      push_cast
      linarith
    · rw [zpow_add₀ two_ne_zero, half] at under
      rw [fractionSize_eq]
      push_cast
      linarith
    · rw [fractionSize_eq] at odd
      cases odd
  have magnitude : (x.power - 1 + 1074).toNat * fractionSize + 2 * fractionSize =
      (x.power + 1074).toNat * fractionSize + fractionSize := by
    rw [fractionSize_eq]
    omega
  rw [← magnitude] at finite ⊢
  exact ofRatio_eq numPos exponent rounded finite

/-- A quotient near a finite word rounds to it. -/
theorem ofRatio_near (finite : x.isFinite = true) (notZero : x.isZero = false) (denPos : 0 < den)
    (near : x.Near (num / den)) : ofRatio x.negative num den = x := by
  have numPos : 0 < num := by
    have positive := near.pos notZero
    rw [Nat.pos_iff_ne_zero]
    rintro rfl
    simp at positive
  rw [isFinite_iff, magnitude_eq] at finite
  conv_rhs => rw [← ofMagnitude_magnitude x, magnitude_eq]
  by_cases reached : x.power = -1074 ∨ (2 : ℚ) ^ (x.power + 52) ≤ num / den
  · exact ofRatio_ownPower numPos denPos near reached finite
  · rw [not_or, not_le] at reached
    obtain ⟨notLeast, under⟩ := reached
    obtain ⟨lowest, close⟩ := near.lowest notLeast under
    rw [lowest] at finite ⊢
    exact ofRatio_powerBelow numPos denPos notLeast under close finite

end Binary64

end MarketBook.Decimal
