/-
Module: MarketBook.Proofs.ShortestDigits
Purpose: The shortest digits of a finite word stand for a number that rounds to the word.
Main exports:
  Digits.value, Neighbourhood.holds_iff, Neighbourhood.onGrid?_isSome, shortest_near
-/
import MarketBook.Decimal.Shortest
import MarketBook.Proofs.NearestWords

namespace MarketBook.Decimal

/-!
Whatever grid wins, the digits that it gives lie in the interval of the word, because that is
tested.  So all that can go wrong is that no grid wins.  The finest grid has a point within half a
step of the value, and its step is smaller than the interval on either side: a value of sixteen
digits before the step has fewer than fifty-three bits.
-/

theorem tenTo_cast (n : Nat) : ((tenTo n : Nat) : ℚ) = 10 ^ n := by
  change ((10 ^ n : Nat) : ℚ) = 10 ^ n
  exact Nat.cast_pow 10 n

theorem tenTo_pos (n : Nat) : 0 < tenTo n :=
  Nat.pow_pos (by decide)

theorem ten_zpow_pos (e : ℤ) : (0 : ℚ) < 10 ^ e :=
  zpow_pos (by norm_num) e

/-- A power of an exponent of either sign as a quotient of two natural numbers. -/
theorem quotient_eq_zpow {b : ℚ} {power : Nat → Nat}
    (cast : ∀ n, ((power n : Nat) : ℚ) = b ^ n) (e : ℤ) :
    ((if 0 ≤ e then power e.toNat else 1 : Nat) : ℚ) /
      ((if 0 ≤ e then 1 else power (-e).toNat : Nat) : ℚ) = b ^ e := by
  split
  case isTrue upward =>
    rw [cast, ← zpow_natCast, Int.toNat_of_nonneg upward, Nat.cast_one, div_one]
  case isFalse downward =>
    rw [cast, ← zpow_natCast, Int.toNat_of_nonneg (by omega), zpow_neg, Nat.cast_one, one_div,
      inv_inv]

/-- The number that digits stand for. -/
def Digits.value (d : Digits) : ℚ :=
  d.digits * 10 ^ d.exponent

theorem trim_value (fuel : Nat) (d : Digits) : (d.trim fuel).value = d.value := by
  induction fuel generalizing d with
  | zero => rfl
  | succ fuel ih =>
      unfold Digits.trim
      split
      case isTrue h =>
        simp only [Bool.and_eq_true, beq_iff_eq] at h
        have whole : (d.digits / 10 : Nat) * 10 = d.digits :=
          Nat.div_mul_cancel (Nat.dvd_of_mod_eq_zero h.2)
        rw [ih]
        unfold Digits.value
        conv_rhs => rw [← whole]
        rw [zpow_add₀ (by norm_num)]
        push_cast
        ring
      case isFalse => rfl

/-! ### Points of a grid -/

namespace Neighbourhood

open Binary64

variable {i : Neighbourhood} {tie : Tie} {d : Digits} {e : ℤ} {n unitNum unitDen : Nat}

/-- The number lies in the interval. -/
def Has (i : Neighbourhood) (v : ℚ) : Prop :=
  Within v (i.low / i.den) (i.high / i.den) i.closed

theorem holds_iff (denPos : 0 < i.den) (unitPos : 0 < unitDen) :
    i.holds n unitNum unitDen = true ↔ i.Has (n * (unitNum / unitDen)) := by
  have den : (0 : ℚ) < i.den := by exact_mod_cast denPos
  have unit : (0 : ℚ) < unitDen := by exact_mod_cast unitPos
  have point : (n * (unitNum / unitDen) : ℚ) = (n * unitNum : ℚ) / unitDen := by ring
  have low_le : i.low * unitDen ≤ n * unitNum * i.den ↔
      (i.low / i.den : ℚ) ≤ n * (unitNum / unitDen) := by
    rw [point, div_le_div_iff₀ den unit]
    exact_mod_cast Iff.rfl
  have le_high : n * unitNum * i.den ≤ i.high * unitDen ↔
      (n * (unitNum / unitDen) : ℚ) ≤ i.high / i.den := by
    rw [point, div_le_div_iff₀ unit den]
    exact_mod_cast Iff.rfl
  have low_lt : i.low * unitDen < n * unitNum * i.den ↔
      (i.low / i.den : ℚ) < n * (unitNum / unitDen) := by
    rw [point, div_lt_div_iff₀ den unit]
    exact_mod_cast Iff.rfl
  have lt_high : n * unitNum * i.den < i.high * unitDen ↔
      (n * (unitNum / unitDen) : ℚ) < i.high / i.den := by
    rw [point, div_lt_div_iff₀ unit den]
    exact_mod_cast Iff.rfl
  unfold holds Has
  cases closed : i.closed with
  | true =>
      simp only [if_true, Bool.and_eq_true, decide_eq_true_eq, low_le, le_high]
      constructor
      · intro h
        exact ⟨h.1, h.2, nofun⟩
      · intro h
        exact ⟨h.low, h.high⟩
  | false =>
      simp only [Bool.false_eq_true, if_false, Bool.and_eq_true, decide_eq_true_eq, low_lt, lt_high]
      constructor
      · intro h
        exact ⟨h.1.le, h.2.le, fun _ => h⟩
      · intro h
        exact h.inside rfl

/-- The step of a grid, as a quotient. -/
def stepNum (e : ℤ) : Nat :=
  if 0 ≤ e then tenTo e.toNat else 1

def stepDen (e : ℤ) : Nat :=
  if 0 ≤ e then 1 else tenTo (-e).toNat

theorem step_eq (e : ℤ) : (stepNum e / stepDen e : ℚ) = 10 ^ e :=
  quotient_eq_zpow tenTo_cast e

theorem stepNum_pos (e : ℤ) : 0 < stepNum e := by
  unfold stepNum
  split
  · exact tenTo_pos _
  · exact Nat.one_pos

theorem stepDen_pos (e : ℤ) : 0 < stepDen e := by
  unfold stepDen
  split
  · exact Nat.one_pos
  · exact tenTo_pos _

/-- The neighbour that a quotient is rounded to. -/
def nearerOf (tie : Tie) (num den : Nat) : Nat :=
  if 2 * (num % den) < den || (2 * (num % den) == den && tie.keepsLower (num / den))
  then num / den else num / den + 1

/-- The nearer neighbour of the value on a grid. -/
def nearer (i : Neighbourhood) (tie : Tie) (e : ℤ) : Nat :=
  nearerOf tie (i.value * stepDen e) (i.den * stepNum e)

/-- Only points in the interval are given, and the nearer neighbour is given if it is one. -/
theorem onGrid?_cases (i : Neighbourhood) (tie : Tie) (e : ℤ) :
    (∃ n, i.onGrid? tie e = some ⟨n, e⟩ ∧ i.holds n (stepNum e) (stepDen e) = true) ∨
      i.onGrid? tie e = none ∧ i.holds (i.nearer tie e) (stepNum e) (stepDen e) = false := by
  have found : ∀ nearer farther : Nat,
      (∃ n, (if i.holds nearer (stepNum e) (stepDen e) = true then some (⟨nearer, e⟩ : Digits)
          else if i.holds farther (stepNum e) (stepDen e) = true then some ⟨farther, e⟩ else none) =
            some ⟨n, e⟩ ∧ i.holds n (stepNum e) (stepDen e) = true) ∨
        (if i.holds nearer (stepNum e) (stepDen e) = true then some (⟨nearer, e⟩ : Digits)
          else if i.holds farther (stepNum e) (stepDen e) = true then some ⟨farther, e⟩ else none) =
            none ∧ i.holds nearer (stepNum e) (stepDen e) = false := by
    intro nearer farther
    split
    case isTrue held => exact Or.inl ⟨nearer, rfl, held⟩
    case isFalse missed =>
      split
      case isTrue held => exact Or.inl ⟨farther, rfl, held⟩
      case isFalse => exact Or.inr ⟨rfl, Bool.eq_false_iff.2 missed⟩
  exact found _ _

/-- What a grid gives lies in the interval. -/
theorem onGrid?_has (denPos : 0 < i.den) (found : i.onGrid? tie e = some d) : i.Has d.value := by
  rcases onGrid?_cases i tie e with ⟨n, same, held⟩ | ⟨none, -⟩
  · rw [found] at same
    cases same
    have has := (holds_iff denPos (stepDen_pos e)).1 held
    rwa [step_eq] at has
  · rw [found] at none
    cases none

/-- The nearer neighbour is at most half a step away. -/
theorem nearerOf_close (num : Nat) {den : Nat} (positive : 0 < den) (tie : Tie) :
    2 * num ≤ 2 * nearerOf tie num den * den + den ∧
      2 * nearerOf tie num den * den ≤ 2 * num + den := by
  have split := Nat.div_add_mod num den
  have small := Nat.mod_lt num positive
  unfold nearerOf
  generalize num / den = down at *
  generalize num % den = rest at *
  split
  case isTrue h =>
    simp only [Bool.or_eq_true, Bool.and_eq_true, decide_eq_true_eq, beq_iff_eq] at h
    have : 2 * rest ≤ den := by omega
    constructor <;> nlinarith
  case isFalse h =>
    simp only [Bool.or_eq_true, Bool.and_eq_true, decide_eq_true_eq, beq_iff_eq, not_or] at h
    have : den ≤ 2 * rest := by omega
    constructor <;> nlinarith

theorem nearer_close (denPos : 0 < i.den) (tie : Tie) (e : ℤ) :
    (i.value / i.den : ℚ) ≤ i.nearer tie e * 10 ^ e + 10 ^ e / 2 ∧
      (i.nearer tie e * 10 ^ e : ℚ) ≤ i.value / i.den + 10 ^ e / 2 := by
  have stepDen' : (0 : ℚ) < stepDen e := by exact_mod_cast stepDen_pos e
  have den : (0 : ℚ) < i.den := by exact_mod_cast denPos
  obtain ⟨above, under⟩ :=
    nearerOf_close (i.value * stepDen e) (Nat.mul_pos denPos (stepNum_pos e)) tie
  change _ ≤ 2 * i.nearer tie e * _ + _ at above
  change 2 * i.nearer tie e * _ ≤ _ at under
  have above' : (2 * (i.value * stepDen e) : ℚ) ≤
      2 * i.nearer tie e * (i.den * stepNum e) + i.den * stepNum e := by exact_mod_cast above
  have under' : (2 * i.nearer tie e * (i.den * stepNum e) : ℚ) ≤
      2 * (i.value * stepDen e) + i.den * stepNum e := by exact_mod_cast under
  rw [show (stepNum e : ℚ) = 10 ^ e * stepDen e by rw [← step_eq, div_mul_cancel₀ _ stepDen'.ne']]
    at above' under'
  have value : (i.value / i.den : ℚ) * i.den = i.value := div_mul_cancel₀ _ den.ne'
  have both : (0 : ℚ) < i.den * stepDen e := mul_pos den stepDen'
  constructor
  · refine le_of_mul_le_mul_right ?_ both
    calc (i.value / i.den : ℚ) * (i.den * stepDen e) = i.value * stepDen e := by
          rw [← mul_assoc, value]
      _ ≤ (i.nearer tie e * 10 ^ e + 10 ^ e / 2) * (i.den * stepDen e) := by linarith
  · refine le_of_mul_le_mul_right ?_ both
    calc (i.nearer tie e * 10 ^ e : ℚ) * (i.den * stepDen e)
        ≤ i.value * stepDen e + 10 ^ e / 2 * (i.den * stepDen e) := by linarith
      _ = (i.value / i.den + 10 ^ e / 2) * (i.den * stepDen e) := by
          rw [add_mul, ← mul_assoc (i.value / i.den : ℚ), value]

/-- A grid serves if its step is less than twice the distance from the value to either end. -/
theorem onGrid?_isSome (denPos : 0 < i.den)
    (below : (10 : ℚ) ^ e < 2 * (i.value / i.den - i.low / i.den))
    (above : (10 : ℚ) ^ e < 2 * (i.high / i.den - i.value / i.den)) :
    (i.onGrid? tie e).isSome = true := by
  obtain ⟨atMost, under⟩ := nearer_close denPos tie e
  have lower : (i.low / i.den : ℚ) < i.nearer tie e * 10 ^ e := by linarith
  have upper : (i.nearer tie e * 10 ^ e : ℚ) < i.high / i.den := by linarith
  have held : i.holds (i.nearer tie e) (stepNum e) (stepDen e) = true := by
    rw [holds_iff denPos (stepDen_pos e), step_eq]
    exact ⟨lower.le, upper.le, fun _ => ⟨lower, upper⟩⟩
  rcases onGrid?_cases i tie e with ⟨n, found, -⟩ | ⟨-, missed⟩
  · rw [found]
    rfl
  · rw [held] at missed
    cases missed

/-- If one of the grids serves, what the first that does gives lies in the interval. -/
theorem firstGrid_has (denPos : 0 < i.den) {more : Nat} {j : Nat} (within : j < more)
    (serves : (i.onGrid? tie (e - j)).isSome = true) : i.Has (i.firstGrid tie more e).value := by
  induction more generalizing e j with
  | zero => omega
  | succ more ih =>
      unfold firstGrid
      cases found : i.onGrid? tie e with
      | some d => exact onGrid?_has denPos found
      | none =>
          cases j with
          | zero =>
              rw [Nat.cast_zero, sub_zero, found] at serves
              cases serves
          | succ j =>
              apply ih (j := j) (by omega)
              rw [show e - 1 - (j : ℤ) = e - ((j + 1 : Nat) : ℤ) by omega]
              exact serves

end Neighbourhood

/-! ### The interval of a word -/

open Binary64

variable {x : Binary64} {num den : Nat}

theorem ten_pow_length {n : Nat} (positive : 0 < n) :
    10 ^ ((Nat.toDigits 10 n).length - 1) ≤ n ∧ n < 10 ^ (Nat.toDigits 10 n).length := by
  have some? := Nat.length_toDigits_pos (b := 10) (n := n)
  refine ⟨?_, (Nat.length_toDigits_le_iff (by decide) some?).1 le_rfl⟩
  by_cases single : (Nat.toDigits 10 n).length = 1
  · rw [single]
    exact positive
  · by_contra less
    have := (Nat.length_toDigits_le_iff (b := 10) (k := (Nat.toDigits 10 n).length - 1) (by decide)
      (by omega)).2 (not_le.1 less)
    omega

theorem floorLog10_le (numPos : 0 < num) (denPos : 0 < den) :
    (10 : ℚ) ^ floorLog10 num den ≤ num / den := by
  have den' : (0 : ℚ) < den := by exact_mod_cast denPos
  unfold floorLog10
  split
  case isTrue least =>
    obtain ⟨low, -⟩ := ten_pow_length (Nat.div_pos least denPos)
    have length := Nat.length_toDigits_pos (b := 10) (n := num / den)
    rw [show Int.ofNat (Nat.toDigits 10 (num / den)).length - 1 =
        (((Nat.toDigits 10 (num / den)).length - 1 : Nat) : ℤ) by
      simp only [Int.ofNat_eq_natCast]
      omega, zpow_natCast, le_div_iff₀ den']
    exact_mod_cast (Nat.mul_le_mul_right den low).trans (Nat.div_mul_le_self num den)
  case isFalse less =>
    obtain ⟨-, high⟩ := ten_pow_length (Nat.div_pos (not_le.1 less).le numPos)
    have length := Nat.length_toDigits_pos (b := 10) (n := den / num)
    set n := (Nat.toDigits 10 (den / num)).length - 1
    rw [show (Nat.toDigits 10 (den / num)).length = n + 1 by omega] at high
    have reach : den ≤ num * 10 ^ (n + 1) :=
      ((Nat.div_lt_iff_lt_mul numPos).1 high).le.trans_eq (Nat.mul_comm _ _)
    have inverse : ∀ k : Nat, den ≤ num * 10 ^ k → (10 : ℚ) ^ (-(k : ℤ)) ≤ num / den := by
      intro k h
      rw [zpow_neg, zpow_natCast, le_div_iff₀ den', inv_mul_le_iff₀ (by positivity), mul_comm]
      exact_mod_cast h
    simp only []
    split
    case isTrue reached => exact inverse n reached
    case isFalse =>
      rw [show -Int.ofNat n - 1 = -((n + 1 : Nat) : ℤ) by
        simp only [Int.ofNat_eq_natCast]
        omega]
      exact inverse (n + 1) reach

/-- The interval of a word in terms of its value. -/
theorem neighbourhood_eq (notZero : x.isZero = false) :
    0 < x.neighbourhood.den ∧ 0 < x.neighbourhood.value ∧
      (x.neighbourhood.low / x.neighbourhood.den : ℚ) =
        (x.significand - x.gapBelow) * 2 ^ x.power ∧
      (x.neighbourhood.value / x.neighbourhood.den : ℚ) = x.significand * 2 ^ x.power ∧
      (x.neighbourhood.high / x.neighbourhood.den : ℚ) =
        (x.significand + 1 / 2) * 2 ^ x.power := by
  have positive := significand_pos notZero
  obtain ⟨below, lowEq, gap⟩ : ∃ below : Nat,
      x.neighbourhood.low = (4 * x.significand - below) *
          (if 0 ≤ x.power - 2 then twoTo (x.power - 2).toNat else 1) ∧
        below ≤ 2 ∧ x.gapBelow = below / 4 := by
    refine ⟨_, rfl, ?_, ?_⟩
    · split <;> omega
    · unfold gapBelow
      simp only [Bool.and_eq_true, beq_iff_eq, decide_eq_true_eq, gt_iff_lt]
      split <;> norm_num
  have unit : ((if 0 ≤ x.power - 2 then twoTo (x.power - 2).toNat else 1 : Nat) : ℚ) /
      (x.neighbourhood.den : ℚ) = 2 ^ x.power / 4 := by
    have quarter : (2 : ℚ) ^ x.power / 4 = 2 ^ (x.power - 2) := by
      rw [zpow_sub₀ (by norm_num)]
      norm_num
    rw [quarter]
    exact quotient_eq_zpow twoTo_cast (x.power - 2)
  have scalePos : 0 < (if 0 ≤ x.power - 2 then twoTo (x.power - 2).toNat else 1 : Nat) := by
    split
    · exact twoTo_pos _
    · exact Nat.one_pos
  refine ⟨?_, Nat.mul_pos (by omega) scalePos, ?_, ?_, ?_⟩
  · change 0 < (if 0 ≤ x.power - 2 then 1 else twoTo (-(x.power - 2)).toNat : Nat)
    split
    · exact Nat.one_pos
    · exact twoTo_pos _
  · rw [lowEq, Nat.cast_mul, mul_div_assoc, unit, gap.2, Nat.cast_sub (by omega)]
    push_cast
    ring
  · rw [show x.neighbourhood.value = 4 * x.significand *
        (if 0 ≤ x.power - 2 then twoTo (x.power - 2).toNat else 1) from rfl, Nat.cast_mul,
      mul_div_assoc, unit]
    push_cast
    ring
  · rw [show x.neighbourhood.high = (4 * x.significand + 2) *
        (if 0 ≤ x.power - 2 then twoTo (x.power - 2).toNat else 1) from rfl, Nat.cast_mul,
      mul_div_assoc, unit]
    push_cast
    ring

/-- The shortest digits of a finite word stand for a number that rounds to it. -/
theorem shortest_near (tie : Tie) (notZero : x.isZero = false) :
    x.Near (shortest tie x).value := by
  obtain ⟨denPos, valuePos, low, value, high⟩ := neighbourhood_eq notZero
  have unit := two_zpow_pos x.power
  have ten : (10 : ℚ) ≠ 0 := by norm_num
  set k := floorLog10 x.neighbourhood.value x.neighbourhood.den with hk
  have reach : (10 : ℚ) ^ k ≤ x.significand * 2 ^ x.power := by
    rw [← value]
    exact floorLog10_le valuePos denPos
  -- sixteen digits behind the first are finer than fifty-three bits
  have bits : (x.significand : ℚ) ≤ 2 * x.gapBelow * 9007199254740992 := by
    unfold gapBelow
    split
    case isTrue least =>
      rw [least.1, fractionSize_eq]
      norm_num
    case isFalse =>
      have := x.significand_lt
      rw [fractionSize_eq] at this
      have : (x.significand : ℚ) ≤ 9007199254740992 := by exact_mod_cast this.le
      linarith
  have gapPos : 0 < x.gapBelow := by
    unfold gapBelow
    split <;> norm_num
  have fine : (10 : ℚ) ^ (k - 16) < 2 * x.gapBelow * 2 ^ x.power := by
    have split : (10 : ℚ) ^ (k - 16) * 10000000000000000 = 10 ^ k := by
      rw [zpow_sub₀ ten]
      norm_num
    have bound : (10 : ℚ) ^ k ≤ 2 * x.gapBelow * 9007199254740992 * 2 ^ x.power :=
      reach.trans (mul_le_mul_of_nonneg_right bits unit.le)
    have product := mul_pos gapPos unit
    nlinarith
  have serves : (x.neighbourhood.onGrid? tie (k - ((16 : Nat) : ℤ))).isSome = true := by
    refine Neighbourhood.onGrid?_isSome denPos ?_ ?_
    · rw [value, low]
      push_cast
      linarith
    · rw [value, high]
      have wide := mul_le_mul_of_nonneg_right x.gapBelow_le unit.le
      push_cast
      linarith
  have has : x.neighbourhood.Has (x.neighbourhood.firstGrid tie 17 k).value :=
    Neighbourhood.firstGrid_has denPos (by omega) serves
  unfold Neighbourhood.Has at has
  rw [low, high] at has
  unfold shortest
  rw [notZero]
  simp only [Bool.false_eq_true, if_false, trim_value]
  exact has

end MarketBook.Decimal
