/-
Module: MarketBook.Decimal.Shortest
Purpose: The fewest decimal digits that read back as a given word.
Main exports:
  Digits, Tie, shortest
-/
import MarketBook.Decimal.Binary64

namespace MarketBook.Decimal

/-!
A finite word is the nearest one to a whole interval of numbers, the ends belonging to it exactly
when its significand is even.  For one digit, two digits and so on, the two neighbours of the value
on the grid of that many digits are tried; the first grid with a neighbour in the interval wins, and
of two neighbours the nearer one, a tie going as the format says.  Seventeen digits always suffice.
-/

/-- The number `digits * 10 ^ exponent`. -/
structure Digits where
  digits : Nat
  exponent : Int
deriving DecidableEq

/-- Which of two equally near candidates stands for a number. -/
inductive Tie where
  /-- The even one. -/
  | even
  /-- The greater one. -/
  | up
deriving DecidableEq

/-- The lower of two equally near candidates stands for the number. -/
def Tie.keepsLower (t : Tie) (lower : Nat) : Bool :=
  match t with
  | .even => lower % 2 == 0
  | .up => false

/-- The greatest `k` with `10 ^ k` at most the quotient of two positive numbers. -/
def floorLog10 (num den : Nat) : Int :=
  if den ≤ num then Int.ofNat (Nat.toDigits 10 (num / den)).length - 1
  else
    let n := (Nat.toDigits 10 (den / num)).length - 1
    if den ≤ num * tenTo n then -Int.ofNat n else -Int.ofNat n - 1

/-- The interval of numbers that round to a word, as numerators over one denominator. -/
structure Neighbourhood where
  low : Nat
  value : Nat
  high : Nat
  den : Nat
  closed : Bool

/-- The interval of a finite word that is not zero: half way to the next word on either side, where
the word below a power of two is only half as far away. -/
def Binary64.neighbourhood (x : Binary64) : Neighbourhood :=
  let m := x.significand
  let below := if m == Binary64.fractionSize && x.magnitude > Binary64.fractionSize then 1 else 2
  let q := x.power - 2
  let scale := if 0 ≤ q then twoTo q.toNat else 1
  { low := (4 * m - below) * scale
    value := 4 * m * scale
    high := (4 * m + 2) * scale
    den := if 0 ≤ q then 1 else twoTo (-q).toNat
    closed := m % 2 == 0 }

/-- The point `n * unitNum / unitDen` lies in the interval. -/
def Neighbourhood.holds (i : Neighbourhood) (n unitNum unitDen : Nat) : Bool :=
  let point := n * unitNum * i.den
  let low := i.low * unitDen
  let high := i.high * unitDen
  if i.closed then low ≤ point && point ≤ high else low < point && point < high

/-- The better of the value's two neighbours on the grid of powers `10 ^ e`, if one is in the
interval: the nearer one, and of two equally near the one that the tie rule takes. -/
def Neighbourhood.onGrid? (i : Neighbourhood) (tie : Tie) (e : Int) : Option Digits :=
  let unitNum := if 0 ≤ e then tenTo e.toNat else 1
  let unitDen := if 0 ≤ e then 1 else tenTo (-e).toNat
  let num := i.value * unitDen
  let den := i.den * unitNum
  let down := num / den
  let rest := 2 * (num % den)
  let nearer := if rest < den || (rest == den && tie.keepsLower down) then down else down + 1
  let farther := if nearer == down then down + 1 else down
  if i.holds nearer unitNum unitDen then some ⟨nearer, e⟩
  else if i.holds farther unitNum unitDen then some ⟨farther, e⟩
  else none

/-- The first grid that serves, from `k - 1` on downwards. -/
def Neighbourhood.firstGrid (i : Neighbourhood) (tie : Tie) : Nat → Int → Digits
  | 0, e => ⟨i.value / i.den, e⟩
  | more + 1, e => (i.onGrid? tie e).getD (i.firstGrid tie more (e - 1))

/-- A number with the zeros at its end moved into the exponent. -/
def Digits.trim : Nat → Digits → Digits
  | 0, d => d
  | more + 1, d =>
    if d.digits != 0 && d.digits % 10 == 0 then trim more ⟨d.digits / 10, d.exponent + 1⟩ else d

/-- The fewest digits that read back as the finite word, without its sign. -/
def shortest (tie : Tie) (x : Binary64) : Digits :=
  if x.isZero then ⟨0, 0⟩
  else
    let i := x.neighbourhood
    (i.firstGrid tie 17 (floorLog10 i.value i.den)).trim 20

end MarketBook.Decimal
