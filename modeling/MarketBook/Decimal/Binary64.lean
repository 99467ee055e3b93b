/-
Module: MarketBook.Decimal.Binary64
Purpose: The binary interchange format of 64 bits: its words, the exact value of each finite word,
  and the word nearest to a quotient of natural numbers.
Main exports:
  Binary64, Binary64.isFinite, Binary64.lt, Binary64.ofRatio, Binary64.ofInt
-/

namespace MarketBook.Decimal

/-!
Prices are words of this format, so two prices are the same exactly when their words are.  All
arithmetic is exact arithmetic on natural numbers followed by one rounding to the nearest word, a
tie going to the even one.
-/

/-- A power of two. -/
def twoTo (n : Nat) : Nat := Nat.pow 2 n

/-- A power of ten. -/
def tenTo (n : Nat) : Nat := Nat.pow 10 n

/-- A word of the format: sign, eleven bits of exponent, fifty-two bits of fraction. -/
structure Binary64 where
  bits : UInt64
deriving DecidableEq

namespace Binary64

/-- The weight of the lowest exponent bit. -/
def fractionSize : Nat := twoTo 52

/-- The weight of the sign bit. -/
def signSize : Nat := twoTo 63

/-- The magnitude of the two infinities; larger magnitudes are no numbers. -/
def infinityMagnitude : Nat := 2047 * fractionSize

/-- The word from its sign and the number formed by the other bits. -/
def ofMagnitude (negative : Bool) (magnitude : Nat) : Binary64 :=
  ⟨UInt64.ofNat ((if negative then signSize else 0) + magnitude)⟩

/-- The sign bit is set. -/
def negative (x : Binary64) : Bool :=
  signSize ≤ x.bits.toNat

/-- The number formed by the bits below the sign. -/
def magnitude (x : Binary64) : Nat :=
  x.bits.toNat % signSize

/-- Neither an infinity nor one of the words that stand for no number. -/
def isFinite (x : Binary64) : Bool :=
  x.magnitude < infinityMagnitude

/-- Zero of either sign. -/
def isZero (x : Binary64) : Bool :=
  x.magnitude == 0

/-- The word with the other sign. -/
def neg (x : Binary64) : Binary64 :=
  ofMagnitude (!x.negative) x.magnitude

/-- The integer `m` of the value `m * 2 ^ q` that a finite word has up to its sign. -/
def significand (x : Binary64) : Nat :=
  if x.magnitude < fractionSize then x.magnitude
  else fractionSize + x.magnitude % fractionSize

/-- The power `q` of the value `m * 2 ^ q` that a finite word has up to its sign. -/
def power (x : Binary64) : Int :=
  if x.magnitude < fractionSize then -1074
  else Int.ofNat (x.magnitude / fractionSize) - 1075

/-- The finite words in the order of their values; both zeros stand at zero. -/
def orderKey (x : Binary64) : Int :=
  if x.negative then -Int.ofNat x.magnitude else Int.ofNat x.magnitude

/-- One finite value is below another. -/
def lt (x y : Binary64) : Bool :=
  x.orderKey < y.orderKey

/-- The larger of two finite values, the first of two equal ones. -/
def max (x y : Binary64) : Binary64 :=
  if x.lt y then y else x

/-- The smaller of two finite values, the first of two equal ones. -/
def min (x y : Binary64) : Binary64 :=
  if y.lt x then y else x

/-- The integer nearest to a quotient, a tie going to the even one. -/
def roundHalfEven (num den : Nat) : Nat :=
  let whole := num / den
  let rest := 2 * (num % den)
  if rest < den || (rest == den && whole % 2 == 0) then whole else whole + 1

/-- The greatest `e` with `2 ^ e` at most the quotient of two positive numbers. -/
def floorLog2 (num den : Nat) : Int :=
  let e := Int.ofNat num.log2 - Int.ofNat den.log2
  let reached := if 0 ≤ e then den * twoTo e.toNat ≤ num else den ≤ num * twoTo (-e).toNat
  if reached then e else e - 1

/-- The word nearest to a quotient, an infinity if the quotient is too large for any other. -/
def ofRatio (negative : Bool) (num den : Nat) : Binary64 :=
  if num == 0 then ofMagnitude negative 0
  else
    let q := Max.max (floorLog2 num den - 52) (-1074)
    let m := if 0 ≤ q then roundHalfEven num (den * twoTo q.toNat)
      else roundHalfEven (num * twoTo (-q).toNat) den
    ofMagnitude negative (Nat.min ((q + 1074).toNat * fractionSize + m) infinityMagnitude)

/-- The word nearest to a whole number. -/
def ofInt (n : Int) : Binary64 :=
  ofRatio (n < 0) n.natAbs 1

/-- The quotient of natural numbers that a finite word is, up to its sign. -/
def ratio (x : Binary64) : Nat × Nat :=
  if 0 ≤ x.power then (x.significand * twoTo x.power.toNat, 1)
  else (x.significand, twoTo (-x.power).toNat)

/-- The word nearest to the product of two finite values. -/
def mul (x y : Binary64) : Binary64 :=
  ofRatio (x.negative != y.negative) (x.ratio.1 * y.ratio.1) (x.ratio.2 * y.ratio.2)

/-- The word nearest to the quotient of two finite values, the second not zero. -/
def div (x y : Binary64) : Binary64 :=
  ofRatio (x.negative != y.negative) (x.ratio.1 * y.ratio.2) (x.ratio.2 * y.ratio.1)

end Binary64

end MarketBook.Decimal
