/-
Module: MarketBook.Decimal.Reader
Purpose: Numbers with a point and an exponent read from text, each rounded once.
Main exports:
  ofDecimal, magnitude?, named?, read?
-/
import MarketBook.Decimal.Binary64
import MarketBook.Text.Numeral

namespace MarketBook.Decimal

open Text

/-- The word nearest to `digits * 10 ^ exponent`.  A number far beyond the largest word, or far
below the smallest, is told by its power of ten alone. -/
def ofDecimal (negative : Bool) (digits : Nat) (exponent : Int) : Binary64 :=
  let size := exponent + Int.ofNat (Nat.toDigits 10 digits).length
  if digits == 0 || size < -400 then Binary64.ofMagnitude negative 0
  else if 400 < size then Binary64.ofMagnitude negative Binary64.infinityMagnitude
  else if 0 ≤ exponent then Binary64.ofRatio negative (digits * tenTo exponent.toNat) 1
  else Binary64.ofRatio negative digits (tenTo (-exponent).toNat)

/-- A sign in front of a text, and the text behind it. -/
def splitSign : List Char → Bool × List Char
  | '-' :: r => (true, r)
  | '+' :: r => (false, r)
  | cs => (false, cs)

/-- The digits at the front, and what follows them. -/
def splitDigits (cs : List Char) : List Char × List Char :=
  (cs.takeWhile Char.isDigit, cs.dropWhile Char.isDigit)

/-- The exponent behind the digits: nothing, or a letter, an optional sign and digits. -/
def exponent? : List Char → Option Int
  | [] => some 0
  | c :: r =>
    if c == 'e' || c == 'E' then
      let (negative, ds) := splitSign r
      (digits? 10 ds).map fun n => if negative then -Int.ofNat n else Int.ofNat n
    else none

/-- The value of a number without sign: digits with at most one point, and an exponent. -/
def magnitude? (negative : Bool) (cs : List Char) : Option Binary64 := do
  let (whole, rest) := splitDigits cs
  let (fraction, tail) := match rest with
    | '.' :: r => splitDigits r
    | _ => ([], rest)
  let digits ← digits? 10 (whole ++ fraction)
  let exponent ← exponent? tail
  return ofDecimal negative digits (exponent - Int.ofNat fraction.length)

/-- The word of a named value: the infinities, and a word that stands for no number. -/
def named? (negative : Bool) (cs : List Char) : Option Binary64 :=
  let name := String.ofList (cs.map Char.toLower)
  if name == "inf" || name == "infinity" then
    some (Binary64.ofMagnitude negative Binary64.infinityMagnitude)
  else if name == "nan" then
    some (Binary64.ofMagnitude negative (Binary64.infinityMagnitude + Binary64.fractionSize / 2))
  else none

/-- A number as a text holds it, spaces excluded: an optional sign, then digits with an optional
point and exponent, or a named value. -/
def read? (s : String) : Option Binary64 :=
  let (negative, body) := splitSign s.toList
  (named? negative body).or (magnitude? negative body)

end MarketBook.Decimal
