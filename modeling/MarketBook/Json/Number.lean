/-
Module: MarketBook.Json.Number
Purpose: JSON numbers read from text, with the two roundings of their scale.
Main exports:
  Json.readNumber
-/
import MarketBook.Decimal.Reader
import MarketBook.Json.Basic

namespace MarketBook.Json

open Decimal

/-!
The digits of a number are gathered into a significand of 64 bits, and digits that no longer fit
only count as powers of ten.  A number without point and exponent that fits is an integer.  Any
other is the significand rounded to a word, then multiplied or divided by one power of ten, which
rounds again.  A number too large for any finite word is no number.
-/

/-- Digits gathered until the next would not fit: the significand, how many digits went in, and how
many were left out. -/
structure Gathered where
  significand : Nat
  used : Nat
  dropped : Nat

/-- Gathers digits onto a significand. -/
def gather (significand used : Nat) : List Char → Gathered
  | [] => ⟨significand, used, 0⟩
  | c :: r =>
    let next := significand * 10 + (c.toNat - 48)
    if next < Text.limit64 then gather next (used + 1) r else ⟨significand, used, r.length + 1⟩

/-- The largest power of ten that one step of scaling takes. -/
def scaleStep : Nat := 308

/-- The word nearest to a power of ten. -/
def powerOfTen (n : Nat) : Binary64 :=
  ofDecimal false 1 (Int.ofNat n)

/-- A word divided by a power of ten, in steps of the largest power. -/
def divideByPower : Nat → Binary64 → Nat → Binary64
  | 0, x, _ => x
  | more + 1, x, n =>
    if n ≤ scaleStep then x.div (powerOfTen n)
    else if x.isZero then x
    else divideByPower more (x.div (powerOfTen scaleStep)) (n - scaleStep)

/-- A significand scaled by a power of ten; nothing if that is too large. -/
def scale? (significand : Nat) (exponent : Int) : Option Binary64 :=
  let x := Binary64.ofInt (Int.ofNat significand)
  if exponent < 0 then some (divideByPower 4 x exponent.natAbs)
  else if exponent.toNat ≤ scaleStep then (some (x.mul (powerOfTen exponent.toNat))).filter (·.isFinite)
  else if x.isZero then some x
  else none

/-- A number with a sign in front of the significand. -/
def signedFloat? (negative : Bool) (significand : Nat) (exponent : Int) : Option Json :=
  (scale? significand exponent).map fun x => .float (if negative then x.neg else x)

/-- The power of ten behind a letter: an optional sign and at least one digit.  The letter is taken
off already. -/
def readExponent (cs : List Char) : Option (Int × List Char) :=
  let (negative, body) := splitSign cs
  let (ds, rest) := splitDigits body
  (Text.digits? 10 ds).map fun n => (if negative then -Int.ofNat n else Int.ofNat n, rest)

/-- What may follow the digits of a fraction: an exponent, or the end of the number. -/
def finishFloat (negative : Bool) (significand : Nat) (exponent : Int) (rest : List Char) :
    Option (Json × List Char) :=
  match rest with
  | 'e' :: r | 'E' :: r => do
    let (e, r) ← readExponent r
    return (← signedFloat? negative significand (exponent + e), r)
  | _ => do return (← signedFloat? negative significand exponent, rest)

/-- The number without its sign, and what follows it.  A number does not start with a zero before
another digit. -/
def readMagnitude (negative : Bool) (cs : List Char) : Option (Json × List Char) :=
  let (ds, rest) := splitDigits cs
  if ds.isEmpty || (ds.head? == some '0' && ds.length != 1) then none
  else
    let whole := gather 0 0 ds
    match rest with
    | '.' :: r =>
      let (fs, r) := splitDigits r
      if fs.isEmpty then none
      else
        let all := gather whole.significand 0 fs
        finishFloat negative all.significand (Int.ofNat whole.dropped - Int.ofNat all.used) r
    | 'e' :: _ | 'E' :: _ => finishFloat negative whole.significand (Int.ofNat whole.dropped) rest
    | _ =>
      if whole.dropped != 0 then
        finishFloat negative whole.significand (Int.ofNat whole.dropped) rest
      else if !negative then some (ofNat whole.significand, rest)
      else if whole.significand == 0 || Text.limit63 < whole.significand then
        some (.float (Binary64.ofInt (Int.ofNat whole.significand)).neg, rest)
      else some (.int (-Int.ofNat whole.significand), rest)

/-- A number at the front of the text, and what follows it. -/
def readNumber : List Char → Option (Json × List Char)
  | '-' :: r => readMagnitude true r
  | cs => readMagnitude false cs

end MarketBook.Json
