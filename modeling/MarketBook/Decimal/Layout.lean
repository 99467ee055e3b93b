/-
Module: MarketBook.Decimal.Layout
Purpose: How the digits of a number are set as text: plainly or with an exponent.
Main exports:
  Layout, Layout.render
-/
import MarketBook.Decimal.Shortest

namespace MarketBook.Decimal

/-- The choices of one written form of numbers. -/
structure Layout where
  /-- Which of two shortest texts is written that are equally near. -/
  tie : Tie
  /-- The powers of ten of the first digit, from and to, that are written without an exponent;
  none if all are. -/
  plain : Option (Int × Int)
  /-- A whole number written plainly keeps `.0`. -/
  wholeFraction : Bool
  /-- The sign in front of an exponent that is not negative. -/
  exponentPlus : String

/-- The digits with the point behind the first `whole` of them, filled up with zeros. -/
def setPoint (wholeFraction : Bool) (ds : List Char) (whole : Int) : List Char :=
  if whole ≤ 0 then '0' :: '.' :: (List.replicate (-whole).toNat '0' ++ ds)
  else
    let n := whole.toNat
    let front := ds.take n ++ List.replicate (n - ds.length) '0'
    let back := ds.drop n
    if back.isEmpty then front ++ (if wholeFraction then ['.', '0'] else [])
    else front ++ '.' :: back

/-- One digit, the others behind a point, and the power of ten of the first. -/
def setExponent (plus : String) (ds : List Char) (e : Int) : List Char :=
  let mantissa := match ds with
    | [] => ['0']
    | [d] => [d]
    | d :: r => d :: '.' :: r
  let sign := if e < 0 then ['-'] else plus.toList
  mantissa ++ 'e' :: sign ++ Nat.toDigits 10 e.natAbs

/-- The text of a finite word. -/
def Layout.render (l : Layout) (x : Binary64) : String :=
  let d := shortest l.tie x
  let ds := Nat.toDigits 10 d.digits
  let first := d.exponent + Int.ofNat ds.length - 1
  let isPlain := x.isZero || match l.plain with
    | none => true
    | some (low, high) => low ≤ first && first ≤ high
  let body := if isPlain then setPoint l.wholeFraction ds (first + 1)
    else setExponent l.exponentPlus ds first
  String.ofList (if x.negative then '-' :: body else body)

/-- Numbers inside messages never have an exponent, and whole ones no fraction; of two texts equally
near the greater is written. -/
def messageLayout : Layout := ⟨.up, none, false, ""⟩

end MarketBook.Decimal
