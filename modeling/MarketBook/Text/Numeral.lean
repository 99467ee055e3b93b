/-
Module: MarketBook.Text.Numeral
Purpose: Whole numbers written in digits of some base, with an optional sign, within a range.
Main exports:
  limit32, limit63, limit64, isSigned64, isSigned64_iff, digits?, unsigned?, signed?, padded
-/

namespace MarketBook.Text

/-!
A numeral has at least one digit and nothing but digits behind its sign: no spaces, no separators.
A number outside the range is no numeral of that range.
-/

/-- Two to the power of 32: the numbers of 32 bits lie below it. -/
def limit32 : Nat := 4294967296

/-- Two to the power of 63: the numbers of 64 bits with sign lie below it. -/
def limit63 : Nat := 9223372036854775808

/-- Two to the power of 64: the numbers of 64 bits without sign lie below it. -/
def limit64 : Nat := 18446744073709551616

/-- A number of 64 bits with sign. -/
def isSigned64 (n : Int) : Bool :=
  -Int.ofNat limit63 ≤ n && n < Int.ofNat limit63

theorem isSigned64_iff {n : Int} :
    isSigned64 n = true ↔ -9223372036854775808 ≤ n ∧ n < 9223372036854775808 := by
  unfold isSigned64
  rw [Bool.and_eq_true, decide_eq_true_iff, decide_eq_true_iff]
  rfl

/-- The value of an ASCII digit or letter as a digit of the base. -/
def digitValue? (base : Nat) (c : Char) : Option Nat :=
  let n := c.toNat
  let v :=
    if 48 ≤ n && n ≤ 57 then n - 48
    else if 97 ≤ n && n ≤ 122 then n - 87
    else if 65 ≤ n && n ≤ 90 then n - 55
    else base
  if v < base then some v else none

/-- The digits read on from the value of those before them. -/
def digitsFrom? (base : Nat) : Nat → List Char → Option Nat
  | value, [] => some value
  | value, c :: r => (digitValue? base c).bind fun d => digitsFrom? base (value * base + d) r

/-- The value of one digit or more. -/
def digits? (base : Nat) (cs : List Char) : Option Nat :=
  if cs.isEmpty then none else digitsFrom? base 0 cs

/-- A number below the limit, with an optional plus sign. -/
def unsigned? (base limit : Nat) (cs : List Char) : Option Nat :=
  let body := match cs with
    | '+' :: r => r
    | _ => cs
  (digits? base body).filter (· < limit)

/-- A number of 64 bits, with an optional sign. -/
def signed? (base : Nat) (cs : List Char) : Option Int :=
  match cs with
  | '-' :: r => ((digits? base r).filter (· ≤ limit63)).map fun n => -Int.ofNat n
  | _ => (unsigned? base limit63 cs).map Int.ofNat

/-- A number in decimal with zeros in front up to the width. -/
def padded (width n : Nat) : String :=
  let ds := Nat.toDigits 10 n
  String.ofList (List.replicate (width - ds.length) '0' ++ ds)

end MarketBook.Text
