/-
Module: MarketBook.Calendar.Holiday
Purpose: Holidays given as dates: each closes the market for that day of UTC.
Main exports:
  Holiday.readDate?, Holiday.closures
-/
import MarketBook.Calendar.Closure
import MarketBook.Text.Blank
import MarketBook.Time.Civil

namespace MarketBook.Holiday

open Text Time

/-!
A date is a year, a month and a day with dashes between them.  White space may stand before each of
the three numbers.  A year without sign has four digits at most; one with a sign may have any
number.  Month and day have one or two digits.
-/

/-- Up to a number of digits at the front, at least one, and what follows them. -/
def leadingDigits? (most : Nat) (cs : List Char) : Option (Nat × List Char) :=
  let ds := (cs.take most).takeWhile Char.isDigit
  (digits? 10 ds).map fun n => (n, cs.drop ds.length)

/-- A number without sign, behind white space. -/
def readNumber? (most : Nat) (cs : List Char) : Option (Nat × List Char) :=
  leadingDigits? most (cs.dropWhile isBlank)

/-- A year, behind white space. -/
def readYear? (cs : List Char) : Option (Int × List Char) :=
  match cs.dropWhile isBlank with
  | '-' :: r => (leadingDigits? r.length r).map fun p => (-Int.ofNat p.1, p.2)
  | '+' :: r => (leadingDigits? r.length r).map fun p => (Int.ofNat p.1, p.2)
  | r => (leadingDigits? 4 r).map fun p => (Int.ofNat p.1, p.2)

/-- The text behind a dash. -/
def skipDash? : List Char → Option (List Char)
  | '-' :: r => some r
  | _ => none

/-- The years that a date may have. -/
def isYearInRange (year : Int) : Bool :=
  -262143 ≤ year && year ≤ 262142

/-- The day that a text names, white space around it left aside. -/
def readDate? (raw : String) : Option Int := do
  let (year, r) ← readYear? (trimChars raw.toList)
  let r ← skipDash? r
  let (month, r) ← readNumber? 2 r
  let r ← skipDash? r
  let (day, r) ← readNumber? 2 r
  let date : CivilDate := ⟨year, Int.ofNat month, Int.ofNat day⟩
  if r.isEmpty && isYearInRange year && date.isValid then some date.toDay else none

/-- The window of a whole day of UTC. -/
def wholeDay (day : Int) : Closure :=
  ⟨day * dayMs, day * dayMs + dayMs⟩

/-- The windows of dates, counted from an index on. -/
def closuresFrom : Nat → List String → Outcome (List Closure)
  | _, [] => .ok []
  | index, raw :: r =>
    match readDate? raw with
    | some day => do return wholeDay day :: (← closuresFrom (index + 1) r)
    | none => misused (.notDate index raw)

/-- The windows of dates, in the order given. -/
def closures (dates : List String) : Outcome (List Closure) :=
  closuresFrom 0 dates

end MarketBook.Holiday
