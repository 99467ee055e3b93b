/-
Module: MarketBook.Text.Utf16
Purpose: Texts as units of sixteen bits.
Main exports:
  Units.ofOctets?, Units.text?
-/
import MarketBook.Text.Utf8

namespace MarketBook.Text

/-!
A character above U+FFFF is two units: one from the upper half of a range that holds no characters,
then one from the lower half.  A unit of that range without its partner spells nothing.
-/

/-- Units of sixteen bits. -/
abbrev Units := List Nat

namespace Units

/-- The units of octets, two octets each; the first octet counts more if `bigFirst` says so. -/
def ofOctets? (bigFirst : Bool) : Octets → Option Units
  | [] => some []
  | [_] => none
  | a :: b :: r =>
    let unit := if bigFirst then a.toNat * 256 + b.toNat else b.toNat * 256 + a.toNat
    (ofOctets? bigFirst r).map (unit :: ·)

/-- The unit is the first of two. -/
def isLeading (n : Nat) : Bool := 0xD800 ≤ n && n < 0xDC00

/-- The unit is the second of two. -/
def isTrailing (n : Nat) : Bool := 0xDC00 ≤ n && n < 0xE000

/-- The characters that units spell. -/
def chars? : Units → Option (List Char)
  | [] => some []
  | a :: r =>
    if isLeading a then
      match r with
      | b :: r =>
        if isTrailing b then
          (chars? r).map (Char.ofNat ((a - 0xD800) * 1024 + (b - 0xDC00) + 0x10000) :: ·)
        else none
      | [] => none
    else if isTrailing a then none
    else (chars? r).map (Char.ofNat a :: ·)

/-- The text that units spell. -/
def text? (units : Units) : Option String :=
  (chars? units).map String.ofList

end Units

end MarketBook.Text
