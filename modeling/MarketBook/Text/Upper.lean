/-
Module: MarketBook.Text.Upper
Purpose: Upper case by the full mapping, in which one letter may become several.
Main exports:
  upperCode, upperChar, upper, lowerAscii
-/
import MarketBook.Text.UpperTable

namespace MarketBook.Text

/-- The code point lies on the run. -/
def CaseRun.holds (r : CaseRun) (n : Nat) : Bool :=
  r.first ≤ n && n ≤ r.last && (n - r.first) % r.step == 0

/-- The upper case of a code point as code points. -/
def upperCode (n : Nat) : List Nat :=
  match upperRuns.find? (·.holds n) with
  | some r => [(Int.ofNat n + r.shift).toNat]
  | none =>
    match upperExpansions.find? (·.1 == n) with
    | some e => e.2
    | none => [n]

/-- The upper case of a character, which may be several characters. -/
def upperChar (c : Char) : List Char :=
  (upperCode c.toNat).map Char.ofNat

/-- The upper case of a text, character by character. -/
def upper (s : String) : String :=
  String.ofList (s.toList.flatMap upperChar)

/-- The lower case of the ASCII letters; every other character stays as it is. -/
def lowerAscii (s : String) : String :=
  String.ofList (s.toList.map Char.toLower)

end MarketBook.Text
