/-
Module: MarketBook.Text.Quoted
Purpose: A text between double quotes, with every character that could mislead a reader spelled out.
Main exports:
  isInvisible, spell, quoted
-/
import MarketBook.Text.InvisibleTable

namespace MarketBook.Text

/-- The character has no mark of its own and has to be spelled out. -/
def isInvisible (c : Char) : Bool :=
  invisibleRanges.any fun r => r.1 ≤ c.toNat && c.toNat ≤ r.2

/-- A code point in lower-case hexadecimal, without padding, between braces. -/
def spellCode (c : Char) : List Char :=
  ['\\', 'u', '\x7b'] ++ Nat.toDigits 16 c.toNat ++ ['\x7d']

/-- How one character stands inside quotes. -/
def spell (c : Char) : List Char :=
  if c = '"' then ['\\', '"']
  else if c = '\\' then ['\\', '\\']
  else if c = '\n' then ['\\', 'n']
  else if c = '\r' then ['\\', 'r']
  else if c = '\t' then ['\\', 't']
  else if c.toNat = 0 then ['\\', '0']
  else if isInvisible c then spellCode c
  else [c]

/-- The text between double quotes. -/
def quoted (s : String) : String :=
  String.ofList ('"' :: s.toList.flatMap spell ++ ['"'])

end MarketBook.Text
