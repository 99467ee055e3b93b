/-
Module: MarketBook.Json.Printer
Purpose: JSON values written as text, on one line or indented.
Main exports:
  Json.compact, Json.pretty
-/
import MarketBook.Decimal.Layout
import MarketBook.Json.Basic

namespace MarketBook.Json

open Decimal

/-- Numbers in JSON: plain from `0.00001` up to sixteen places before the point, always with a
fraction; otherwise with an exponent that has its sign. -/
def numberLayout : Layout := ⟨.even, some (-5, 15), true, "+"⟩

/-- The escape of a control character that has no short one. -/
def controlEscape (c : Char) : List Char :=
  let ds := Nat.toDigits 16 c.toNat
  ['\\', 'u'] ++ List.replicate (4 - ds.length) '0' ++ ds

/-- How one character stands inside a string: everything from the space on is written as it is, the
quote and the backslash apart. -/
def escapeChar (c : Char) : List Char :=
  if c = '"' then ['\\', '"']
  else if c = '\\' then ['\\', '\\']
  else if c = '\n' then ['\\', 'n']
  else if c = '\r' then ['\\', 'r']
  else if c = '\t' then ['\\', 't']
  else if c.toNat = 8 then ['\\', 'b']
  else if c.toNat = 12 then ['\\', 'f']
  else if c.toNat < 32 then controlEscape c
  else [c]

/-- A string with its quotes. -/
def stringText (s : String) : String :=
  String.ofList ('"' :: s.toList.flatMap escapeChar ++ ['"'])

/-- A value that is neither array nor object. -/
def scalarText : Json → String
  | .null => "null"
  | .bool b => if b then "true" else "false"
  | .int n => toString n
  | .float x => numberLayout.render x
  | .str s => stringText s
  | .arr _ => "[]"
  | .obj _ => "\x7b\x7d"

mutual

/-- The value on one line without spaces. -/
def compact : Json → String
  | .arr items => "[" ++ String.intercalate "," (compactItems items) ++ "]"
  | .obj fields => "\x7b" ++ String.intercalate "," (compactFields fields) ++ "\x7d"
  | j => scalarText j

/-- The items of an array, each on one line. -/
def compactItems : List Json → List String
  | [] => []
  | j :: r => compact j :: compactItems r

/-- The fields of an object, each on one line. -/
def compactFields : List (String × Json) → List String
  | [] => []
  | f :: r => compactField f :: compactFields r

/-- A field: its key, a colon and its value. -/
def compactField : String × Json → String
  | (k, j) => stringText k ++ ":" ++ compact j

end

/-- A line break and two spaces for every level. -/
def lineAt (level : Nat) : String :=
  String.ofList ('\n' :: List.replicate (2 * level) ' ')

/-- Parts on lines of their own between two brackets; nothing between the brackets of no parts. -/
def block (opening closing : String) (level : Nat) (parts : List String) : String :=
  if parts.isEmpty then opening ++ closing
  else opening ++ lineAt (level + 1) ++ String.intercalate ("," ++ lineAt (level + 1)) parts ++
    lineAt level ++ closing

mutual

/-- The value with every item and field on a line of its own, at a level of indentation. -/
def prettyAt (level : Nat) : Json → String
  | .arr items => block "[" "]" level (prettyItems (level + 1) items)
  | .obj fields => block "\x7b" "\x7d" level (prettyFields (level + 1) fields)
  | j => scalarText j

/-- The items of an array at a level of indentation. -/
def prettyItems (level : Nat) : List Json → List String
  | [] => []
  | j :: r => prettyAt level j :: prettyItems level r

/-- The fields of an object at a level of indentation. -/
def prettyFields (level : Nat) : List (String × Json) → List String
  | [] => []
  | f :: r => prettyField level f :: prettyFields level r

/-- A field at a level of indentation, with a space behind its colon. -/
def prettyField (level : Nat) : String × Json → String
  | (k, j) => stringText k ++ ": " ++ prettyAt level j

end

/-- The value indented by two spaces for every level. -/
def pretty (j : Json) : String :=
  prettyAt 0 j

end MarketBook.Json
