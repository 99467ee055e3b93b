/-
Module: MarketBook.Csv.Writer
Purpose: Comma-separated records written as text.
Main exports:
  Csv.writeField, Csv.writeRecord
-/

namespace MarketBook.Csv

/-- The character cannot stand in a field without quotes. -/
def needsQuotes (c : Char) : Bool :=
  c == ',' || c == '"' || c == '\n' || c == '\r'

/-- A quote inside a field is written twice. -/
def doubleQuote (c : Char) : List Char :=
  if c = '"' then ['"', '"'] else [c]

/-- A field, in quotes only if one of its characters needs them. -/
def writeField (s : String) : List Char :=
  if s.toList.any needsQuotes then '"' :: s.toList.flatMap doubleQuote ++ ['"'] else s.toList

/-- The fields of a record with commas between them. -/
def writeFields : List String → List Char
  | [] => []
  | [s] => writeField s
  | s :: r => writeField s ++ ',' :: writeFields r

/-- A record on a line. -/
def writeRecord (fields : List String) : List Char :=
  writeFields fields ++ ['\n']

end MarketBook.Csv
