/-
Module: MarketBook.Csv.Reader
Purpose: Comma-separated records read from octets.
Main exports:
  Csv.Field, Csv.records, Csv.texts?
-/
import MarketBook.Text.Utf8

namespace MarketBook.Csv

open Text

/-!
A record ends at a line feed, a carriage return, or both.  Empty lines hold no record.  A quote
counts only at the start of a field: from there to the next single quote commas and line ends are
text, and a quote written twice is one.  What stands between the closing quote and the end of the
field is appended as it is, and a field that is never closed goes on to the end of the file.

All of this is decided octet by octet, because every mark is a single octet.  Only a whole field is
read as text, so a closing quote may stand between the octets of one character.
-/

/-- The octets of a field. -/
abbrev Field := Octets

/-- The mark between two fields. -/
def comma : UInt8 := Char.toUInt8 ','

/-- The mark around a field. -/
def quote : UInt8 := Char.toUInt8 '"'

/-- Where the reader stands. -/
inductive Position where
  | recordStart
  | fieldStart
  | bare
  | inQuotes
  | behindQuote
deriving DecidableEq

/-- The octet ends a record. -/
def isLineEnd (b : UInt8) : Bool :=
  b == Char.toUInt8 '\n' || b == Char.toUInt8 '\r'

/-- The records from a position on.  `field` holds the octets of the present field and `fields` the
fields of the present record before it, both in reverse. -/
def recordsFrom (p : Position) (field : Field) (fields : List Field) :
    Octets → List (List Field)
  | [] => if p = .recordStart then [] else [(field.reverse :: fields).reverse]
  | b :: rest =>
    if p = .inQuotes then
      if b = quote then recordsFrom .behindQuote field fields rest
      else recordsFrom .inQuotes (b :: field) fields rest
    else if p = .behindQuote ∧ b = quote then recordsFrom .inQuotes (b :: field) fields rest
    else if isLineEnd b then
      if p = .recordStart then recordsFrom .recordStart [] [] rest
      else (field.reverse :: fields).reverse :: recordsFrom .recordStart [] [] rest
    else if b = comma then recordsFrom .fieldStart [] (field.reverse :: fields) rest
    else if b = quote ∧ (p = .recordStart ∨ p = .fieldStart) then
      recordsFrom .inQuotes field fields rest
    else recordsFrom .bare (b :: field) fields rest

/-- The octets without a byte order mark at their start. -/
def skipMark : Octets → Octets
  | 0xEF :: 0xBB :: 0xBF :: r => r
  | bs => bs

/-- The records of the content of a file. -/
def records (content : Octets) : List (List Field) :=
  recordsFrom .recordStart [] [] (skipMark content)

/-- The texts of a record, if every field is text. -/
def texts? (record : List Field) : Option (List String) :=
  record.mapM decode?

end MarketBook.Csv
