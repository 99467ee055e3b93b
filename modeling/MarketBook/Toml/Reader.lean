/-
Module: MarketBook.Toml.Reader
Purpose: Flat documents of keys with texts and whole numbers, as settings files are.
Main exports:
  Toml.Value, Toml.read?
-/
import MarketBook.Text.Numeral

namespace MarketBook.Toml

open Text

/-!
A document is a sequence of lines, each with a key and a value, a comment, or nothing.  Keys are
bare or quoted; no key stands twice.  Values are texts, in quotes of either kind and on one line or
several, and whole numbers in decimal, hexadecimal, octal or binary.  The line ends inside a text
stay as they are written.  A document with anything else in it, tables and values of other kinds
included, is refused.
-/

/-- A value of a document. -/
inductive Value where
  | text (s : String)
  | integer (n : Int)
deriving DecidableEq

/-- A space or a tab. -/
def isGap (c : Char) : Bool :=
  c == ' ' || c == '\t'

/-- A character that texts and comments may hold as it is, line ends aside. -/
def isOrdinary (c : Char) : Bool :=
  c == '\t' || (0x20 ≤ c.toNat && c.toNat != 0x7F)

/-- The characters behind spaces and tabs. -/
def skipGap (cs : List Char) : List Char :=
  cs.dropWhile isGap

/-- The characters behind a line end, which has to be there. -/
def lineEnd? : List Char → Option (List Char)
  | '\n' :: r => some r
  | '\r' :: '\n' :: r => some r
  | _ => none

/-- A character of a bare key. -/
def isBare (c : Char) : Bool :=
  c.isAlphanum || c == '_' || c == '-'

/-- The character of a code point written in hexadecimal; halves of surrogate pairs are none. -/
def charOfHex? (ds : List Char) : Option Char :=
  (digits? 16 ds).bind fun n =>
    if n < 0xD800 || (0xDFFF < n && n < 0x110000) then some (Char.ofNat n) else none

/-- The character of an escape of one letter. -/
def shortEscape? (c : Char) : Option Char :=
  if c == '"' || c == '\\' then some c
  else if c == 'b' then some '\x08'
  else if c == 'e' then some '\x1b'
  else if c == 't' then some '\t'
  else if c == 'n' then some '\n'
  else if c == 'f' then some '\x0c'
  else if c == 'r' then some '\r'
  else none

/-- A character in front of the rest of a text. -/
def andThen (c : Char) (r : Option (List Char × List Char)) : Option (List Char × List Char) :=
  r.map fun s => (c :: s.1, s.2)

/-- The rest of a text with escapes on one line, and what follows its closing quote. -/
def readBasic : List Char → Option (List Char × List Char)
  | [] => none
  | '"' :: r => some ([], r)
  | '\\' :: 'x' :: a :: b :: r => (charOfHex? [a, b]).bind fun x => andThen x (readBasic r)
  | '\\' :: 'u' :: a :: b :: c :: d :: r =>
    (charOfHex? [a, b, c, d]).bind fun x => andThen x (readBasic r)
  | '\\' :: 'U' :: a :: b :: c :: d :: e :: f :: g :: h :: r =>
    (charOfHex? [a, b, c, d, e, f, g, h]).bind fun x => andThen x (readBasic r)
  | '\\' :: e :: r => (shortEscape? e).bind fun x => andThen x (readBasic r)
  | c :: r => if isOrdinary c then andThen c (readBasic r) else none

/-- The rest of a text without escapes on one line, and what follows its closing quote. -/
def readLiteral : List Char → Option (List Char × List Char)
  | [] => none
  | '\'' :: r => some ([], r)
  | c :: r => if isOrdinary c then andThen c (readLiteral r) else none

/-- The rest of a text with escapes on several lines.  While `folding`, spaces and line ends are
passed over: a backslash at the end of a line joins it to the next text. -/
def readBasicLines (folding : Bool) : List Char → Option (List Char × List Char)
  | [] => none
  | '"' :: '"' :: '"' :: '"' :: '"' :: r => some (['"', '"'], r)
  | '"' :: '"' :: '"' :: '"' :: r => some (['"'], r)
  | '"' :: '"' :: '"' :: r => some ([], r)
  | '\\' :: 'x' :: a :: b :: r =>
    (charOfHex? [a, b]).bind fun x => andThen x (readBasicLines false r)
  | '\\' :: 'u' :: a :: b :: c :: d :: r =>
    (charOfHex? [a, b, c, d]).bind fun x => andThen x (readBasicLines false r)
  | '\\' :: 'U' :: a :: b :: c :: d :: e :: f :: g :: h :: r =>
    (charOfHex? [a, b, c, d, e, f, g, h]).bind fun x => andThen x (readBasicLines false r)
  | '\\' :: e :: r =>
    if (lineEnd? (skipGap (e :: r))).isSome then
      if e == '\n' || isGap e || e == '\r' then readBasicLines true r else none
    else (shortEscape? e).bind fun x => andThen x (readBasicLines false r)
  | '\r' :: '\n' :: r =>
    if folding then readBasicLines true r
    else andThen '\r' (andThen '\n' (readBasicLines false r))
  | c :: r =>
    if c == '\n' || isGap c then
      if folding then readBasicLines true r else andThen c (readBasicLines false r)
    else if isOrdinary c then andThen c (readBasicLines false r)
    else none

/-- The rest of a text without escapes on several lines. -/
def readLiteralLines : List Char → Option (List Char × List Char)
  | [] => none
  | '\'' :: '\'' :: '\'' :: '\'' :: '\'' :: r => some (['\'', '\''], r)
  | '\'' :: '\'' :: '\'' :: '\'' :: r => some (['\''], r)
  | '\'' :: '\'' :: '\'' :: r => some ([], r)
  | '\r' :: '\n' :: r => andThen '\r' (andThen '\n' (readLiteralLines r))
  | c :: r => if c == '\n' || isOrdinary c then andThen c (readLiteralLines r) else none

/-- The characters behind the line end that may follow the opening quotes of several lines. -/
def skipFirstLineEnd (cs : List Char) : List Char :=
  (lineEnd? cs).getD cs

/-- The digits of a number without the single underscores that may stand between two of them. -/
def groupedDigits? : List Char → Option (List Char)
  | [] => none
  | [c] => if c == '_' then none else some [c]
  | c :: '_' :: r => if c == '_' then none else (groupedDigits? r).map (c :: ·)
  | c :: r => if c == '_' then none else (groupedDigits? r).map (c :: ·)

/-- The value of grouped digits of a base. -/
def grouped? (base : Nat) (cs : List Char) : Option Nat :=
  (groupedDigits? cs).bind (digits? base)

/-- A number in decimal, which does not start with a zero before another digit. -/
def decimal? (cs : List Char) : Option Nat :=
  if cs.head? == some '0' && cs.length != 1 then none else grouped? 10 cs

/-- A whole number; only one in decimal may have a sign. -/
def integer? : List Char → Option Int
  | '0' :: 'x' :: r => (grouped? 16 r).map Int.ofNat
  | '0' :: 'o' :: r => (grouped? 8 r).map Int.ofNat
  | '0' :: 'b' :: r => (grouped? 2 r).map Int.ofNat
  | '-' :: r => (decimal? r).map fun n => -Int.ofNat n
  | '+' :: r => (decimal? r).map Int.ofNat
  | cs => (decimal? cs).map Int.ofNat

/-- A character of a number. -/
def isNumberChar (c : Char) : Bool :=
  isBare c || c == '+' || c == '.' || c == ':'

/-- The text of read characters. -/
def asText (s : List Char × List Char) : Value × List Char :=
  (.text (String.ofList s.1), s.2)

/-- A value at the front, and what follows it. -/
def readValue : List Char → Option (Value × List Char)
  | '"' :: '"' :: '"' :: r => (readBasicLines false (skipFirstLineEnd r)).map asText
  | '"' :: r => (readBasic r).map asText
  | '\'' :: '\'' :: '\'' :: r => (readLiteralLines (skipFirstLineEnd r)).map asText
  | '\'' :: r => (readLiteral r).map asText
  | cs => (integer? (cs.takeWhile isNumberChar)).map fun n => (.integer n, cs.dropWhile isNumberChar)

/-- A key at the front, and what follows it. -/
def readKey : List Char → Option (String × List Char)
  | '"' :: r => (readBasic r).map fun s => (String.ofList s.1, s.2)
  | '\'' :: r => (readLiteral r).map fun s => (String.ofList s.1, s.2)
  | cs =>
    let key := cs.takeWhile isBare
    if key.isEmpty then none else some (String.ofList key, cs.dropWhile isBare)

/-- What follows a line: a comment may stand at its end. -/
def endLine? (cs : List Char) : Option (List Char) :=
  let r := match skipGap cs with
    | '#' :: r => r.dropWhile isOrdinary
    | r => r
  if r.isEmpty then some [] else lineEnd? r

/-- A key with its value, and what follows the line. -/
def readPair (cs : List Char) : Option ((String × Value) × List Char) := do
  let (key, r) ← readKey cs
  match skipGap r with
  | '=' :: r =>
    let (value, r) ← readValue (skipGap r)
    return ((key, value), ← endLine? r)
  | _ => none

/-- The lines of a document.  Every line takes at least one character, so the length of the text is
fuel enough. -/
def readLines : Nat → List Char → Option (List (String × Value))
  | 0, _ => none
  | fuel + 1, cs =>
    let r := skipGap cs
    if r.isEmpty then some []
    else match endLine? r with
      | some rest => if rest.isEmpty then some [] else readLines fuel rest
      | none => do
        let (pair, rest) ← readPair r
        return pair :: (← readLines fuel rest)

/-- No key stands twice. -/
def hasDistinctKeys : List (String × Value) → Bool
  | [] => true
  | p :: r => !r.any (·.1 == p.1) && hasDistinctKeys r

/-- The keys and values of a document, a byte order mark at its start left aside. -/
def read? (s : String) : Option (List (String × Value)) :=
  let cs := match s.toList with
    | '\uFEFF' :: r => r
    | cs => cs
  (readLines (cs.length + 1) cs).filter hasDistinctKeys

end MarketBook.Toml
