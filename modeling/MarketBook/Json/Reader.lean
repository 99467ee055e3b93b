/-
Module: MarketBook.Json.Reader
Purpose: JSON values read from text.
Main exports:
  Json.read?
-/
import MarketBook.Json.Number

namespace MarketBook.Json

/-!
The text holds exactly one value, with white space of the four permitted characters around its
parts.  Nothing else is tolerated: no comment, no comma before a closing bracket, no control
character inside a string, no half of a surrogate pair without the other.  Arrays and objects nest
to a depth of 127.
-/

/-- The white space between the parts of a value. -/
def isSpace (c : Char) : Bool :=
  c == ' ' || c == '\n' || c == '\t' || c == '\r'

/-- The text behind the white space at its front. -/
def skipSpace (cs : List Char) : List Char :=
  cs.dropWhile isSpace

/-- The value of four hexadecimal digits. -/
def hex4? (a b c d : Char) : Option Nat :=
  Text.digits? 16 [a, b, c, d]

/-- The character of a short escape. -/
def shortEscape? (c : Char) : Option Char :=
  if c == '"' || c == '\\' || c == '/' then some c
  else if c == 'b' then some '\x08'
  else if c == 'f' then some '\x0c'
  else if c == 'n' then some '\n'
  else if c == 'r' then some '\r'
  else if c == 't' then some '\t'
  else none

/-- The rest of a string behind its opening quote, and what follows the closing one. -/
def readChars : List Char → Option (List Char × List Char)
  | [] => none
  | '"' :: r => some ([], r)
  | '\\' :: 'u' :: a :: b :: c :: d :: r =>
    match hex4? a b c d with
    | none => none
    | some n =>
      if n < 0xD800 || 0xDFFF < n then
        (readChars r).map fun s => (Char.ofNat n :: s.1, s.2)
      else if 0xDC00 ≤ n then none
      else match r with
        | '\\' :: 'u' :: a' :: b' :: c' :: d' :: r' =>
          match hex4? a' b' c' d' with
          | none => none
          | some m =>
            if m < 0xDC00 || 0xDFFF < m then none
            else (readChars r').map fun s =>
              (Char.ofNat (0x10000 + (n - 0xD800) * 0x400 + (m - 0xDC00)) :: s.1, s.2)
        | _ => none
  | '\\' :: e :: r =>
    match shortEscape? e with
    | none => none
    | some c => (readChars r).map fun s => (c :: s.1, s.2)
  | c :: r => if c.toNat < 0x20 then none else (readChars r).map fun s => (c :: s.1, s.2)

/-- A word at the front of the text, and what follows it. -/
def expect (word : List Char) (cs : List Char) : Option (List Char) :=
  if word.isPrefixOf cs then some (cs.drop word.length) else none

mutual

/-- A value at the front of the text, within the number of levels left.  Every step takes at least
one character, so the length of the text is fuel enough. -/
def readValue : Nat → Nat → List Char → Option (Json × List Char)
  | 0, _, _ => none
  | fuel + 1, depth, cs =>
    match skipSpace cs with
    | '"' :: r => (readChars r).map fun s => (.str (String.ofList s.1), s.2)
    | '[' :: r =>
      if depth == 0 then none
      else match skipSpace r with
        | ']' :: r => some (.arr [], r)
        | _ => (readItems fuel (depth - 1) r).map fun p => (.arr p.1, p.2)
    | '\x7b' :: r =>
      if depth == 0 then none
      else match skipSpace r with
        | '\x7d' :: r => some (.obj [], r)
        | _ => (readFields fuel (depth - 1) r).map fun p => (ofFields p.1, p.2)
    | 'n' :: r => (expect ['u', 'l', 'l'] r).map fun r => (.null, r)
    | 't' :: r => (expect ['r', 'u', 'e'] r).map fun r => (.bool true, r)
    | 'f' :: r => (expect ['a', 'l', 's', 'e'] r).map fun r => (.bool false, r)
    | other => readNumber other

/-- The items of an array up to its closing bracket. -/
def readItems : Nat → Nat → List Char → Option (List Json × List Char)
  | 0, _, _ => none
  | fuel + 1, depth, cs =>
    match readValue fuel depth cs with
    | none => none
    | some (v, r) =>
      match skipSpace r with
      | ',' :: r => (readItems fuel depth r).map fun p => (v :: p.1, p.2)
      | ']' :: r => some ([v], r)
      | _ => none

/-- The fields of an object up to its closing brace. -/
def readFields : Nat → Nat → List Char → Option (List (String × Json) × List Char)
  | 0, _, _ => none
  | fuel + 1, depth, cs =>
    match skipSpace cs with
    | '"' :: r =>
      match readChars r with
      | none => none
      | some (key, r) =>
        match skipSpace r with
        | ':' :: r =>
          match readValue fuel depth r with
          | none => none
          | some (v, r) =>
            match skipSpace r with
            | ',' :: r => (readFields fuel depth r).map fun p => ((String.ofList key, v) :: p.1, p.2)
            | '\x7d' :: r => some ([(String.ofList key, v)], r)
            | _ => none
        | _ => none
    | _ => none

end

/-- How many arrays and objects may stand inside one another. -/
def maxDepth : Nat := 127

/-- The value that the characters hold. -/
def readAll? (cs : List Char) : Option Json :=
  match readValue (2 * cs.length + 2) maxDepth cs with
  | some (v, r) => if (skipSpace r).isEmpty then some v else none
  | none => none

/-- The value that a text holds. -/
def read? (s : String) : Option Json :=
  readAll? s.toList

end MarketBook.Json
