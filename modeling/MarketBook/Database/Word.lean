/-
Module: MarketBook.Database.Word
Purpose: The words of the statements in which a database keeps its definitions.
Main exports:
  Word, Word.ofText, Word.name?, Word.split
-/
import MarketBook.Text.Upper

namespace MarketBook.Database

open Text

/-!
A statement is a sequence of words and marks.  A name may stand in double quotes, backticks or
brackets, and a text in single quotes; a closing quote that is written twice stands for itself.
Remarks run from two dashes to the end of the line, or stand between a slash with a star and a star
with a slash.
-/

/-- A part of a statement. -/
inductive Word where
  /-- Letters and digits as they stand: a keyword, a name or a number. -/
  | bare (text : String)
  /-- A name or a text between quotes. -/
  | quoted (text : String)
  /-- Any other character. -/
  | mark (c : Char)
deriving DecidableEq

namespace Word

/-- The character can stand in a bare word. -/
def isBare (c : Char) : Bool :=
  c.isAlphanum || c == '_' || c == '$' || 128 ≤ c.toNat

/-- The character separates words. -/
def isSpace (c : Char) : Bool :=
  c == ' ' || c == '\t' || c == '\n' || c == '\r' || c == '\x0c'

/-- The quote that closes what a character opens. -/
def closing? (c : Char) : Option Char :=
  if c = '"' ∨ c = '\x60' ∨ c = '\x27' then some c
  else if c = '[' then some ']'
  else none

/-- The text up to a closing quote, and what stands behind it. -/
def untilQuote (close : Char) : List Char → List Char × List Char
  | [] => ([], [])
  | [c] => if c = close then ([], []) else ([c], [])
  | c :: d :: r =>
    if c ≠ close then
      let (text, rest) := untilQuote close (d :: r)
      (c :: text, rest)
    else if d = close ∧ close ≠ ']' then
      let (text, rest) := untilQuote close r
      (c :: text, rest)
    else ([], d :: r)

/-- What stands behind a remark of several lines. -/
def behindRemark : List Char → List Char
  | [] => []
  | '*' :: '/' :: r => r
  | _ :: r => behindRemark r

/-- The words of characters, at most so many. -/
def read : Nat → List Char → List Word
  | 0, _ => []
  | _, [] => []
  | most + 1, c :: r =>
    if isSpace c then read most r
    else if c = '-' ∧ r.head? = some '-' then read most (r.dropWhile (· ≠ '\n'))
    else if c = '/' ∧ r.head? = some '*' then read most (behindRemark (r.drop 1))
    else if isBare c then
      .bare (String.ofList (c :: r.takeWhile isBare)) :: read most (r.dropWhile isBare)
    else match closing? c with
      | some close =>
        let (text, rest) := untilQuote close r
        .quoted (String.ofList text) :: read most rest
      | none => .mark c :: read most r

/-- The words of a statement. -/
def ofText (s : String) : List Word :=
  read s.length s.toList

/-- The word is a keyword; letters count in either case. -/
def isKeyword (keyword : String) : Word → Bool
  | .bare text => lowerAscii text == keyword
  | _ => false

/-- The name that a word is, in lower case, because names count in either case. -/
def name? : Word → Option String
  | .bare text | .quoted text => some (lowerAscii text)
  | .mark _ => none

/-- The words inside the parentheses that are open, so many of them, and what stands behind. -/
def inside : Nat → List Word → List Word × List Word
  | _, [] => ([], [])
  | depth, w :: r =>
    if w = .mark ')' then
      match depth with
      | 0 => ([], r)
      | depth + 1 => let (words, rest) := inside depth r; (w :: words, rest)
    else
      let (words, rest) := inside (if w = .mark '(' then depth + 1 else depth) r
      (w :: words, rest)

/-- The words inside the first parentheses, and what stands behind them. -/
def group (words : List Word) : List Word × List Word :=
  inside 0 ((words.dropWhile (· ≠ .mark '(')).drop 1)

/-- The pieces between the commas that stand in no parentheses. -/
def splitAt : Nat → List Word → List (List Word)
  | _, [] => [[]]
  | depth, w :: r =>
    if w = .mark ',' ∧ depth = 0 then [] :: splitAt depth r
    else
      let depth :=
        if w = .mark '(' then depth + 1 else if w = .mark ')' then depth - 1 else depth
      match splitAt depth r with
      | [] => [[w]]
      | piece :: pieces => (w :: piece) :: pieces

/-- The pieces of a list of words. -/
def split (words : List Word) : List (List Word) :=
  splitAt 0 words

/-- The words that stand in no parentheses. -/
def outside : Nat → List Word → List Word
  | _, [] => []
  | depth, w :: r =>
    if w = .mark '(' then outside (depth + 1) r
    else if w = .mark ')' then outside (depth - 1) r
    else if depth = 0 then w :: outside depth r
    else outside depth r

/-- Two keywords stand one behind the other. -/
def hasPair (first second : String) : List Word → Bool
  | a :: b :: r => (a.isKeyword first && b.isKeyword second) || hasPair first second (b :: r)
  | _ => false

end Word

end MarketBook.Database
