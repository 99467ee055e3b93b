/-
Module: MarketBook.Database.Image
Purpose: The octets of a database file as pages, by what the head of the file says.
Main exports:
  Image, Image.ofOctets?, Image.page?, Page.number?, Page.varint?
-/
import MarketBook.Text.Utf16

namespace MarketBook.Database

open Text

/-!
A database is a file of pages of one size, which are counted from one.  The first page starts with a
head of a hundred octets: a line that names the format, the size of the pages, the versions that a
reader and a writer have to know, the number of pages and the spelling of texts.  Numbers have their
greatest octet first.
-/

/-- The octets of a page, or of the head of a file. -/
abbrev Page := ByteArray

namespace Page

/-- The number in one octet or more from an offset on. -/
def number? (p : Page) : Nat → Nat → Option Nat
  | _, 0 => some 0
  | i, width + 1 => do
    let front ← p[i]?
    let rest ← number? p (i + 1) width
    return front.toNat * Nat.pow 256 width + rest

/-- The number in an octet. -/
def octet? (p : Page) (i : Nat) : Option Nat :=
  p.number? i 1

/-- A number of seven bits an octet, of which all but the last have the greatest bit set, and the
offset behind it.  After so many octets more one of eight bits ends the number. -/
def varintFrom? (p : Page) : Nat → Nat → Nat → Option (Nat × Nat)
  | 0, i, value => (p.octet? i).map fun b => (value * 256 + b, i + 1)
  | more + 1, i, value => do
    let b ← p.octet? i
    if b < 128 then return (value * 128 + b, i + 1)
    else varintFrom? p more (i + 1) (value * 128 + (b - 128))

/-- A number of up to nine octets and the offset behind it. -/
def varint? (p : Page) (i : Nat) : Option (Nat × Nat) :=
  p.varintFrom? 8 i 0

/-- A part of the page that lies within it. -/
def part? (p : Page) (offset size : Nat) : Option ByteArray :=
  if offset + size ≤ p.size then some (p.extract offset (offset + size)) else none

end Page

/-- How texts are spelled. -/
inductive Spelling where
  | octets
  /-- Units of sixteen bits. -/
  | units (bigFirst : Bool)
deriving DecidableEq

/-- The text of octets. -/
def Spelling.text? (octets : Octets) : Spelling → Option String
  | .octets => decode? octets
  | .units bigFirst => (Units.ofOctets? bigFirst octets).bind Units.text?

/-- A database by the head of its file. -/
structure Image where
  content : ByteArray
  pageSize : Nat
  /-- The octets of a page that are in use; what is behind them is left to others. -/
  usable : Nat
  pageCount : Nat
  spelling : Spelling
  /-- The users of the file keep a log of recent writes. -/
  keepsLog : Bool
  /-- What the head says of free pages and of the last tree can be true, so that there can be
  further trees. -/
  canGrow : Bool

namespace Image

/-- The octets of the line that names the format. -/
def formatName : Octets :=
  encode "SQLite format 3" ++ [0]

/-- The size of the head. -/
def headSize : Nat := 100

/-- The sizes that pages may have. -/
def pageSizes : List Nat := [512, 1024, 2048, 4096, 8192, 16384, 32768, 65536]

/-- The fewest octets of a page that have to be in use. -/
def leastUsable : Nat := 480

/-- The greatest version of each kind that is known. -/
def greatestVersion : Nat := 2

/-- The version in which users keep a log. -/
def logVersion : Nat := 2

/-- The greatest format of the schema that is known. -/
def greatestSchemaFormat : Nat := 4

/-- The octets, filled up with zeros. -/
def filled (octets : ByteArray) (size : Nat) : Page :=
  octets ++ ⟨(List.replicate (size - octets.size) 0).toArray⟩

/-- The spelling of a number. -/
def spellingOf (n : Nat) : Spelling :=
  if n % 4 = 2 then .units false
  else if n % 4 = 3 then .units true
  else .octets

/-- The number of pages of a file that would have so many by its size.  The number in the head
counts if it was written with the last change. -/
def countOf (bySize inHead change validFor : Nat) : Nat :=
  if inHead = 0 ∨ change ≠ validFor then bySize else inHead

/-- The database in the octets of a file, if their head is sound. -/
def ofOctets? (octets : Octets) : Option Image := do
  let content := octets.toByteArray
  let head : Page := filled (content.extract 0 headSize) headSize
  if (head.extract 0 formatName.length).toList ≠ formatName then none
  let pageSize := (← head.octet? 16) * 256 + (← head.octet? 17) * 65536
  if !pageSizes.contains pageSize then none
  let writeVersion ← head.octet? 18
  let readVersion ← head.octet? 19
  if greatestVersion < writeVersion ∨ greatestVersion < readVersion then none
  let usable := pageSize - (← head.octet? 20)
  if usable < leastUsable then none
  if (head.extract 21 24).toList ≠ [64, 32, 32] then none
  let bySize := (content.size + pageSize - 1) / pageSize
  let pageCount := countOf bySize (← head.number? 28 4) (← head.number? 24 4) (← head.number? 92 4)
  if bySize < pageCount then none
  if greatestSchemaFormat < (← head.number? 44 4) % 256 then none
  return {
    content := content
    pageSize := pageSize
    usable := usable
    pageCount := pageCount
    spelling := spellingOf (← head.number? 56 4)
    keepsLog := readVersion == logVersion
    canGrow := (← head.number? 36 4) < pageCount && (← head.number? 52 4) ≤ pageCount }

/-- The octets in use of a page by its number.  What a file lacks of its last page counts as
zeros. -/
def page? (img : Image) (n : Nat) : Option Page :=
  if n = 0 ∨ img.pageCount < n then none
  else
    let start := (n - 1) * img.pageSize
    some (filled (img.content.extract start (start + img.usable)) img.usable)

end Image

end MarketBook.Database
