/-
Module: MarketBook.Database.Tree
Purpose: The rows that the pages of a tree hold, in their order.
Main exports:
  Row, Image.rows?
-/
import MarketBook.Database.Record

namespace MarketBook.Database

/-!
The rows of a table are spread over the pages of a tree.  A page holds cells, and the offsets of the
cells stand behind its head.  In the tree of a table the rows stand in the leaves, and each row has
a number; in the tree of an index every cell holds a row, and none has a number.  What does not fit
into its cell goes on in a chain of further pages.
-/

/-- A row as it is stored. -/
structure Row where
  /-- The number of the row; rows without numbers have zero. -/
  number : Int
  values : List Value

/-- The kinds of pages. -/
inductive Page.Kind where
  | tableLeaf
  | tableBranch
  | indexLeaf
  | indexBranch
deriving DecidableEq

namespace Page

/-- The kind of a number. -/
def Kind.ofNat? (n : Nat) : Option Kind :=
  if n = 13 then some .tableLeaf
  else if n = 5 then some .tableBranch
  else if n = 10 then some .indexLeaf
  else if n = 2 then some .indexBranch
  else none

/-- A page of the kind has pages below it. -/
def Kind.isBranch (k : Kind) : Bool :=
  k == .tableBranch || k == .indexBranch

/-- The offset at which the head of a page starts: on the first page, behind that of the file. -/
def headOf (n : Nat) : Nat :=
  if n = 1 then Image.headSize else 0

/-- The offsets of the cells, so many of them, which are listed from an offset on. -/
def cellOffsets? (p : Page) : Nat → Nat → Option (List Nat)
  | 0, _ => some []
  | more + 1, i => do
    let offset ← p.number? i 2
    return offset :: (← cellOffsets? p more (i + 2))

end Page

namespace Image

/-- The number of octets of a payload that its cell holds itself. -/
def localSize (img : Image) (kind : Page.Kind) (size : Nat) : Nat :=
  let most :=
    if kind = .tableLeaf then img.usable - 35 else (img.usable - 12) * 64 / 255 - 23
  let least := (img.usable - 12) * 32 / 255 - 23
  let next := least + (size - least) % (img.usable - 4)
  if size ≤ most then size else if next ≤ most then next else least

/-- So many octets from a chain of pages, of which there are not more than a number. -/
def chain? (img : Image) : Nat → Nat → Nat → Option ByteArray
  | _, _, 0 => some .empty
  | 0, _, _ => none
  | most + 1, n, size => do
    let p ← img.page? n
    let here := min size (img.usable - 4)
    let front ← p.part? 4 here
    return front ++ (← img.chain? most (← p.number? 0 4) (size - here))

/-- The payload of a size that starts at an offset of a page. -/
def payload? (img : Image) (kind : Page.Kind) (p : Page) (offset size : Nat) :
    Option ByteArray := do
  let here := img.localSize kind size
  let front ← p.part? offset here
  if here = size then return front
  return front ++ (← img.chain? img.pageCount (← p.number? (offset + here) 4) (size - here))

/-- The row of a payload. -/
def row? (img : Image) (number : Int) (payload : ByteArray) : Option Row :=
  (Record.values? img.spelling payload).map (⟨number, ·⟩)

/-- The row in a cell of a page, at the offset behind the number of the page below it. -/
def cellRow? (img : Image) (kind : Page.Kind) (p : Page) (offset : Nat) : Option (List Row) := do
  match kind with
  | .tableBranch => return []
  | .tableLeaf =>
    let (size, next) ← p.varint? offset
    let (number, next) ← p.varint? next
    return [← img.row? (Record.signed 8 number) (← img.payload? kind p next size)]
  | .indexLeaf | .indexBranch =>
    let (size, next) ← p.varint? offset
    return [← img.row? 0 (← img.payload? kind p next size)]

/-- The rows of the tree below a page; no page is more than so many levels from a leaf. -/
def rowsBelow? (img : Image) : Nat → Nat → Option (List Row)
  | 0, _ => none
  | levels + 1, n => do
    let p ← img.page? n
    let head := Page.headOf n
    let kind ← Page.Kind.ofNat? (← p.octet? head)
    let count ← p.number? (head + 3) 2
    if kind.isBranch then
      let offsets ← p.cellOffsets? count (head + 12)
      let front ← offsets.mapM fun offset => do
        let below ← img.rowsBelow? levels (← p.number? offset 4)
        return below ++ (← img.cellRow? kind p (offset + 4))
      let last ← img.rowsBelow? levels (← p.number? (head + 8) 4)
      return front.flatten ++ last
    else
      let offsets ← p.cellOffsets? count (head + 8)
      return (← offsets.mapM (img.cellRow? kind p)).flatten

/-- The most levels of a tree. -/
def mostLevels : Nat := 20

/-- The rows of the tree that starts at a page. -/
def rows? (img : Image) (root : Nat) : Option (List Row) :=
  img.rowsBelow? mostLevels root

end Image

end MarketBook.Database
