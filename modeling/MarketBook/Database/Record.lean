/-
Module: MarketBook.Database.Record
Purpose: The values of a row as they are stored.
Main exports:
  Value, Record.values?
-/
import MarketBook.Database.Image

namespace MarketBook.Database

open Text

/-!
A record starts with a list of kinds, one for each value, and the values follow in the same order.
The list starts with its own size.  A kind says what sort of value it is and how many octets it
takes.
-/

/-- A stored value. -/
inductive Value where
  | null
  | int (n : Int)
  | text (s : String)
  /-- A number with a fraction, or octets that are not text. -/
  | other
deriving DecidableEq

namespace Record

/-- The number of octets that a value of a kind takes. -/
def widthOf (kind : Nat) : Nat :=
  if 12 ≤ kind then (kind - 12) / 2
  else [0, 1, 2, 3, 4, 6, 8, 8].getD kind 0

/-- The number of octets with sign. -/
def signed (width n : Nat) : Int :=
  let range := Nat.pow 256 width
  if 2 * n < range then Int.ofNat n else Int.ofNat n - Int.ofNat range

/-- The value of a kind in the octets that it takes. -/
def valueOf (spelling : Spelling) (kind : Nat) (octets : ByteArray) : Value :=
  if kind = 0 then .null
  else if kind ≤ 6 then
    let width := widthOf kind
    (Page.number? octets 0 width).elim .other fun n => .int (signed width n)
  else if kind = 8 then .int 0
  else if kind = 9 then .int 1
  else if 13 ≤ kind ∧ kind % 2 = 1 then (spelling.text? octets.toList).elim .other .text
  else .other

/-- The kinds from an offset on up to the end of their list, which holds at most so many. -/
def kinds? (record : ByteArray) (stop : Nat) : Nat → Nat → Option (List Nat)
  | 0, i => if i = stop then some [] else none
  | most + 1, i =>
    if i = stop then some []
    else if stop < i then none
    else do
      let (kind, next) ← Page.varint? record i
      return kind :: (← kinds? record stop most next)

/-- The values of kinds from an offset on. -/
def valuesFrom? (spelling : Spelling) (record : ByteArray) : Nat → List Nat → Option (List Value)
  | _, [] => some []
  | i, kind :: rest => do
    let width := widthOf kind
    let octets ← Page.part? record i width
    return valueOf spelling kind octets :: (← valuesFrom? spelling record (i + width) rest)

/-- The values of a record. -/
def values? (spelling : Spelling) (record : ByteArray) : Option (List Value) := do
  let (stop, first) ← Page.varint? record 0
  let kinds ← kinds? record stop stop first
  valuesFrom? spelling record stop kinds

end Record

end MarketBook.Database
