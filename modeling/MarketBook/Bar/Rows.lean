/-
Module: MarketBook.Bar.Rows
Purpose: Rows of bars in the order of their open times: merging, trimming and the order itself.
Main exports:
  Rows.put, Rows.merge, Rows.trim, Rows.requireAscending
-/
import MarketBook.Bar.Basic

namespace MarketBook.Rows

/-- A row among rows in ascending order: it takes the place of a row with its open time, or else
its place between the others. -/
def put (b : Bar) : List Bar → List Bar
  | [] => [b]
  | r :: rest =>
    if b.openTime < r.openTime then b :: r :: rest
    else if b.openTime = r.openTime then b :: rest
    else r :: put b rest

/-- A row with this open time is there. -/
def holds (opened : Int) (rows : List Bar) : Bool :=
  rows.any (·.openTime == opened)

/-- Rows after a merge, with the numbers of incoming rows that were new and that were not. -/
structure Merged where
  rows : List Bar
  inserted : Nat
  duplicates : Nat

/-- One incoming row more. -/
def Merged.add (m : Merged) (b : Bar) : Merged :=
  if holds b.openTime m.rows then ⟨put b m.rows, m.inserted, m.duplicates + 1⟩
  else ⟨put b m.rows, m.inserted + 1, m.duplicates⟩

/-- Rows in ascending order, the last of several with one open time. -/
def sorted (rows : List Bar) : List Bar :=
  rows.foldl (fun done b => put b done) []

/-- The incoming rows folded into the existing ones: for every open time the last writer wins. -/
def merge (existing incoming : List Bar) : Merged :=
  incoming.foldl Merged.add ⟨sorted existing, 0, 0⟩

/-- The newest rows up to a number of them. -/
def trim (limit : Nat) (rows : List Bar) : List Bar :=
  rows.drop (rows.length - limit)

/-- The rows ascend strictly by their open times. -/
def requireAscending : List Bar → Outcome Unit
  | [] => .ok ()
  | [_] => .ok ()
  | a :: b :: rest =>
    if b.openTime = a.openTime then violated (.repeatedRow b.openTime)
    else if b.openTime < a.openTime then violated (.unsortedRow b.openTime a.openTime)
    else requireAscending (b :: rest)

end MarketBook.Rows
