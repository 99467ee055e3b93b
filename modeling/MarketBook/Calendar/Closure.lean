/-
Module: MarketBook.Calendar.Closure
Purpose: Windows in which the market is closed whatever its schedule says.
Main exports:
  Closure, Closure.holds, Closure.normalize, Closure.listOfJson, Closure.distinct
-/
import MarketBook.Time.Rails

namespace MarketBook

open Time

/-- A window of instants: its start belongs to it and its stop does not. -/
structure Closure where
  start : Int
  stop : Int
deriving DecidableEq

namespace Closure

/-- The instant lies in the window. -/
def holds (c : Closure) (ts : Int) : Bool :=
  c.start ≤ ts && ts < c.stop

/-- A bound of a window is a plausible time stamp. -/
def requireBound (index position : Nat) (value : Int) : Outcome Unit :=
  if onRails value then .ok () else misused (.boundOffRails index position value)

/-- Both bounds are plausible and the window is not empty. -/
def requireWindow (index : Nat) (c : Closure) : Outcome Unit := do
  requireBound index 0 c.start
  requireBound index 1 c.stop
  if c.stop ≤ c.start then misused (.intervalNotForward index c.start c.stop)

/-- Every window of the list is sound, counted from an index on. -/
def requireWindows : Nat → List Closure → Outcome Unit
  | _, [] => .ok ()
  | index, c :: r => do
    requireWindow index c
    requireWindows (index + 1) r

/-- A window among windows in the order of their starts, before those with the same start. -/
def insert (c : Closure) : List Closure → List Closure
  | [] => [c]
  | d :: r => if c.start ≤ d.start then c :: d :: r else d :: insert c r

/-- The windows in the order of their starts, equal starts in the order given. -/
def sort : List Closure → List Closure
  | [] => []
  | c :: r => insert c (sort r)

/-- No window starts before its predecessor has stopped. -/
def requireApart : List Closure → Outcome Unit
  | [] => .ok ()
  | [_] => .ok ()
  | c :: d :: r =>
    if d.start < c.stop then misused (.intervalsOverlap c.start c.stop d.start d.stop)
    else requireApart (d :: r)

/-- The windows in order, if every one is sound and no two share an instant.  One may start where
another stops. -/
def normalize (windows : List Closure) : Outcome (List Closure) := do
  requireWindows 0 windows
  requireApart (sort windows)
  return sort windows

/-- The first of the windows that holds the instant, in a list in order. -/
def containing? (closures : List Closure) (ts : Int) : Option Closure :=
  (closures.dropWhile fun c => c.stop ≤ ts).head?.filter (·.holds ts)

/-- The windows without repetitions, each where it stood first. -/
def distinct : List Closure → List Closure
  | [] => []
  | c :: r => c :: (distinct r).filter (· ≠ c)

/-- A bound of a window from JSON: an integer of 64 bits. -/
def boundOfJson (index position : Nat) (j : Json) : Outcome Int :=
  match j.asInt64? with
  | some n => .ok n
  | none => misused (.boundNotInteger index position)

/-- A window from JSON: a list of two bounds. -/
def ofJson (index : Nat) (j : Json) : Outcome Closure :=
  match j.asItems? with
  | none => misused (.intervalNotList index)
  | some [a, b] => do return ⟨← boundOfJson index 0 a, ← boundOfJson index 1 b⟩
  | some _ => misused (.intervalNotPair index)

/-- Windows from JSON items, counted from an index on. -/
def ofItems : Nat → List Json → Outcome (List Closure)
  | _, [] => .ok []
  | index, j :: r => do return (← ofJson index j) :: (← ofItems (index + 1) r)

/-- Windows from a JSON list of pairs of integers. -/
def listOfJson (j : Json) : Outcome (List Closure) :=
  match j.asItems? with
  | some items => ofItems 0 items
  | none => misused .intervalsNotList

/-- A window as a pair of integers. -/
def toJson (c : Closure) : Json :=
  .arr [.int c.start, .int c.stop]

end Closure

end MarketBook
