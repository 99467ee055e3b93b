/-
Module: MarketBook.Calendar.Runs
Purpose: The runs during which the market stays open: open parts of neighbouring days joined over
  midnight, with the closed windows cut out.
Main exports:
  Calendar.joinSpans, Calendar.cutClosures, Calendar.runsAround
-/
import MarketBook.Calendar.Schedule

namespace MarketBook.Calendar

open Time

/-- Spans in order with one more behind them: it is joined to the last one if the two touch. -/
def joinSpan (done : List Span) (s : Span) : List Span :=
  match done.getLast? with
  | some last =>
    if s.start ≤ last.stop then done.dropLast ++ [⟨last.start, max last.stop s.stop⟩]
    else done ++ [s]
  | none => [s]

/-- Spans in order with those that touch joined together. -/
def joinSpans (spans : List Span) : List Span :=
  spans.foldl joinSpan []

/-- What is left of a span from a start on, where `closures` are the windows that may cut it. -/
def cutSpan (stop : Int) : Int → List Closure → List Span
  | start, [] => if start < stop then [⟨start, stop⟩] else []
  | start, c :: r =>
    if stop ≤ c.start ∨ stop ≤ start then (if start < stop then [⟨start, stop⟩] else [])
    else
      (if start < c.start then [⟨start, c.start⟩] else []) ++ cutSpan stop (max start c.stop) r

/-- What the closed windows leave of the spans. -/
def cutClosures (closures : List Closure) (spans : List Span) : List Span :=
  spans.flatMap fun s => cutSpan s.stop s.start (closures.dropWhile fun c => c.stop ≤ s.start)

/-- How many days a window of runs reaches back. -/
def daysBack : Int := 1

/-- How many days a window of runs covers. -/
def windowDays : Nat := 11

/-- The open parts of the local days around a day, one day after the other. -/
def spansAround (c : Calendar) (day : Int) : Checked (List Span) := do
  let start ← checkDay (day - daysBack)
  let parts ← (List.range windowDays).mapM fun n => do
    c.openSpans (← checkDay (start + Int.ofNat n))
  return parts.flatten

/-- The open runs on the local days around an instant: one day back and nine ahead. -/
def runsAround (c : Calendar) (anchor : Int) : Checked (List Span) := do
  match ← c.dayOf? anchor with
  | some day => return cutClosures c.closures (joinSpans (← c.spansAround day))
  | none => return []

end MarketBook.Calendar
