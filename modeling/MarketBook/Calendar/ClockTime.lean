/-
Module: MarketBook.Calendar.ClockTime
Purpose: Times of the day in hours and minutes.
Main exports:
  ClockTime, ClockTime.read, ClockTime.ms
-/
import MarketBook.Fault
import MarketBook.Time.Civil

namespace MarketBook

/-- A time of the day to the minute. -/
structure ClockTime where
  hour : Nat
  minute : Nat
deriving DecidableEq

namespace ClockTime

/-- The first minute of the day. -/
def midnight : ClockTime := ⟨0, 0⟩

/-- The minutes since midnight. -/
def minutes (t : ClockTime) : Int :=
  Int.ofNat t.hour * 60 + Int.ofNat t.minute

/-- The milliseconds since midnight. -/
def ms (t : ClockTime) : Int :=
  t.minutes * Time.minuteMs

/-- One or two digits. -/
def part? (cs : List Char) : Option Nat :=
  if cs.length ≤ 2 then Text.digits? 10 cs else none

/-- A time written as hours, a colon and minutes, each in one or two digits. -/
def read (raw : String) : Outcome ClockTime :=
  let cs := raw.toList
  let behind := cs.dropWhile (· ≠ ':')
  match part? (cs.takeWhile (· ≠ ':')), behind.isEmpty, part? (behind.drop 1) with
  | some hour, false, some minute =>
    if hour ≤ 23 ∧ minute ≤ 59 then .ok ⟨hour, minute⟩ else misused (.clockTimeOutOfRange raw)
  | _, _, _ => misused (.notClockTime raw)

end ClockTime

end MarketBook
