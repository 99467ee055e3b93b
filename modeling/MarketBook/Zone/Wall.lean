/-
Module: MarketBook.Zone.Wall
Purpose: One instant for a wall time, by a policy for wall times that are skipped or repeated.
Main exports:
  Zone.Policy, Zone.WallFault, Zone.instantOf
-/
import MarketBook.Time.Checked
import MarketBook.Zone.Basic

namespace MarketBook.Zone

open Time

/-!
Schedules are written in wall time, and their bounds become instants only here; fixed offsets are
never added.  A policy that shifts forward goes on by whole minutes through a gap until the clock
shows the time at exactly one instant, for two hours at most; a minute that leaves the range of the
wall times stops the program.
-/

/-- What to do with a wall time that is not read at exactly one instant. -/
inductive Policy where
  /-- Neither a gap nor a repetition is accepted. -/
  | strict
  /-- The first of the instants. -/
  | earliest
  /-- The last of the instants. -/
  | latest
  /-- The end of the gap; no repetition is accepted. -/
  | shiftForward
  /-- The first of the instants, or the end of the gap. -/
  | lenient
deriving DecidableEq

/-- A wall time that a policy refuses. -/
inductive WallFault where
  | ambiguous (wall : Int)
  | nonexistent (wall : Int)
deriving DecidableEq

/-- A wall time as date and time of day, with milliseconds only if there are any. -/
def wallText (wall : Int) : String :=
  let fraction := (wall % 1000).toNat
  (CivilDate.ofDay (wall / dayMs)).text ++ " " ++ clockText (wall % dayMs) ++
    (if fraction = 0 then "" else "." ++ Text.padded 3 fraction)

/-- The wording of a refused wall time. -/
def WallFault.message : WallFault → String
  | .ambiguous wall => "ambiguous local time: " ++ wallText wall
  | .nonexistent wall => "nonexistent local time: " ++ wallText wall

/-- The policy takes the first of two instants. -/
def Policy.takesFirst (p : Policy) : Bool :=
  p == .earliest || p == .lenient

/-- The policy goes on through a gap. -/
def Policy.shifts (p : Policy) : Bool :=
  p == .shiftForward || p == .lenient

/-- The first of the next whole minutes, up to a number of them, that is read exactly once. -/
def nextSingle? (z : Zone) : Nat → Int → Checked (Option Int)
  | 0, _ => return none
  | more + 1, wall => do
    let next ← checkWall (wall + minuteMs)
    match z.readings next with
    | [ts] => return some ts
    | _ => nextSingle? z more next

/-- How many minutes a policy goes on through a gap. -/
def shiftLimit : Nat := 120

/-- The instant of a wall time by a policy, or why it has none. -/
def instantOf (z : Zone) (p : Policy) (wall : Int) : Checked (Except WallFault Int) :=
  match z.readings wall with
  | [ts] => return .ok ts
  | a :: b :: _ =>
    if p.takesFirst then return .ok a
    else if p = .latest then return .ok b
    else return .error (.ambiguous wall)
  | [] =>
    if p.shifts then do
      match ← nextSingle? z shiftLimit wall with
      | some ts => return .ok ts
      | none => return .error (.nonexistent wall)
    else return .error (.nonexistent wall)

/-- The instant of a bound of a schedule. -/
def boundInstant? (z : Zone) (wall : Int) : Checked (Option Int) := do
  return (← z.instantOf .lenient wall).toOption

end MarketBook.Zone
