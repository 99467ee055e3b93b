/-
Module: MarketBook.Disk.Lookup
Purpose: Where places lead on a disk: finding, reading and making what stands there.
Main exports:
  Disk.follow, Disk.locate, Disk.locateFile, Disk.read, Disk.makeDirs
-/
import MarketBook.Disk.Place

namespace MarketBook.Disk

open Text

/-!
A way is walked from the root.  Every step but the last has to lead into a directory that is there,
also a step that two dots take back at once.  Making directories walks in the same manner and makes
those that are missing.
-/

/-- The longest name, in octets. -/
def maxName : Nat := 255

/-- The name is short enough. -/
def isShort (name : String) : Bool :=
  name.utf8ByteSize ≤ maxName

/-- The path to which steps lead from a directory; nothing has to stand at the last of them. -/
def follow (d : Disk) : Path → List String → Except Refusal Path
  | here, [] => .ok here
  | here, step :: rest =>
    if step = Place.up then follow d here.dropLast rest
    else if !isShort step then .error .refused
    else
      let next := here ++ [step]
      if rest.isEmpty then .ok next
      else match d.node? next with
        | none => .error .absent
        | some .directory => follow d next rest
        | some _ => .error .refused

/-- The path to which a place leads. -/
def locate (d : Disk) (p : Place) : Except Refusal Path :=
  if p.shown = "" then .error .absent
  else if !p.fits then .error .refused
  else do
    let path ← d.follow [] p.steps
    match p.ending, d.node? path with
    | .none, _ => .ok path
    | _, some .directory => .ok path
    | _, some _ => .error .refused
    | _, none => .error .absent

/-- The path at which a place has its file, or can have one. -/
def locateFile (d : Disk) (p : Place) : Except Refusal Path :=
  if p.name?.isSome && p.ending = .none then d.locate p else .error .refused

/-- The content of a file. -/
def read (d : Disk) (p : Place) : Except Refusal Octets := do
  match d.node? (← d.locate p) with
  | none => .error .absent
  | some (.file content) => .ok content
  | some _ => .error .refused

/-- The names in a directory. -/
def list (d : Disk) (p : Place) : Except Refusal (List String) := do
  let path ← d.locate p
  match d.node? path with
  | none => .error .absent
  | some .directory => .ok (d.names path)
  | some _ => .error .refused

/-- The directories along steps are there or are made, from the root down. -/
def makeDirsFrom : Path → List String → Disk → Disk × Except Refusal Unit
  | _, [], d => (d, .ok ())
  | here, step :: rest, d =>
    if step = Place.up then makeDirsFrom here.dropLast rest d
    else if !isShort step then (d, .error .refused)
    else
      let next := here ++ [step]
      match d.node? next with
      | some .directory => makeDirsFrom next rest d
      | none => makeDirsFrom next rest (d.set next .directory)
      | some _ => (d, .error .refused)

/-- A directory and those above it.  Where the text ends in a dot, only those above are made. -/
def makeDirs (p : Place) (d : Disk) : Disk × Except Refusal Unit :=
  if !p.fits then (d, .error .refused)
  else if p.ending = .dot then
    let (d, made) := makeDirsFrom [] p.steps.dropLast d
    (d, made.bind fun _ => (d.list p).map fun _ => ())
  else makeDirsFrom [] p.steps d

end MarketBook.Disk
