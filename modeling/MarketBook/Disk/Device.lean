/-
Module: MarketBook.Disk.Device
Purpose: Operations on a disk that may fail and on a machine that may stop.
Main exports:
  Device, Device.Fate, Device.Halt, Device.Act
-/
import MarketBook.Disk.Lookup
import MarketBook.Fault

namespace MarketBook

open Text

/-!
Every operation has a fate.  It works, or the device fails and the program goes on with a fault, or
the machine stops and nothing runs any more.  A write that fails or is stopped leaves a beginning of
what it was to write; every other operation is done wholly or not at all.  A device without fates in
store works.
-/

namespace Device

/-- What becomes of one operation. -/
inductive Fate where
  | works
  /-- The device fails; of a write so many octets have arrived. -/
  | fails (kept : Nat)
  /-- The machine stops; of a write so many octets have arrived. -/
  | stops (kept : Nat)
deriving DecidableEq

end Device

/-- A disk, the number of the process that uses it, and the fates of the operations to come. -/
structure Device where
  disk : Disk
  process : Nat
  fates : List Device.Fate
deriving DecidableEq

namespace Device

/-- A device on which every operation works. -/
def sound (d : Disk) (process : Nat) : Device := ⟨d, process, []⟩

/-- Why a sequence of operations did not come to its end. -/
inductive Halt where
  | fault (cause : Fault)
  | stopped
deriving DecidableEq

/-- Operations on a device, with a value or the reason of their end. -/
abbrev Act (α : Type) := ExceptT Halt (StateM Device) α

/-- Ends with a fault. -/
def fail {α : Type} (cause : Fault) : Act α :=
  throw (.fault cause)

/-- Takes a value, or ends with its fault. -/
def ofOutcome {α : Type} : Outcome α → Act α
  | .ok a => pure a
  | .error cause => fail cause

/-- The fate of the next operation, which is used up. -/
def nextFate : StateM Device Fate := fun v =>
  match v.fates with
  | [] => (.works, v)
  | f :: r => (f, { v with fates := r })

/-- An operation that is done wholly or not at all. -/
def whole {α : Type} (run : Disk → Except Disk.Refusal (α × Disk))
    (onRefusal : Disk.Refusal → Outcome α) : Act α := do
  match ← nextFate with
  | .fails _ => fail .io
  | .stops _ => throw .stopped
  | .works =>
    let v ← get
    match run v.disk with
    | .ok (a, d) =>
      set ({ v with disk := d } : Device)
      pure a
    | .error e => ofOutcome (onRefusal e)

/-- Every refusal is a fault of the storage. -/
def anyRefusal {α : Type} (_ : Disk.Refusal) : Outcome α :=
  .error .io

/-- The content of a file, or nothing where there is none. -/
def readFile? (p : Place) : Act (Option Octets) :=
  whole (fun d => (d.read p).map fun content => (some content, d)) fun
    | .absent => .ok none
    | .refused => .error .io

/-- The text of a file, or nothing where there is none; a file that is not text cannot be read. -/
def readText? (p : Place) : Act (Option String) := do
  match ← readFile? p with
  | none => pure none
  | some content =>
    match decode? content with
    | some text => pure (some text)
    | none => fail .io

/-- Another fault in place of whatever fault an operation ends with. -/
def withFault {α : Type} (cause : Fault) (act : Act α) : Act α :=
  tryCatch act fun
    | .stopped => throw .stopped
    | .fault _ => fail cause

/-- The text of a file that has to be there, with a fault of the caller's own if it cannot be
read. -/
def readTextOr (cause : Fault) (p : Place) : Act String := do
  match ← withFault cause (readText? p) with
  | some text => pure text
  | none => fail cause

/-- Makes a directory and those above it; what could be made stays. -/
def makeDirs (p : Place) : Act Unit := do
  let made ← whole (fun d => let (d', r) := d.makeDirs p; .ok (r, d')) anyRefusal
  match made with
  | .ok () => pure ()
  | .error _ => fail .io

/-- What a look at the disk gives, which is no operation of the device. -/
def look {α : Type} (f : Disk → Except Disk.Refusal α) : Act α := do
  match f (← get).disk with
  | .ok a => pure a
  | .error _ => fail .io

/-- Makes an empty file. -/
def createFile (p : Disk.Path) : Act Unit :=
  whole (fun d => (d.create p).map fun d' => ((), d')) anyRefusal

/-- Writes the content of a file that was made before. -/
def writeFile (p : Disk.Path) (content : Octets) : Act Unit := do
  match ← nextFate with
  | .works => modify fun v => { v with disk := v.disk.set p (.file content) }
  | .fails kept =>
    modify fun v => { v with disk := v.disk.set p (.file (content.take kept)) }
    fail .io
  | .stops kept =>
    modify fun v => { v with disk := v.disk.set p (.file (content.take kept)) }
    throw .stopped

/-- Waits until a file has reached the disk. -/
def syncFile (_ : Disk.Path) : Act Unit :=
  whole (fun d => .ok ((), d)) anyRefusal

/-- Moves a file to where a place has its file. -/
def renameFile (source : Disk.Path) (target : Place) : Act Unit :=
  whole (fun d => do
    let path ← d.locateFile target
    return ((), ← d.rename source path)) anyRefusal

/-- Removes a file. -/
def removeFile (p : Disk.Path) : Act Unit :=
  whole (fun d => (d.remove p).map fun d' => ((), d')) anyRefusal

end Device

end MarketBook
