/-
Module: MarketBook.Disk.Publish
Purpose: A file replaced as a whole: readers see the old content or the new one, never a part.
Main exports:
  Device.stagingPlace, Device.Draft, Device.publish
-/
import MarketBook.Disk.Device

namespace MarketBook.Device

open Text

/-!
The new content is written to a staging file beside the target, brought to the disk, and renamed
over the target.  Whatever fails on the way, the staging file is removed and the target stays as it
was.  Only one file is replaced at a time; a caller with several orders its renames.
-/

/-- The name of the staging file of a process for a target of a name. -/
def stagingName (process : Nat) (name : String) : String :=
  name ++ ".tmp." ++ toString process

/-- The staging file of a process for a target. -/
def stagingPlace (process : Nat) (target : Place) : Place :=
  target.beside (stagingName process (target.name?.getD ""))

/-- What is to be written: a content and, if its making fails half way, the fault. -/
structure Draft where
  content : Octets
  fault : Option Fault

/-- Writes a draft to its staging file. -/
def stage (staging : Disk.Path) (draft : Draft) : Act Unit := do
  createFile staging
  writeFile staging draft.content
  match draft.fault with
  | some cause => fail cause
  | none => syncFile staging

/-- Goes on after an end with a fault: removes the staging file and ends with the same fault,
whether it could be removed or not. -/
def orDiscard (staging : Disk.Path) (act : Act Unit) : Act Unit :=
  tryCatch act fun
    | .stopped => throw .stopped
    | .fault cause => do
      tryCatch (removeFile staging) fun
        | .stopped => throw .stopped
        | .fault _ => pure ()
      fail cause

/-- Replaces the target by a draft. -/
def publish (target : Place) (draft : Draft) : Act Unit := do
  makeDirs target.parent
  let place := stagingPlace (← get).process target
  let staging ← look (·.locateFile place)
  orDiscard staging (stage staging draft)
  orDiscard staging (renameFile staging target)

/-- Replaces the target by a content. -/
def publishContent (target : Place) (content : Octets) : Act Unit :=
  publish target ⟨content, none⟩

end MarketBook.Device
