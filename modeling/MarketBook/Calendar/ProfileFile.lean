/-
Module: MarketBook.Calendar.ProfileFile
Purpose: Profiles in files.
Main exports:
  ProfileFile.readAll, ProfileFile.read, ProfileFile.write, Calendar.ofFile
-/
import MarketBook.Calendar.Basic
import MarketBook.Disk.Place
import MarketBook.Disk.Publish

namespace MarketBook

open Device Text

namespace ProfileFile

/-- Every profile of a file. -/
def readAll (p : Place) : Act (List Profile) := do
  let text ← readTextOr (.input (.unreadableProfiles p.shown)) p
  ofOutcome (Profile.readAll text)

/-- The profile of a tag in a file. -/
def read (p : Place) (tag : String) : Act Profile := do
  ofOutcome (Profile.find tag (← readAll p))

/-- Replaces a file by profiles in their present form. -/
def write (p : Place) (profiles : List Profile) : Act Unit :=
  publishContent p (encode (Profile.writeAll profiles))

end ProfileFile

/-- The calendar of a profile in a file. -/
def Calendar.ofFile (p : Place) (tag : String) : Act Calendar := do
  return Calendar.ofProfile (← ProfileFile.read p tag)

end MarketBook
