/-
Module: MarketBook.CommandLine.Files
Purpose: The files that a command looks at.
Main exports:
  Command.files
-/
import MarketBook.CommandLine.Arguments
import MarketBook.Settings.Wiring

namespace MarketBook.Command

/-- The two files of a cache of the settings; none where the settings allow no cache. -/
def cacheFiles (s : Settings) (workingDir : Disk.Path) (symbol : String) (tf : Timeframe) :
    List Place :=
  match s.cache workingDir symbol tf with
  | .ok c => [c.tablePlace, c.metaPlace]
  | .error _ => []

/-- The file of an archive with its companions and what its address names besides; none where the
address cannot be read. -/
def archiveFiles (workingDir : Disk.Path) (text : String) : List Place :=
  match Address.read text with
  | .ok a =>
    let near := Address.companionMarks.map fun mark => a.file ++ mark
    (text :: a.file :: near ++ a.model.toList).map (Place.ofText workingDir)
  | .error _ => [Place.ofText workingDir text]

/-- The files that a command looks at with given settings. -/
def files (s : Settings) (workingDir : Disk.Path) : Command → List Place
  | .calendarState _ | .calendarExplain _ | .checkPolicy =>
    [Place.ofText workingDir s.profilesPath]
  | .cacheSummary symbol tf => cacheFiles s workingDir symbol tf
  | .cacheTail symbol tf _ => cacheFiles s workingDir symbol tf
  | .archiveCount _ _ => archiveFiles workingDir s.archivePath

end MarketBook.Command
