/-
Module: MarketBook.Settings.Wiring
Purpose: The calendar, the caches and the archive that settings describe.
Main exports:
  Settings.calendar, Settings.cache, Settings.archive
-/
import MarketBook.Archive.Store
import MarketBook.Cache.Basic
import MarketBook.Calendar.ProfileFile
import MarketBook.Settings.Basic

namespace MarketBook.Settings

open Device

/-- The profiles that the settings name. -/
def profiles (s : Settings) (workingDir : Disk.Path) : Act (List Profile) :=
  ProfileFile.readAll (Place.ofText workingDir s.profilesPath)

/-- The calendar that the settings name. -/
def calendar (s : Settings) (workingDir : Disk.Path) : Act Calendar :=
  Calendar.ofFile (Place.ofText workingDir s.profilesPath) s.calendarTag

/-- A cache of the settings. -/
def cache (s : Settings) (workingDir : Disk.Path) (symbol : String) (tf : Timeframe) :
    Outcome BarCache :=
  BarCache.create (Place.ofText workingDir s.cacheRoot) symbol tf s.cacheMaxBars s.cacheWarmupBars

/-- The archive of the settings. -/
def archive (s : Settings) (workingDir : Disk.Path) : Act Archive :=
  Archive.openAt workingDir s.archivePath

end MarketBook.Settings
