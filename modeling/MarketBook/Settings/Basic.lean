/-
Module: MarketBook.Settings.Basic
Purpose: Where the files are and how large a cache may grow: from a settings file and from the
  environment, which wins.
Main exports:
  Settings, Settings.read, Settings.ofFile, Settings.override, Settings.ofEnvironment
-/
import MarketBook.Disk.Device
import MarketBook.Disk.Place
import MarketBook.Fault
import MarketBook.Text.Blank
import MarketBook.Toml.Reader

namespace MarketBook

open Device Text

/-- The settings of an installation. -/
structure Settings where
  cacheRoot : String
  cacheMaxBars : Nat
  cacheWarmupBars : Nat
  archivePath : String
  calendarTag : String
  profilesPath : String
deriving DecidableEq

namespace Settings

/-- The settings where nothing else is said. -/
def standard : Settings :=
  { cacheRoot := "cache"
    cacheMaxBars := 60000
    cacheWarmupBars := 1600
    archivePath := "data/live_archive.sqlite"
    calendarTag := "fx_calendar_v1_utc"
    profilesPath := "config/calendar_overrides.json" }

/-- The values of variables by their names. -/
abbrev Environment := String → Option String

/-- The variable that names the settings file. -/
def fileVariable : String := "MARKET_CORE_CONFIG"

/-- The variable for the directory of the caches. -/
def rootVariable : String := "MARKET_CORE_CACHE_ROOT"

/-- The variable for the greatest number of bars. -/
def maxBarsVariable : String := "MARKET_CORE_CACHE_MAX_BARS"

/-- The variable for the file of the archive. -/
def archiveVariable : String := "MARKET_CORE_ARCHIVE_DB"

/-- The variable for the tag of the calendar. -/
def tagVariable : String := "MARKET_CORE_CALENDAR_TAG"

/-- Every variable that settings look at. -/
def variableNames : List String :=
  [fileVariable, rootVariable, maxBarsVariable, archiveVariable, tagVariable]

/-- A text value. -/
def text? : Toml.Value → Option String
  | .text s => some s
  | .integer _ => none

/-- A number of 64 bits without sign. -/
def count? : Toml.Value → Option Nat
  | .integer n => if 0 ≤ n ∧ n < Int.ofNat limit64 then some n.toNat else none
  | .text _ => none

/-- The settings with one key of a file; other keys and values of another kind are refused. -/
def withPair (s : Settings) (p : String × Toml.Value) : Option Settings :=
  if p.1 = "cache_root" then (text? p.2).map fun v => { s with cacheRoot := v }
  else if p.1 = "cache_max_bars" then (count? p.2).map fun v => { s with cacheMaxBars := v }
  else if p.1 = "cache_warmup_bars" then (count? p.2).map fun v => { s with cacheWarmupBars := v }
  else if p.1 = "archive_db_path" then (text? p.2).map fun v => { s with archivePath := v }
  else if p.1 = "calendar_tag" then (text? p.2).map fun v => { s with calendarTag := v }
  else if p.1 = "calendar_overrides_path" then (text? p.2).map fun v => { s with profilesPath := v }
  else none

/-- The settings with every key of a file. -/
def withPairs (s : Settings) : List (String × Toml.Value) → Option Settings
  | [] => some s
  | p :: r => (s.withPair p).bind fun s => withPairs s r

/-- The settings can be used. -/
def require (s : Settings) : Outcome Unit :=
  if s.cacheMaxBars = 0 then misused .zeroCacheBars
  else if allBlank s.calendarTag then misused .blankTag
  else .ok ()

/-- The settings that a text holds, unchecked. -/
def decode (text : String) : Outcome Settings :=
  match (Toml.read? text).bind standard.withPairs with
  | some s => .ok s
  | none => .error .toml

/-- The settings that a text holds. -/
def read (text : String) : Outcome Settings := do
  let s ← decode text
  s.require
  return s

/-- The settings that a file holds. -/
def ofFile (p : Place) : Act Settings := do
  let text ← readTextOr (.input (.unreadableSettings p.shown)) p
  ofOutcome (read text)

/-- The settings with the texts that a look-up gives for them. -/
def override (s : Settings) (env : Environment) : Settings :=
  { s with
    cacheRoot := (env rootVariable).getD s.cacheRoot
    archivePath := (env archiveVariable).getD s.archivePath
    calendarTag := (env tagVariable).getD s.calendarTag }

/-- Variables without the white space around their values; blank ones count as not set. -/
def trimmed (env : Environment) : Environment := fun name =>
  ((env name).map trim).filter (· ≠ "")

/-- The greatest number of bars that a variable sets. -/
def maxBarsOf (env : Environment) : Outcome (Option Nat) :=
  match trimmed env maxBarsVariable with
  | none => .ok none
  | some raw =>
    match unsigned? 10 limit64 raw.toList with
    | some n => .ok (some n)
    | none => misused (.badVariable maxBarsVariable raw)

/-- The settings with every variable in place of what they had. -/
def overrideAll (s : Settings) (env : Environment) : Outcome Settings := do
  let maxBars ← maxBarsOf env
  let merged :=
    { s.override (trimmed env) with cacheMaxBars := maxBars.getD s.cacheMaxBars }
  merged.require
  return merged

/-- The settings file that a variable names. -/
def filePlace? (workingDir : Disk.Path) (env : Environment) : Option Place :=
  (trimmed env fileVariable).map (Place.ofText workingDir)

/-- The settings of the file that a variable names, or the standard ones, with the other variables
in place of what they had. -/
def ofEnvironment (workingDir : Disk.Path) (env : Environment) : Act Settings := do
  let s ← match filePlace? workingDir env with
    | some place => ofFile place
    | none => pure standard
  ofOutcome (s.overrideAll env)

end Settings

end MarketBook
