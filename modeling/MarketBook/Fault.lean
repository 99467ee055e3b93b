/-
Module: MarketBook.Fault
Purpose: Everything that can go wrong, by its cause, and the wording of each cause.
Main exports:
  Violation, Misuse, Fault, Fault.message
-/
import MarketBook.Decimal.Layout
import MarketBook.Text.Quoted
import MarketBook.Timeframe.Basic

namespace MarketBook

open Decimal Text

/-!
Two classes matter to a caller.  A `Violation` says that data broke a rule that stored data and
admitted bars always keep: it is corrupt.  A `Misuse` says that somebody handed in something
malformed.  The remaining faults come from the storage and from the formats themselves and have no
wording of their own.
-/

/-- A broken rule of the data. -/
inductive Violation where
  | timeIsBool (field : String)
  | timeIsFloat (field : String)
  | timeIsNoNumber (field : String)
  | timeBeyondRange (field : String)
  | timeTooSmall (field : String) (ts : Int)
  | timeTooLarge (field : String) (ts : Int)
  | misaligned (tf : Timeframe) (opened : Int)
  | wrongClose (expected found : Int)
  | barNotObject
  | timeMissing (field : String)
  | foreignSymbol (found expected : String)
  | foreignTimeframe (found expected : Timeframe)
  | incompleteBar
  | notFinite (field : String)
  | ticksNegative
  | ticksNotInteger
  | ticksBool
  | highTooLow (high : Binary64) (opened : Int)
  | lowTooHigh (low : Binary64) (opened : Int)
  | highBelowLow (opened : Int)
  | repeatedRow (opened : Int)
  | unsortedRow (opened before : Int)
  | headerMismatch (path : String)
  | unreadableRow (path : String) (row : Nat)
  | foreignRow (path : String) (row : Nat) (symbol : String) (tf : Timeframe)
      (expectedSymbol : String) (expectedTf : Timeframe)
  | rowNotFinite (path : String) (row : Nat) (field : String)
  | metaNotJson
  | metaNotObject
  | metaVersion (found : Option Nat)
  | metaField
  | unknownLabel (label : String)
  | stated (text : String)
deriving DecidableEq

/-- Malformed input. -/
inductive Misuse where
  | blankSymbol
  | vanishingSymbol (raw : String)
  | emptyKeySymbol
  | blankTimeframe
  | unknownTimeframe (raw : String)
  | calendarRequired
  | zeroMaxBars
  | saveBeforeLoad
  | notClockTime (raw : String)
  | clockTimeOutOfRange (raw : String)
  | boundOffRails (index position : Nat) (value : Int)
  | intervalNotForward (index : Nat) (start stop : Int)
  | intervalsOverlap (start stop nextStart nextStop : Int)
  | intervalsNotList
  | intervalNotList (index : Nat)
  | intervalNotPair (index : Nat)
  | boundNotInteger (index position : Nat)
  | notDate (index : Nat) (raw : String)
  | profilesNotJson
  | profilesNotList
  | profileShape (index : Nat)
  | repeatedTag (tag : String)
  | unknownTag (tag : String)
  | unreadableProfiles (path : String)
  | blankTag
  | blankZone (tag : String)
  | breakNotGiven (tag : String)
  | breakNotPositive (tag : String)
  | noLeastIntervals (tag : String)
  | policyMissing (tag : String)
  | tooFewIntervals (tag : String) (count least : Nat)
  | coverageMismatch (tag : String) (declared found : Int)
  | coverageTooShort (tag : String) (days : Nat)
  | unreadableSettings (path : String)
  | zeroCacheBars
  | badVariable (name raw : String)
  | unhealthyCalendar (tag reason : String)
deriving DecidableEq

/-- The wording of an optional version number. -/
def optionText : Option Nat → String
  | none => "None"
  | some n => s!"Some({n})"

/-- The wording of a broken rule. -/
def Violation.message : Violation → String
  | .timeIsBool field => s!"{field} must be int, not bool"
  | .timeIsFloat field => s!"{field} must be int ms, not float"
  | .timeIsNoNumber field => s!"{field} must be int ms"
  | .timeBeyondRange field => s!"{field} out of i64 range"
  | .timeTooSmall field ts => s!"{field} must be epoch ms (>= 1e12), got {ts}"
  | .timeTooLarge field ts => s!"{field} must be epoch ms, not microseconds: {ts}"
  | .misaligned tf opened =>
    s!"open_time_ms {opened} is not aligned to {tf.label} ({tf.ms} ms)"
  | .wrongClose expected found =>
    s!"close_time_ms must equal open_time_ms + tf_ms - 1 ({expected}), got {found}"
  | .barNotObject => "bar must be a JSON object"
  | .timeMissing field => s!"{field} is missing"
  | .foreignSymbol found expected =>
    s!"bar symbol {found} does not match cache symbol {expected}"
  | .foreignTimeframe found expected =>
    s!"bar tf {found.label} does not match cache tf {expected.label}"
  | .incompleteBar => "cache accepts only complete=true bars"
  | .notFinite field => s!"{field} must be a finite number"
  | .ticksNegative => "tick_count must be >= 0"
  | .ticksNotInteger => "tick_count must be an integer"
  | .ticksBool => "tick_count must be int, not bool"
  | .highTooLow high opened =>
    s!"high {messageLayout.render high} below max(open, close) at {opened}"
  | .lowTooHigh low opened =>
    s!"low {messageLayout.render low} above min(open, close) at {opened}"
  | .highBelowLow opened => s!"high < low at {opened}"
  | .repeatedRow opened => s!"duplicate open_time_ms {opened}"
  | .unsortedRow opened before => s!"rows not sorted by open_time_ms: {opened} after {before}"
  | .headerMismatch path => s!"{path}: header does not match cache columns"
  | .unreadableRow path row => s!"{path} row {row}"
  | .foreignRow path row symbol tf expectedSymbol expectedTf =>
    s!"{path} row {row}: binding {symbol}/{tf.label} does not match " ++
      s!"{expectedSymbol}/{expectedTf.label}"
  | .rowNotFinite path row field => s!"{path} row {row}: {field} must be a finite number"
  | .metaNotJson => "meta is not valid JSON"
  | .metaNotObject => "meta must be a JSON object"
  | .metaVersion found => s!"unsupported meta version {optionText found}, expected 1"
  | .metaField => "meta field"
  | .unknownLabel label => s!"unsupported tf: {quoted label}"
  | .stated text => text

/-- The wording of malformed input. -/
def Misuse.message : Misuse → String
  | .blankSymbol => "symbol must be a non-empty string"
  | .vanishingSymbol raw => s!"symbol normalizes to empty: {quoted raw}"
  | .emptyKeySymbol => "symbol must be non-empty"
  | .blankTimeframe => "tf must be a non-empty string"
  | .unknownTimeframe raw => s!"unsupported tf: {raw}"
  | .calendarRequired => "calendar is required for the 1d boundary"
  | .zeroMaxBars => "max_bars must be > 0"
  | .saveBeforeLoad => "FileCache::save called before load"
  | .notClockTime raw => s!"time must be HH:MM, got {quoted raw}"
  | .clockTimeOutOfRange raw => s!"time out of range: {quoted raw}"
  | .boundOffRails index position value =>
    s!"closed_intervals_utc[{index}][{position}] is outside the epoch-ms rails: {value}"
  | .intervalNotForward index start stop =>
    s!"closed_intervals_utc[{index}] needs start_ms < end_ms, got {start} >= {stop}"
  | .intervalsOverlap start stop nextStart nextStop =>
    s!"closed_intervals_utc overlap: prev={start}..{stop} cur={nextStart}..{nextStop}"
  | .intervalsNotList => "closed_intervals_utc must be a list"
  | .intervalNotList index => s!"closed_intervals_utc[{index}] must be a list"
  | .intervalNotPair index => s!"closed_intervals_utc[{index}] must hold exactly 2 values"
  | .boundNotInteger index position =>
    s!"closed_intervals_utc[{index}][{position}] must be int"
  | .notDate index raw => s!"holidays[{index}] {quoted raw}"
  | .profilesNotJson => "calendar overrides are not valid JSON"
  | .profilesNotList => "calendar overrides must be a list of profiles"
  | .profileShape index => s!"profile[{index}]"
  | .repeatedTag tag => s!"duplicate calendar_tag: {tag}"
  | .unknownTag tag => s!"unknown calendar_tag: {tag}"
  | .unreadableProfiles path => s!"cannot read {path}"
  | .blankTag => "calendar_tag must be non-empty"
  | .blankZone tag => s!"tz_name must be non-empty for {tag}"
  | .breakNotGiven tag =>
    s!"{tag}: need daily_break_start + daily_break_minutes (or legacy daily_break_local)"
  | .breakNotPositive tag => s!"{tag}: daily_break_minutes must be > 0"
  | .noLeastIntervals tag => s!"{tag}: holiday_policy.min_intervals must be > 0"
  | .policyMissing tag => s!"{tag}: holiday_policy is missing"
  | .tooFewIntervals tag count least =>
    s!"{tag}: closed_intervals_utc below minimum ({count} < {least})"
  | .coverageMismatch tag declared found =>
    s!"{tag}: coverage_end_utc {declared} must equal max(end_ms) {found}"
  | .coverageTooShort tag days =>
    s!"{tag}: coverage_end_utc does not cover min_future_days={days}"
  | .unreadableSettings path => s!"cannot read config {path}"
  | .zeroCacheBars => "cache_max_bars must be > 0"
  | .badVariable name raw =>
    s!"Invalid value for environment variable {name}: {quoted raw}"
  | .unhealthyCalendar tag reason => s!"rebuilt calendar {tag} is unhealthy: {reason}"

/-- Whatever an operation may fail with. -/
inductive Fault where
  /-- The data broke a rule. -/
  | contract (cause : Violation)
  /-- The input is malformed. -/
  | input (cause : Misuse)
  /-- A file or directory could not be used. -/
  | io
  /-- The table could not be opened or read as text. -/
  | csv
  /-- A JSON text could not be read. -/
  | json
  /-- The settings are not of the form that settings have. -/
  | toml
  /-- The file of the archive could not be used. -/
  | database
deriving DecidableEq

/-- The wording of a fault, with its class in front. -/
def Fault.message : Fault → String
  | .contract cause => "contract violation: " ++ cause.message
  | .input cause => "invalid input: " ++ cause.message
  | .io => "I/O error"
  | .csv => "csv error"
  | .json => "json error"
  | .toml => "toml error"
  | .database => "database error"

/-- An operation that gives a value or a fault. -/
abbrev Outcome (α : Type) := Except Fault α

/-- Fails with a broken rule. -/
def violated {α : Type} (cause : Violation) : Outcome α :=
  .error (.contract cause)

/-- Fails with malformed input. -/
def misused {α : Type} (cause : Misuse) : Outcome α :=
  .error (.input cause)

end MarketBook
