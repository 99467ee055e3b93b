/-
Module: MarketBook.Cache.Basic
Purpose: The cache of one instrument and timeframe as it is held in memory, and what can be asked of
  it there.
Main exports:
  BarCache, BarCache.create, BarCache.newest, BarCache.unseen, BarCache.summary
-/
import MarketBook.Bar.Rows
import MarketBook.Bar.Symbol
import MarketBook.Cache.Binding
import MarketBook.Cache.Meta
import MarketBook.Disk.Place

namespace MarketBook

/-!
A cache holds the newest complete bars of its binding.  Bars that were handed in wait as pending
until they are merged into the rows.  The watermark in the metadata says up to where bars were
published, and the heartbeat is a sign of life that the next save will write.
-/

/-- The cache of one binding. -/
structure BarCache where
  directory : Place
  binding : Binding
  /-- The greatest number of rows after a merge. -/
  maxBars : Nat
  /-- The number of rows for a quick start; zero stands for all. -/
  warmupBars : Nat
  rows : List Bar
  pending : List Bar
  metadata : CacheMeta
  /-- A heartbeat that is not yet written. -/
  heartbeat : Option Int
  isLoaded : Bool
deriving DecidableEq

namespace BarCache

/-- A cache that has read nothing yet. -/
def create (directory : Place) (symbol : String) (tf : Timeframe) (maxBars warmupBars : Nat) :
    Outcome BarCache :=
  if maxBars = 0 then misused .zeroMaxBars
  else do
    let symbol ← Symbol.normalize symbol
    return {
      directory := directory
      binding := ⟨symbol, tf⟩
      maxBars := maxBars
      warmupBars := warmupBars
      rows := []
      pending := []
      metadata := .blank
      heartbeat := none
      isLoaded := false }

/-- The file of rows. -/
def tablePlace (c : BarCache) : Place :=
  c.directory.child c.binding.tableName

/-- The file of metadata. -/
def metaPlace (c : BarCache) : Place :=
  c.directory.child c.binding.metaName

/-- A limit, unless it is missing or zero. -/
def limitOr (standard : Nat) (limit : Option Nat) : Nat :=
  (limit.filter (0 < ·)).getD standard

/-- The row opens within bounds that may be missing. -/
def opensWithin (since untilTime : Option Int) (b : Bar) : Bool :=
  since.all (· ≤ b.openTime) && untilTime.all (b.openTime ≤ ·)

/-- The newest rows within bounds, up to a number of them. -/
def newest (c : BarCache) (limit : Nat) (since untilTime : Option Int) : List Bar :=
  Rows.trim limit (c.rows.filter (opensWithin since untilTime))

/-- How many rows a subscriber gets at most. -/
def sliceLimit (c : BarCache) (limit : Option Nat) : Nat :=
  limitOr (limitOr c.maxBars (some c.warmupBars)) limit

/-- The rows behind the watermark; all rows where nothing was published. -/
def unpublished (c : BarCache) : List Bar :=
  if c.metadata.watermark ≤ 0 then c.rows
  else c.rows.dropWhile fun b => b.openTime ≤ c.metadata.watermark

/-- The newest rows that a subscriber has not seen, or with `force` the newest rows whether seen or
not. -/
def unseen (c : BarCache) (force : Bool) (limit : Option Nat) : List Bar :=
  Rows.trim (c.sliceLimit limit) (if force then c.rows else c.unpublished)

/-- What operators see of a cache. -/
structure Summary where
  binding : Binding
  rows : Nat
  lastCloseTime : Int
deriving DecidableEq

/-- The number of rows, and the last close as the metadata have it. -/
def summary (c : BarCache) : Summary :=
  ⟨c.binding, c.rows.length, c.metadata.lastCloseTime⟩

/-- A summary as a JSON object. -/
def Summary.toJson (s : Summary) : Json :=
  .obj [
    ("symbol", .str s.binding.symbol),
    ("tf", .str s.binding.tf.label),
    ("rows", .ofNat s.rows),
    ("last_close_time_ms", .int s.lastCloseTime)]

/-- What a merge has done. -/
structure Report where
  /-- By how many the rows have grown. -/
  inserted : Nat
  /-- How many bars took the place of a row or of an earlier bar. -/
  duplicates : Nat
  /-- How many rows there are. -/
  total : Nat
  /-- How many of the oldest rows were dropped. -/
  trimmed : Nat
deriving DecidableEq

/-- A report as a JSON object. -/
def Report.toJson (r : Report) : Json :=
  .obj [
    ("inserted", .ofNat r.inserted),
    ("duplicates", .ofNat r.duplicates),
    ("total", .ofNat r.total),
    ("trimmed", .ofNat r.trimmed)]

end BarCache

end MarketBook
