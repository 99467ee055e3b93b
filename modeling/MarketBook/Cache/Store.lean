/-
Module: MarketBook.Cache.Store
Purpose: The operations of a cache on its two files.
Main exports:
  Session, BarCache.load, BarCache.loadWarmup, BarCache.append, BarCache.mergeAndTrim,
  BarCache.save, BarCache.appendStream, BarCache.markPublished, BarCache.setHeartbeat
-/
import MarketBook.Bar.Admission
import MarketBook.Cache.Basic
import MarketBook.Cache.Table
import MarketBook.Disk.Publish
import MarketBook.Time.Instant

namespace MarketBook

open Device Text Time

/-!
The work goes in steps: load both files, append bars, merge them, save both files.  Only a save
touches the disk, and it replaces the rows before the metadata, so that no reader finds metadata of
rows that are not there.  An operation that fails leaves memory and disk as they were at the point
of its failure; a load or an append that fails leaves them as they were before it.
-/

/-- A cache at work on a device. -/
structure Session where
  cache : BarCache
  device : Device
deriving DecidableEq

namespace BarCache

/-- Operations of a cache, with a value or the reason of their end. -/
abbrev Op (α : Type) := ExceptT Halt (StateM Session) α

/-- The cache. -/
def self : Op BarCache := do
  return (← get).cache

/-- Changes the cache in memory. -/
def change (f : BarCache → BarCache) : Op Unit :=
  modify fun s => { s with cache := f s.cache }

/-- An operation of the device. -/
def onDevice {α : Type} (act : Device.Act α) : Op α := fun s =>
  let (r, d) := act.run s.device
  (r, { s with device := d })

/-- Ends with a fault, or goes on with a value. -/
def require {α : Type} (r : Outcome α) : Op α :=
  onDevice (Device.ofOutcome r)

/-- The metadata on the disk; blank where there is no file. -/
def readMeta (c : BarCache) : Device.Act CacheMeta := do
  match ← readText? c.metaPlace with
  | none => pure .blank
  | some text => ofOutcome (CacheMeta.read text)

/-- The rows on the disk; none where there is no file. -/
def readRows (c : BarCache) : Device.Act (List Bar) := do
  match ← withFault .csv (readFile? c.tablePlace) with
  | none => pure []
  | some content => ofOutcome (Table.read c.binding c.tablePlace.shown content)

/-- The cache as both files have it.  Pending bars are dropped, and a heartbeat that is not yet
written stays. -/
def withFiles (c : BarCache) (m : CacheMeta) (rows : List Bar) : BarCache :=
  { c with
    metadata := { m with heartbeat := c.heartbeat.getD m.heartbeat }
    rows := rows
    pending := []
    isLoaded := true }

/-- Reads both files. -/
def load : Op Unit := do
  let c ← self
  let m ← onDevice c.readMeta
  let rows ← onDevice c.readRows
  change (·.withFiles m rows)

/-- The newest rows on the disk for a quick start, read without a change in memory. -/
def loadWarmup : Op (List Bar) := do
  let c ← self
  let rows ← onDevice c.readRows
  return if c.warmupBars = 0 then rows else Rows.trim c.warmupBars rows

/-- The bars that JSON values describe, all or none. -/
def acceptAll (binding : Binding) : List Json → Outcome (List Bar)
  | [] => .ok []
  | j :: r => do return (← Bar.accept binding.symbol binding.tf j) :: (← acceptAll binding r)

/-- Puts bars among the pending ones; one bad bar refuses them all. -/
def append (incoming : List Json) : Op Nat := do
  let c ← self
  let bars ← require (acceptAll c.binding incoming)
  change fun c => { c with pending := c.pending ++ bars }
  return bars.length

/-- The cache after its pending bars were merged into the rows, with the report of it. -/
def merged (c : BarCache) (limit : Option Nat) : Outcome (BarCache × Report) := do
  let m := Rows.merge c.rows c.pending
  let most := limitOr c.maxBars limit
  let rows := Rows.trim most m.rows
  Rows.requireAscending rows
  return ({ c with rows := rows, pending := [] },
    { inserted := rows.length - c.rows.length
      duplicates := m.duplicates
      total := rows.length
      trimmed := m.rows.length - rows.length })

/-- Merges the pending bars into the rows and keeps the newest ones, up to a limit of its own or
else that of the cache. -/
def mergeAndTrim (limit : Option Nat) : Op Report := do
  let c ← self
  match c.merged limit with
  | .ok (c', report) =>
    change fun _ => c'
    return report
  | .error cause =>
    change fun c => { c with rows := [], pending := [] }
    throw (.fault cause)

/-- The metadata of the rows in memory, as a save at an instant writes them. -/
def metaToSave (c : BarCache) (now : Int) : CacheMeta :=
  { rows := c.rows.length
    lastCloseTime := (c.rows.getLast?.map (·.closeTime)).getD 0
    lastRefresh := isoText now
    heartbeat := c.heartbeat.getD c.metadata.heartbeat
    watermark := c.metadata.watermark
    symbol := some c.binding.symbol
    tf := some c.binding.tf }

/-- Writes the rows and then the metadata.  A cache that was never loaded is not written: it would
replace the file by whatever is in memory. -/
def save (now : Int) : Op Unit := do
  let c ← self
  if !c.isLoaded then require (misused .saveBeforeLoad)
  let m := c.metaToSave now
  change fun c => { c with metadata := m, heartbeat := none }
  onDevice (publishContent c.tablePlace (Table.write c.rows))
  onDevice (publishContent c.metaPlace (encode m.write))

/-- Loads, appends, merges and saves.  The heartbeat becomes the present instant unless one was
set. -/
def appendStream (incoming : List Json) (now : Int) : Op Report := do
  load
  let _ ← append incoming
  let report ← mergeAndTrim none
  change fun c => { c with heartbeat := some (c.heartbeat.getD now) }
  save now
  return report

/-- Records that bars were published up to an open time, and saves that. -/
def markPublished (opened now : Int) : Op Unit := do
  let _ ← require (requireRails "last_published_open_time_ms" opened)
  if !(← self).isLoaded then load
  change fun c => { c with metadata := { c.metadata with watermark := opened } }
  save now

/-- Sets the heartbeat that the next save writes; a load before it leaves it alone. -/
def setHeartbeat (ms : Int) : Op Unit :=
  change fun c =>
    { c with heartbeat := some ms, metadata := { c.metadata with heartbeat := ms } }

end BarCache

end MarketBook
