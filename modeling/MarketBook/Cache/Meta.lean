/-
Module: MarketBook.Cache.Meta
Purpose: The metadata beside a file of rows.
Main exports:
  CacheMeta, CacheMeta.read, CacheMeta.write
-/
import MarketBook.Fault
import MarketBook.Json.Printer
import MarketBook.Json.Reader
import MarketBook.Json.Record
import MarketBook.Timeframe.Reader

namespace MarketBook

/-- What is known about a file of rows: how many rows it has and when the last one closes, when it
was written, the last sign of life of the stream, and up to where bars were published.  Symbol and
timeframe are there for operators. -/
structure CacheMeta where
  rows : Nat
  lastCloseTime : Int
  lastRefresh : String
  heartbeat : Int
  watermark : Int
  symbol : Option String
  tf : Option Timeframe
deriving DecidableEq

namespace CacheMeta

/-- The only version there is. -/
def version : Nat := 1

/-- The metadata of no file. -/
def blank : CacheMeta := ⟨0, 0, "", 0, 0, none, none⟩

/-- The metadata as a JSON object; symbol and timeframe are left out where there are none. -/
def toJson (m : CacheMeta) : Json :=
  .obj ([
    ("version", .ofNat version),
    ("rows", .ofNat m.rows),
    ("last_close_time_ms", .int m.lastCloseTime),
    ("last_refresh_utc", .str m.lastRefresh),
    ("last_stream_heartbeat", .int m.heartbeat),
    ("last_published_open_time_ms", .int m.watermark)] ++
    (m.symbol.map fun s => ("symbol", Json.str s)).toList ++
    (m.tf.map fun tf => ("tf", Json.str tf.label)).toList)

/-- The metadata as the text of a file. -/
def write (m : CacheMeta) : String :=
  m.toJson.pretty ++ "\n"

/-- A field that may be missing, but not be of another kind. -/
def fieldOr (standard : α) (read? : Json → Option α) (key : String) (j : Json) : Option α :=
  match j.get? key with
  | none => some standard
  | some v => read? v

/-- The timeframe of a text. -/
def timeframeOfJson? (j : Json) : Option Timeframe :=
  j.asText?.bind fun s => (Timeframe.read s).toOption

/-- The metadata of an object of the right version. -/
def ofFields? (j : Json) : Option CacheMeta := do
  return {
    rows := ← fieldOr 0 Json.asNat64? "rows" j
    lastCloseTime := ← fieldOr 0 Json.asInt64? "last_close_time_ms" j
    lastRefresh := ← fieldOr "" Json.asText? "last_refresh_utc" j
    heartbeat := ← fieldOr 0 Json.asInt64? "last_stream_heartbeat" j
    watermark := ← fieldOr 0 Json.asInt64? "last_published_open_time_ms" j
    symbol := ← Json.optional? Json.asText? (j.get? "symbol")
    tf := ← Json.optional? timeframeOfJson? (j.get? "tf") }

/-- The object has the right version. -/
def requireVersion (j : Json) : Outcome Unit :=
  let found := (j.get? "version").bind Json.asNat64?
  if found = some version then .ok () else violated (.metaVersion found)

/-- The metadata that a JSON value holds; unknown fields are ignored. -/
def ofJson (j : Json) : Outcome CacheMeta :=
  match j with
  | .obj _ => do
    requireVersion j
    match ofFields? j with
    | some m => return m
    | none => violated .metaField
  | _ => violated .metaNotObject

/-- The metadata that a text holds. -/
def read (text : String) : Outcome CacheMeta :=
  match Json.read? text with
  | some j => ofJson j
  | none => violated .metaNotJson

end CacheMeta

end MarketBook
