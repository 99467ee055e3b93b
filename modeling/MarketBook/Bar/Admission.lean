/-
Module: MarketBook.Bar.Admission
Purpose: The gate through which a loosely typed JSON object becomes a bar of one instrument and
  timeframe.
Main exports:
  Bar.accept
-/
import MarketBook.Bar.Basic
import MarketBook.Bar.Symbol
import MarketBook.Bucket
import MarketBook.Decimal.Reader
import MarketBook.Time.Rails
import MarketBook.Timeframe.Reader

namespace MarketBook.Bar

open Decimal Text Time

/-!
An object may name its symbol and timeframe; if it names them as texts they must be those of the
cache.  Each of its two times stands at one of two keys, and the longer key counts first.  Prices
are numbers or texts of numbers; the volume and the tick count may be missing.  Only bars that are
marked complete pass.
-/

/-- The symbol that the object names, if any, is the expected one. -/
def requireSymbol (symbol : String) (o : Json) : Outcome Unit :=
  match (o.get? "symbol").bind Json.asText? with
  | none => .ok ()
  | some raw =>
    match Symbol.normalize raw with
    | .error e => .error e
    | .ok found => if found = symbol then .ok () else violated (.foreignSymbol found symbol)

/-- The timeframe that the object names, if any, is the expected one. -/
def requireTimeframe (tf : Timeframe) (o : Json) : Outcome Unit :=
  match (o.get? "tf").bind Json.asText? with
  | none => .ok ()
  | some raw =>
    match Timeframe.read raw with
    | .error e => .error e
    | .ok found => if found = tf then .ok () else violated (.foreignTimeframe found tf)

/-- The value at a key, or else at its shorter form. -/
def timeField (name short : String) (o : Json) : Outcome Json :=
  match (o.get? name).or (o.get? short) with
  | some v => .ok v
  | none => violated (.timeMissing name)

/-- The word that a number or the text of a number stands for. -/
def number? : Json → Option Binary64
  | .int n => some (Binary64.ofInt n)
  | .float x => some x
  | .str s => read? (trim s)
  | _ => none

/-- A finite number. -/
def requireFinite (field : String) (v : Option Json) : Outcome Binary64 :=
  match (v.bind number?).filter (·.isFinite) with
  | some x => .ok x
  | none => violated (.notFinite field)

/-- The volume, zero where there is none. -/
def requireVolume (v : Option Json) : Outcome Binary64 :=
  match v with
  | none | some .null => .ok (Binary64.ofInt 0)
  | _ => requireFinite "volume" v

/-- The tick count, zero where there is none. -/
def requireTicks (v : Option Json) : Outcome Nat :=
  match v with
  | none | some .null => .ok 0
  | some (.int n) => if 0 ≤ n then .ok n.toNat else violated .ticksNegative
  | some (.bool _) => violated .ticksBool
  | some _ => violated .ticksNotInteger

/-- The object is marked as complete. -/
def isComplete (o : Json) : Bool :=
  match o.get? "complete" with
  | some (.bool b) => b
  | _ => false

/-- The value is an object. -/
def requireObject : Json → Outcome Unit
  | .obj _ => .ok ()
  | _ => violated .barNotObject

/-- The bar that an object describes, if it is one of this symbol and timeframe. -/
def accept (symbol : String) (tf : Timeframe) (o : Json) : Outcome Bar := do
  requireObject o
  requireSymbol symbol o
  requireTimeframe tf o
  let openField ← timeField "open_time_ms" "open_time" o
  let closeField ← timeField "close_time_ms" "close_time" o
  let openTime ← requireRailsJson "open_time_ms" openField
  let closeTime ← requireRailsJson "close_time_ms" closeField
  Bucket.requireGeometry tf openTime closeTime
  if !isComplete o then violated .incompleteBar
  let volume ← requireVolume (o.get? "volume")
  let opening ← requireFinite "open" (o.get? "open")
  let high ← requireFinite "high" (o.get? "high")
  let low ← requireFinite "low" (o.get? "low")
  let closing ← requireFinite "close" (o.get? "close")
  let ticks ← requireTicks (o.get? "tick_count")
  return { symbol, tf, openTime, closeTime, opening, high, low, closing, volume, ticks }

end MarketBook.Bar
