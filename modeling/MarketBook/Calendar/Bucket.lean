/-
Module: MarketBook.Calendar.Bucket
Purpose: Buckets that follow the trading day where a bar covers a day.
Main exports:
  Calendar.bucketOpen, Calendar.bucketClose
-/
import MarketBook.Bucket
import MarketBook.Calendar.Query

namespace MarketBook.Calendar

open Time

/-- The start of the bucket that holds the instant: of a day bar, the start of the trading day of
the calendar; of every other bar, the aligned start. -/
def bucketOpen (tf : Timeframe) (ts : Int) (calendar : Option Calendar) : Checked (Outcome Int) :=
  match tf, calendar with
  | .d1, some c => return .ok (← c.dayBoundary ts)
  | .d1, none => return misused .calendarRequired
  | _, _ => return .ok (← Bucket.openOf tf ts)

/-- The last instant of a bucket that opened at an instant: of a day bar, the one before the next
trading day. -/
def bucketClose (tf : Timeframe) (opened : Int) (calendar : Option Calendar) :
    Checked (Outcome Int) :=
  match tf, calendar with
  | .d1, some c => return .ok (← checkWord ((← c.nextDayBoundary opened) - 1))
  | .d1, none => return misused .calendarRequired
  | _, _ => return .ok (← Bucket.lastOf tf opened)

end MarketBook.Calendar
