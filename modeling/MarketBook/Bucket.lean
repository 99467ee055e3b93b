/-
Module: MarketBook.Bucket
Purpose: Buckets of fixed width, aligned to the first of 1970, and the shape of a bar's times.
Main exports:
  Bucket.openOf, Bucket.lastOf, Bucket.closeOf, Bucket.requireGeometry
-/
import MarketBook.Fault
import MarketBook.Time.Checked

namespace MarketBook.Bucket

/-- The start of the bucket that holds the instant. -/
def openOf (tf : Timeframe) (ts : Int) : Checked Int :=
  Time.checkWord (ts - ts % tf.ms)

/-- The last instant of the bucket that starts at an instant. -/
def lastOf (tf : Timeframe) (opened : Int) : Checked Int := do
  return (← Time.checkWord (opened + tf.ms)) - 1

/-- The last instant of the bucket that holds the instant. -/
def closeOf (tf : Timeframe) (ts : Int) : Checked Int := do
  lastOf tf (← openOf tf ts)

/-- A bar opens where a bucket starts and closes at the last instant of the same bucket. -/
def requireGeometry (tf : Timeframe) (opened closed : Int) : Outcome Unit :=
  if opened % tf.ms ≠ 0 then violated (.misaligned tf opened)
  else if closed ≠ opened + tf.ms - 1 then violated (.wrongClose (opened + tf.ms - 1) closed)
  else .ok ()

theorem requireGeometry_eq_ok {tf : Timeframe} {opened closed : Int} :
    requireGeometry tf opened closed = .ok () ↔
      opened % tf.ms = 0 ∧ closed = opened + tf.ms - 1 := by
  unfold requireGeometry violated
  split
  · simp_all
  · split <;> simp_all

end MarketBook.Bucket
