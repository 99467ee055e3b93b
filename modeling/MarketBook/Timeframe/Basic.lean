/-
Module: MarketBook.Timeframe.Basic
Purpose: The six widths a bar may have, and their canonical labels.
Main exports:
  Timeframe, Timeframe.ms, Timeframe.label, Timeframe.ofLabel?
-/

namespace MarketBook

/-- The width of a bar. -/
inductive Timeframe where
  | m1
  | m5
  | m15
  | h1
  | h4
  | d1
deriving DecidableEq

namespace Timeframe

/-- Every width, the shortest first. -/
def all : List Timeframe := [.m1, .m5, .m15, .h1, .h4, .d1]

/-- The width in milliseconds. -/
def ms : Timeframe → Int
  | .m1 => 60000
  | .m5 => 300000
  | .m15 => 900000
  | .h1 => 3600000
  | .h4 => 14400000
  | .d1 => 86400000

/-- The canonical label. -/
def label : Timeframe → String
  | .m1 => "1m"
  | .m5 => "5m"
  | .m15 => "15m"
  | .h1 => "1h"
  | .h4 => "4h"
  | .d1 => "1d"

/-- The width with this canonical label; aliases have none. -/
def ofLabel? (s : String) : Option Timeframe :=
  all.find? (·.label == s)

theorem label_injective {a b : Timeframe} (h : a.label = b.label) : a = b := by
  cases a <;> cases b <;> first | rfl | exact absurd h (by decide)

theorem ofLabel?_label (tf : Timeframe) : ofLabel? tf.label = some tf := by
  cases tf <;> decide

end Timeframe

end MarketBook
