/-
Module: MarketBook.Cache.Binding
Purpose: The instrument and timeframe that a cache is bound to, and the files of that binding.
Main exports:
  Binding, Binding.tableName, Binding.metaName
-/
import MarketBook.Timeframe.Basic

namespace MarketBook

/-- The normal form of a symbol, and a timeframe. -/
structure Binding where
  symbol : String
  tf : Timeframe
deriving DecidableEq

namespace Binding

/-- The name that both files start with. -/
def stem (b : Binding) : String :=
  b.symbol ++ "_" ++ b.tf.label

/-- The name of the file of rows. -/
def tableName (b : Binding) : String :=
  b.stem ++ ".csv"

/-- The name of the file of metadata. -/
def metaName (b : Binding) : String :=
  b.stem ++ ".meta.json"

end Binding

end MarketBook
