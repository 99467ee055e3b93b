/-
Module: MarketBook.Bar.Symbol
Purpose: The normal form of an instrument's symbol.
Main exports:
  Symbol.normalize
-/
import MarketBook.Fault
import MarketBook.Text.Blank
import MarketBook.Text.Upper

namespace MarketBook.Symbol

open Text

/-- The characters that a symbol drops. -/
def isSeparator (c : Char) : Bool :=
  c == '/' || c == ' '

/-- The symbol in upper case without slashes and spaces, so that `xau/usd` becomes `XAUUSD`. -/
def strip (raw : String) : String :=
  String.ofList ((raw.toList.flatMap upperChar).filter (!isSeparator ·))

/-- The normal form of a symbol; a blank symbol, and one of slashes and spaces alone, has none. -/
def normalize (raw : String) : Outcome String :=
  if allBlank raw then misused .blankSymbol
  else if strip raw == "" then misused (.vanishingSymbol raw)
  else .ok (strip raw)

end MarketBook.Symbol
