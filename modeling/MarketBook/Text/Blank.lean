/-
Module: MarketBook.Text.Blank
Purpose: White space of every script, and the text that is left when its ends are cleared of it.
Main exports:
  isBlank, trimChars, trim, allBlank
-/

namespace MarketBook.Text

/-!
White space is the property of that name in Unicode: twenty-five characters.  The zero-width space
U+200B and the byte order mark U+FEFF do not have it, so they survive trimming.
-/

/-- White space: the ASCII controls of layout, and the spaces and separators of Unicode. -/
def isBlank (c : Char) : Bool :=
  let n := c.toNat
  (0x9 ≤ n && n ≤ 0xD) || n == 0x20 || n == 0x85 || n == 0xA0 || n == 0x1680 ||
    (0x2000 ≤ n && n ≤ 0x200A) || n == 0x2028 || n == 0x2029 || n == 0x202F || n == 0x205F ||
    n == 0x3000

/-- The characters between the white space at the two ends. -/
def trimChars (cs : List Char) : List Char :=
  ((cs.dropWhile isBlank).reverse.dropWhile isBlank).reverse

/-- The text between the white space at its two ends. -/
def trim (s : String) : String :=
  String.ofList (trimChars s.toList)

/-- A text of white space only, the empty text included. -/
def allBlank (s : String) : Bool :=
  s.toList.all isBlank

end MarketBook.Text
