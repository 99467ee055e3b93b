/-
Module: MarketBook.Disk.Place
Purpose: Paths as users write them: a text that is read from a working directory.
Main exports:
  Place, Place.ofText, Place.name?, Place.child, Place.parent, Place.beside, Place.fits
-/
import MarketBook.Disk.Basic

namespace MarketBook

/-!
A text leads through directories step by step.  Between its slashes stand names and two dots for the
directory above; a dot and nothing at all lead nowhere.  Where two dots lead is known only to a
disk, because what stands before them has to be a directory.
-/

namespace Place

/-- What a text has behind its last step. -/
inductive Ending where
  | none
  /-- A slash, so that only a directory can be meant. -/
  | slash
  /-- A dot, which stands for a directory that is there. -/
  | dot
deriving DecidableEq

end Place

/-- A path as it is written. -/
structure Place where
  /-- The text, which the system gets and messages show. -/
  shown : String
  /-- The steps from the root. -/
  steps : List String
  ending : Place.Ending
deriving DecidableEq

namespace Place

/-- A step to the directory above. -/
def up : String := ".."

/-- The piece of a text leads nowhere. -/
def isIdle (piece : String) : Bool :=
  piece == "" || piece == "."

/-- The ending of a text that is cut at its slashes. -/
def endingOf (pieces : List String) : Ending :=
  match (pieces.filter (· != "")).getLast? with
  | some "." => .dot
  | _ => if pieces.getLast? == some "" then .slash else .none

/-- Characters cut at every slash. -/
def cutAtSlashes : List Char → List (List Char)
  | [] => [[]]
  | c :: r =>
    if c = '/' then [] :: cutAtSlashes r
    else match cutAtSlashes r with
      | [] => [[c]]
      | piece :: more => (c :: piece) :: more

/-- The pieces of a text between its slashes. -/
def piecesOf (text : String) : List String :=
  (cutAtSlashes text.toList).map String.ofList

/-- The place that a text names from a working directory. -/
def ofText (workingDir : Disk.Path) (text : String) : Place :=
  let start := if text.toList.head? = some '/' then [] else workingDir
  let pieces := piecesOf text
  ⟨text, start ++ pieces.filter (!isIdle ·), endingOf pieces⟩

/-- The name of what stands at the place, if the last step is one. -/
def name? (p : Place) : Option String :=
  p.steps.getLast?.filter (· != up)

/-- The text without its last step, and without what leads nowhere on either side of it. -/
def textAbove (text : String) : String :=
  let kept := ((piecesOf text).reverse.dropWhile isIdle).tail.dropWhile isIdle
  String.intercalate "/" kept.reverse

/-- The place without its last step. -/
def parent (p : Place) : Place :=
  ⟨textAbove p.shown, p.steps.dropLast, .none⟩

/-- The place of a name inside a directory. -/
def child (p : Place) (name : String) : Place :=
  ⟨if p.shown = "" ∨ p.shown.toList.getLast? = some '/' then p.shown ++ name
    else p.shown ++ "/" ++ name, p.steps ++ [name], .none⟩

/-- The place of another name in the directory of this one. -/
def beside (p : Place) (name : String) : Place :=
  (if p.name?.isSome then p.parent else p).child name

/-- The longest text of a path, in octets. -/
def maxSize : Nat := 4095

/-- The text is short enough and holds no NUL. -/
def fits (p : Place) : Bool :=
  p.shown.utf8ByteSize ≤ maxSize && !p.shown.toList.any fun c => c.toNat == 0

end Place

end MarketBook
