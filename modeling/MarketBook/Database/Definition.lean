/-
Module: MarketBook.Database.Definition
Purpose: What the definition of a table says of its columns and its keys.
Main exports:
  Definition, Definition.ofStatement, Definition.valueAt?
-/
import MarketBook.Database.Tree
import MarketBook.Database.Word

namespace MarketBook.Database

/-!
The clauses of a definition are columns and conditions on the whole table.  A key is a list of
columns in which no two rows agree; it is declared as the primary key or as unique, at a column or
as a condition.  All names are in lower case here.

Two kinds of table store their rows in a manner of their own.  A single column of whole numbers that
is the primary key is the number of the row, and its place in the row is empty.  A table without
numbers of its rows stores the columns of its primary key first.
-/

/-- A table by its definition. -/
structure Definition where
  /-- The columns in the order in which they were declared. -/
  columns : List String
  /-- The columns in the order in which rows store them. -/
  stored : List String
  /-- The column that is the number of the row. -/
  numbered : Option String
  /-- The columns that need a value and have none of their own. -/
  required : List String
  keys : List (List String)

/-- A clause of a definition. -/
inductive Definition.Clause where
  | column (name : String) (isInteger isPrimary isUnique isDescending isRequired : Bool)
  | primary (columns : List String)
  | unique (columns : List String)
  /-- A condition that declares no key. -/
  | condition

namespace Definition

/-- The keywords that start a condition on the whole table. -/
def conditionWords : List String := ["constraint", "primary", "unique", "check", "foreign"]

/-- The keywords that end the type of a column. -/
def endWords : List String :=
  ["constraint", "primary", "not", "null", "unique", "check", "default", "collate", "references",
    "generated", "as"]

/-- The word is one of some keywords. -/
def isOneOf (keywords : List String) (w : Word) : Bool :=
  keywords.any w.isKeyword

/-- The columns in the first parentheses; what is said of their order is left out. -/
def columnsIn (words : List Word) : List String :=
  (Word.split (Word.group words).1).filterMap fun piece => piece.head?.bind Word.name?

/-- The clause of a condition. -/
def conditionOf (words : List Word) : Clause :=
  let words := if words.head?.any (·.isKeyword "constraint") then words.drop 2 else words
  if words.head?.any (·.isKeyword "primary") then .primary (columnsIn words)
  else if words.head?.any (·.isKeyword "unique") then .unique (columnsIn words)
  else .condition

/-- The clause of a column. -/
def columnOf (name : String) (words : List Word) : Clause :=
  let type := words.takeWhile fun w => !isOneOf endWords w
  let rest := Word.outside 0 (words.drop type.length)
  .column name (type.map Word.name? == [some "integer"]) (Word.hasPair "primary" "key" rest)
    (rest.any (·.isKeyword "unique")) (Word.hasPair "key" "desc" rest)
    (Word.hasPair "not" "null" rest && !rest.any (·.isKeyword "default"))

/-- The clause of its words. -/
def clauseOf? : List Word → Option Clause
  | [] => none
  | w :: r =>
    if isOneOf conditionWords w then some (conditionOf (w :: r))
    else w.name?.map fun name => columnOf name r

/-- The column that a clause declares. -/
def Clause.name? : Clause → Option String
  | .column name .. => some name
  | _ => none

/-- The key that a clause declares as the primary one. -/
def Clause.primary? : Clause → Option (List String)
  | .column name _ true _ _ _ => some [name]
  | .primary columns => some columns
  | _ => none

/-- The key that a clause declares as unique. -/
def Clause.unique? : Clause → Option (List String)
  | .column name _ _ true _ _ => some [name]
  | .unique columns => some columns
  | _ => none

/-- The column that a clause declares, if it needs a value and has none of its own. -/
def Clause.required? : Clause → Option String
  | .column name _ _ _ _ true => some name
  | _ => none

/-- The clause makes a column of whole numbers the number of the row, if it is the primary key. -/
def Clause.canNumber (column : String) : Clause → Bool
  | .column name true _ _ isDescending _ => name == column && !isDescending
  | _ => false

/-- The column that is the number of the row. -/
def numberedBy (clauses : List Clause) : Option String :=
  match clauses.findSome? Clause.primary? with
  | some [column] => if clauses.any (·.canNumber column) then some column else none
  | _ => none

/-- The definition of a statement that makes a table. -/
def ofStatement (statement : String) : Definition :=
  let (body, options) := Word.group (Word.ofText statement)
  let clauses := (Word.split body).filterMap clauseOf?
  let columns := clauses.filterMap Clause.name?
  let primary := (clauses.findSome? Clause.primary?).getD []
  let required := clauses.filterMap Clause.required?
  let keys := clauses.filterMap Clause.primary? ++ clauses.filterMap Clause.unique?
  if Word.hasPair "without" "rowid" options then
    let stored := primary.eraseDups ++ columns.filter (!primary.contains ·)
    ⟨columns, stored, none, primary ++ required, keys⟩
  else
    let numbered := numberedBy clauses
    ⟨columns, columns, numbered, required.filter (some · != numbered), keys⟩

/-- The value of a column in a row.  A row that was stored before the column was declared has none
there. -/
def valueAt? (d : Definition) (row : Row) (column : String) : Option Value :=
  if d.numbered = some column then some (.int row.number)
  else if d.stored.contains column then some (row.values.getD (d.stored.idxOf column) .null)
  else none

end Definition

end MarketBook.Database
