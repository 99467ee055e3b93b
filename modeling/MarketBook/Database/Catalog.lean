/-
Module: MarketBook.Database.Catalog
Purpose: What a database says it holds.
Main exports:
  Item, Image.catalog?, Catalog.table?
-/
import MarketBook.Database.Definition

namespace MarketBook.Database

open Text

/-!
The tree at the first page lists everything that is in the database: each table, index, view and
trigger with its name, the table it belongs to, the page at which its tree starts and the statement
that made it.  An index that belongs to a key of a table has no statement.
-/

/-- Something that is in a database. -/
structure Item where
  kind : String
  /-- Its name, in lower case. -/
  name : String
  /-- The name of the table it belongs to, in lower case. -/
  table : String
  root : Nat
  statement : Option String

/-- Everything that is in a database. -/
abbrev Catalog := List Item

/-- The item has no statement, or one that makes something. -/
def Item.isSound (e : Item) : Bool :=
  match e.statement with
  | some s => (lowerAscii s).startsWith "cr"
  | none => e.kind == "index"

/-- The statement of a value; none where it is empty. -/
def Item.statementOf? : Value → Option (Option String)
  | .text s => some (if s = "" then none else some s)
  | .null => some none
  | _ => none

/-- The item of a row. -/
def Item.ofRow? (pageCount : Nat) (row : Row) : Option Item :=
  match row.values with
  | .text kind :: .text name :: .text table :: .int root :: statement :: _ => do
    let e : Item :=
      ⟨kind, lowerAscii name, lowerAscii table, root.toNat, ← Item.statementOf? statement⟩
    if 0 ≤ root ∧ root.toNat ≤ pageCount ∧ e.isSound then some e else none
  | _ => none

/-- Everything that is in a database, if the list of it is sound. -/
def Image.catalog? (img : Image) : Option Catalog := do
  (← img.rows? 1).mapM (Item.ofRow? img.pageCount)

namespace Catalog

/-- The item of a name. -/
def find? (c : Catalog) (name : String) : Option Item :=
  List.find? (fun e => e.name == name && e.kind != "trigger") c

/-- The columns of an index that lets no two rows agree in them, whatever else they hold. -/
def uniqueColumns? (e : Item) : Option (List String) :=
  if e.kind != "index" then none
  else e.statement.bind fun statement =>
    let words := Word.ofText statement
    if Word.hasPair "create" "unique" words && !words.any (·.isKeyword "where") then
      some (Definition.columnsIn words)
    else none

/-- The definition of a table, with the keys that its indexes add; none for anything else. -/
def table? (c : Catalog) (e : Item) : Option Definition :=
  if e.kind != "table" then none
  else e.statement.map fun statement =>
    let d := Definition.ofStatement statement
    let more := (List.filter (·.table == e.name) c).filterMap uniqueColumns?
    { d with keys := d.keys ++ more }

end Catalog

end MarketBook.Database
