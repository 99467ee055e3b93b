/-
Module: MarketBook.Json.Record
Purpose: Records read from JSON, by the names of their fields or by their order.
Main exports:
  Json.Shape, Json.Shape.fields?
-/
import MarketBook.Json.Basic

namespace MarketBook.Json

/-!
A record is an object with its fields at their names, or an array of all its fields in their order.
A field may have an older name beside its present one, but a record that uses both is refused.
-/

/-- The fields of a record, each by its names, and whether other names are refused. -/
structure Shape where
  fields : List (List String)
  closed : Bool

/-- What stands at any of the names: nothing, one value, or a refusal of more. -/
def valueAt? (fields : List (String × Json)) (names : List String) : Option (Option Json) :=
  match names.filterMap (field? · fields) with
  | [] => some none
  | [v] => some (some v)
  | _ => none

/-- What stands at each of several fields. -/
def valuesAt? (fields : List (String × Json)) : List (List String) → Option (List (Option Json))
  | [] => some []
  | names :: r => do return (← valueAt? fields names) :: (← valuesAt? fields r)

/-- The values of the fields in their order, absent ones marked as such. -/
def Shape.fields? (s : Shape) : Json → Option (List (Option Json))
  | .obj fields =>
    if s.closed && !fields.all (fun f => s.fields.any (·.contains f.1)) then none
    else valuesAt? fields s.fields
  | .arr items => if items.length = s.fields.length then some (items.map some) else none
  | _ => none

/-- An optional field: absent and null are the same, and any other value has to be read. -/
def optional? (read? : Json → Option α) : Option Json → Option (Option α)
  | none | some .null => some none
  | some v => (read? v).map some

/-- A field that has to be there. -/
def required? (read? : Json → Option α) (v : Option Json) : Option α :=
  v.bind read?

end MarketBook.Json
