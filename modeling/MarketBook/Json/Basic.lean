/-
Module: MarketBook.Json.Basic
Purpose: JSON values with exact integers, and objects as lists of fields.
Main exports:
  Json, Json.ofFields, Json.get?, Json.asInteger?, Json.ofNat
-/
import MarketBook.Decimal.Binary64
import MarketBook.Text.Numeral

namespace MarketBook

open Decimal

/-!
A number is an integer when it was written as one and fits in 64 bits, with or without sign; every
other number is a word of the binary format.  The two kinds stay apart, because an integer field
accepts no `5.0`.  The fields of an object that was read stand in ascending order of their keys, one
field for each key; an object made for writing has its fields in the order in which they are to be
written.
-/

/-- A JSON value. -/
inductive Json where
  | null
  | bool (value : Bool)
  | int (value : Int)
  | float (value : Binary64)
  | str (text : String)
  | arr (items : List Json)
  | obj (fields : List (String × Json))

namespace Json

/-- The fields with one more: a key that is there already keeps its place and takes the value. -/
def insertField (key : String) (value : Json) : List (String × Json) → List (String × Json)
  | [] => [(key, value)]
  | f :: r =>
    if key = f.1 then (key, value) :: r
    else if key < f.1 then (key, value) :: f :: r
    else f :: insertField key value r

/-- An object from fields in any order; of two fields of one key the later counts. -/
def ofFields (fields : List (String × Json)) : Json :=
  .obj (fields.foldl (fun done f => insertField f.1 f.2 done) [])

/-- The value at a key. -/
def field? (key : String) (fields : List (String × Json)) : Option Json :=
  (fields.find? (·.1 == key)).map (·.2)

/-- The value at a key of an object; nothing for a value of another kind. -/
def get? (key : String) : Json → Option Json
  | .obj fields => field? key fields
  | _ => none

/-- The text of a string value. -/
def asText? : Json → Option String
  | .str s => some s
  | _ => none

/-- The truth of a Boolean value. -/
def asBool? : Json → Option Bool
  | .bool b => some b
  | _ => none

/-- The integer of a value that was written as one. -/
def asInteger? : Json → Option Int
  | .int n => some n
  | _ => none

/-- An integer of 64 bits with sign. -/
def asInt64? (j : Json) : Option Int :=
  j.asInteger?.filter Text.isSigned64

/-- A natural number below the limit. -/
def asNatBelow? (limit : Nat) (j : Json) : Option Nat :=
  (j.asInteger?.filter fun n => 0 ≤ n && n < Int.ofNat limit).map Int.toNat

/-- A natural number of 64 bits. -/
def asNat64? : Json → Option Nat :=
  asNatBelow? Text.limit64

/-- The items of an array. -/
def asItems? : Json → Option (List Json)
  | .arr items => some items
  | _ => none

/-- A natural number as a value. -/
def ofNat (n : Nat) : Json := .int (Int.ofNat n)

/-- An optional value, with null for none. -/
def ofOption (encode : α → Json) : Option α → Json
  | none => .null
  | some a => encode a

end Json

end MarketBook
