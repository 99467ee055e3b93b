/-
Module: MarketBook.Proofs.JsonRecords
Purpose: What is read from the fields of records, whatever their order.
Main exports:
  Json.required?_eq_some, Json.optional?_some, Json.get?_ofFields, Json.fields?_ofFields
-/
import MarketBook.Json.Record
import MarketBook.Proofs.Outcomes

namespace MarketBook.Json

open Text

/-!
A reader of a record asks what stands at its keys, never where.  So a record is read from an object as
it was made, although reading the text of the object puts its fields in order.
-/

variable {fields : List (String × Json)}

/-! ### Values of one field -/

theorem asInt64?_fits {j : Json} {n : Int} (h : j.asInt64? = some n) : isSigned64 n = true :=
  (Option.filter_eq_some_iff.1 h).2

theorem asInt64?_int {n : Int} (fits : isSigned64 n = true) : asInt64? (.int n) = some n := by
  simp [asInt64?, asInteger?, fits]

theorem asNatBelow?_fits {limit n : Nat} {j : Json} (h : j.asNatBelow? limit = some n) :
    n < limit := by
  obtain ⟨i, found, rfl⟩ := Option.map_eq_some_iff.1 h
  have inRange := (Option.filter_eq_some_iff.1 found).2
  simp only [Bool.and_eq_true, decide_eq_true_eq, Int.ofNat_eq_natCast] at inRange
  omega

theorem asNatBelow?_ofNat {limit n : Nat} (fits : n < limit) :
    asNatBelow? limit (ofNat n) = some n := by
  simp [asNatBelow?, ofNat, asInteger?, Option.filter_some, fits]

theorem required?_eq_some {α : Type} {read? : Json → Option α} {v : Option Json} {a : α} :
    required? read? v = some a ↔ ∃ j, v = some j ∧ read? j = some a :=
  Option.bind_eq_some_iff

theorem optional?_some {α : Type} {read? : Json → Option α} {v : Option Json} {a : α}
    (h : optional? read? v = some (some a)) : ∃ j, v = some j ∧ read? j = some a := by
  unfold optional? at h
  split at h
  · cases h
  · cases h
  · obtain ⟨b, found, same⟩ := Option.map_eq_some_iff.1 h
    cases same
    exact ⟨_, rfl, found⟩

theorem optional?_of_read {α : Type} {read? : Json → Option α} {v : Json} {a : α}
    (value : v ≠ .null) (read : read? v = some a) :
    optional? read? (some v) = some (some a) := by
  unfold optional?
  split
  case h_1 absent => cases absent
  case h_2 null => exact absurd (Option.some.inj null) value
  case h_3 same =>
    cases same
    rw [read]
    rfl

/-! ### Fields put in order -/

theorem field?_cons (key : String) (f : String × Json) (fields : List (String × Json)) :
    field? key (f :: fields) = if f.1 = key then some f.2 else field? key fields := by
  unfold field?
  by_cases same : f.1 = key
  · simp [same]
  · simp [same]

theorem field?_insertField (key k : String) (v : Json) (fields : List (String × Json)) :
    field? k (insertField key v fields) = if key = k then some v else field? k fields := by
  induction fields with
  | nil => exact field?_cons k (key, v) []
  | cons f r ih =>
      unfold insertField
      split
      case isTrue same =>
        rw [field?_cons, field?_cons, ← same]
        split
        · rfl
        · rfl
      case isFalse other =>
        split
        · exact field?_cons k (key, v) (f :: r)
        · rw [field?_cons, field?_cons, ih]
          by_cases first : f.1 = k
          · rw [if_pos first, if_pos first, if_neg]
            rintro rfl
            exact other first.symm
          · rw [if_neg first, if_neg first]

/-- Fields with keys of their own are found after they were put in order. -/
theorem get?_ofFields (distinct : (fields.map (·.1)).Nodup) (key : String) :
    (ofFields fields).get? key = field? key fields := by
  have fold : ∀ done, field? key (fields.foldl (fun done f => insertField f.1 f.2 done) done) =
      (field? key fields).or (field? key done) := by
    induction fields with
    | nil => exact fun _ => rfl
    | cons f r ih =>
        intro done
        rw [List.map_cons, List.nodup_cons] at distinct
        rw [List.foldl_cons, ih distinct.2, field?_insertField, field?_cons]
        by_cases same : f.1 = key
        · have nowhere : field? key r = none := by
            unfold field?
            rw [Option.map_eq_none_iff, List.find?_eq_none]
            intro g inside here
            rw [beq_iff_eq] at here
            exact distinct.1 (List.mem_map.2 ⟨g, inside, here.trans same.symm⟩)
          rw [if_pos same, if_pos same, nowhere]
          rfl
        · rw [if_neg same, if_neg same]
  change field? key (fields.foldl (fun done f => insertField f.1 f.2 done) []) = _
  rw [fold]
  exact Option.or_none

/-! ### Records -/

/-- At every key of a record the same value stands, or none. -/
theorem valuesAt?_congr {other : List (String × Json)}
    (same : ∀ key, field? key fields = field? key other) (names : List (List String)) :
    valuesAt? fields names = valuesAt? other names := by
  induction names with
  | nil => rfl
  | cons n r ih => simp only [valuesAt?, valueAt?, same, ih]

theorem all_keys_iff (known : String → Bool) :
    fields.all (fun f => known f.1) = true ↔
      ∀ key v, field? key fields = some v → known key = true := by
  rw [List.all_eq_true]
  constructor
  · intro all key v found
    obtain ⟨f, first, rfl⟩ := Option.map_eq_some_iff.1 found
    have here : f.1 = key := by simpa using List.find?_some first
    exact here ▸ all f (List.mem_of_find?_eq_some first)
  · intro all f inside
    cases found : field? f.1 fields with
    | some v => exact all f.1 v found
    | none =>
        rw [field?, Option.map_eq_none_iff, List.find?_eq_none] at found
        exact absurd (beq_self_eq_true f.1) (found f inside)

/-- A record is read from an object as from any other with the same value at every key. -/
theorem fields?_congr {other : List (String × Json)}
    (same : ∀ key, field? key fields = field? key other) (s : Shape) :
    s.fields? (.obj fields) = s.fields? (.obj other) := by
  have keys : fields.all (fun f => s.fields.any (·.contains f.1)) =
      other.all (fun f => s.fields.any (·.contains f.1)) := by
    rw [Bool.eq_iff_iff, all_keys_iff fun key => s.fields.any (·.contains key),
      all_keys_iff fun key => s.fields.any (·.contains key)]
    simp only [same]
  simp only [Shape.fields?, keys, valuesAt?_congr same]

/-- The order of its fields makes no difference to a record. -/
theorem fields?_ofFields (s : Shape) (distinct : (fields.map (·.1)).Nodup) :
    s.fields? (ofFields fields) = s.fields? (.obj fields) :=
  fields?_congr (get?_ofFields distinct) s

end MarketBook.Json
