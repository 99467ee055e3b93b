/-
Module: MarketBook.Proofs.JsonValues
Purpose: A value of texts, integers and truth values, printed over several lines, is read back with
  the fields of its objects put in order.
Main exports:
  Json.Printable, Json.ordered, Json.readValue_pretty, Json.read?_pretty
-/
import MarketBook.Proofs.JsonTexts

namespace MarketBook.Json

open Decimal Text

/-!
A value is read up to the end of its text, whatever follows it, if only a number cannot go on there.
What stands between two brackets is read part by part; the text of the parts is long enough as fuel
for all of them, because every part takes at least one character.
-/

/-- A value without fractions, whose integers have 64 bits and whose arrays and objects nest within
some levels. -/
inductive Printable : Nat → Json → Prop
  | null {levels : Nat} : Printable levels .null
  | bool {levels : Nat} (b : Bool) : Printable levels (.bool b)
  | int {levels : Nat} {n : Int} (fits : IsInteger64 n) : Printable levels (.int n)
  | str {levels : Nat} (s : String) : Printable levels (.str s)
  | arr {levels : Nat} {items : List Json} (all : ∀ j ∈ items, Printable levels j) :
      Printable (levels + 1) (.arr items)
  | obj {levels : Nat} {fields : List (String × Json)} (all : ∀ f ∈ fields, Printable levels f.2) :
      Printable (levels + 1) (.obj fields)

mutual

/-- The value with the fields of every object in the order in which they are read. -/
def ordered : Json → Json
  | .arr items => .arr (orderedItems items)
  | .obj fields => ofFields (orderedFields fields)
  | j => j

/-- The items of an array, each with its fields in order. -/
def orderedItems : List Json → List Json
  | [] => []
  | j :: r => ordered j :: orderedItems r

/-- The fields of an object, each with those of its value in order. -/
def orderedFields : List (String × Json) → List (String × Json)
  | [] => []
  | f :: r => orderedField f :: orderedFields r

/-- A field with those of its value in order. -/
def orderedField : String × Json → String × Json
  | (k, j) => (k, ordered j)

end

variable {levels depth level fuel : Nat} {j : Json} {items : List Json}
  {fields : List (String × Json)} {cs rest tail : List Char} {c : Char}

theorem ordered_of_scalar (scalar : Printable 0 j) : j.ordered = j := by
  cases scalar <;> rfl

theorem orderedItems_eq (items : List Json) : orderedItems items = items.map ordered := by
  induction items with
  | nil => rfl
  | cons j r ih => rw [orderedItems, ih, List.map_cons]

theorem orderedFields_eq (fields : List (String × Json)) :
    orderedFields fields = fields.map fun f => (f.1, f.2.ordered) := by
  induction fields with
  | nil => rfl
  | cons f r ih => rw [orderedFields, ih, List.map_cons, orderedField]

/-- An object of scalars only has its own fields put in order. -/
theorem ordered_of_scalars (scalars : ∀ f ∈ fields, Printable 0 f.2) :
    (Json.obj fields).ordered = ofFields fields := by
  rw [ordered, orderedFields_eq]
  congr 1
  refine (List.map_congr_left fun f hf => ?_).trans (List.map_id fields)
  rw [ordered_of_scalar (scalars f hf)]
  rfl

/-! ### White space -/

theorem skipSpace_spaces (spaces : ∀ c ∈ cs, isSpace c = true) :
    skipSpace (cs ++ rest) = skipSpace rest :=
  List.dropWhile_append_of_pos spaces

theorem skipSpace_self (noSpace : isSpace c = false) : skipSpace (c :: rest) = c :: rest :=
  List.dropWhile_cons_of_neg (by simp [noSpace])

theorem lineAt_spaces (level : Nat) : ∀ c ∈ (lineAt level).toList, isSpace c = true := by
  intro c h
  rw [show (lineAt level).toList = '\n' :: List.replicate (2 * level) ' ' by simp [lineAt]] at h
  rcases List.mem_cons.1 h with rfl | h
  · decide
  · rw [List.eq_of_mem_replicate h]
    decide

/-- White space before a value makes no difference. -/
theorem readValue_spaces (spaces : ∀ c ∈ cs, isSpace c = true) :
    readValue fuel depth (cs ++ rest) = readValue fuel depth rest := by
  cases fuel with
  | zero => rfl
  | succ fuel => rw [readValue, readValue, skipSpace_spaces spaces]

/-! ### Scalars -/

theorem stringText_toList (s : String) :
    (stringText s).toList = '"' :: (s.toList.flatMap escapeChar ++ ['"']) := by
  simp [stringText]

/-- An integer begins with a digit or its sign. -/
theorem toString_int_head (n : Int) :
    ∃ c r, (toString n).toList = c :: r ∧ (c.isDigit = true ∨ c = '-') := by
  rw [toString_int_toList]
  split
  · have digits := allDigits_toDigits n.toNat
    cases spelled : Nat.toDigits 10 n.toNat with
    | nil => exact absurd spelled Nat.toDigits_ne_nil
    | cons c r =>
        rw [spelled] at digits
        exact ⟨c, r, rfl, Or.inl (digits c List.mem_cons_self)⟩
  · exact ⟨'-', _, rfl, Or.inr rfl⟩

theorem readValue_str (s : String) (rest : List Char) :
    readValue (fuel + 1) depth ((stringText s).toList ++ rest) = some (.str s, rest) := by
  have opening : skipSpace ((stringText s).toList ++ rest) =
      '"' :: (s.toList.flatMap escapeChar ++ '"' :: rest) := by
    rw [stringText_toList, List.cons_append, List.append_assoc]
    exact skipSpace_self (by decide)
  rw [readValue]
  simp only [opening, readChars_escape, Option.map_some, String.ofList_toList]

theorem readValue_int {n : Int} (fits : IsInteger64 n) (ends : EndsNumber rest) :
    readValue (fuel + 1) depth ((toString n).toList ++ rest) = some (.int n, rest) := by
  obtain ⟨c, r, spelled, first⟩ := toString_int_head n
  have other : ∀ mark : Char, mark.isDigit = false → mark ≠ '-' → c ≠ mark := by
    intro mark noDigit noSign
    rcases first with digit | rfl
    · exact ne_of_isDigit digit noDigit
    · exact noSign.symm
  have noSpace : isSpace c = false := by
    simp only [isSpace, Bool.or_eq_false_iff, beq_eq_false_iff_ne]
    exact ⟨⟨⟨other ' ' (by decide) (by decide), other '\n' (by decide) (by decide)⟩,
      other '\t' (by decide) (by decide)⟩, other '\r' (by decide) (by decide)⟩
  have read := readNumber_int fits ends
  rw [spelled, List.cons_append] at read ⊢
  rw [readValue, skipSpace_self noSpace]
  split
  case h_1 same => exact absurd (List.cons.inj same).1 (other _ (by decide) (by decide))
  case h_2 same => exact absurd (List.cons.inj same).1 (other _ (by decide) (by decide))
  case h_3 same => exact absurd (List.cons.inj same).1 (other _ (by decide) (by decide))
  case h_4 same => exact absurd (List.cons.inj same).1 (other _ (by decide) (by decide))
  case h_5 same => exact absurd (List.cons.inj same).1 (other _ (by decide) (by decide))
  case h_6 same => exact absurd (List.cons.inj same).1 (other _ (by decide) (by decide))
  case h_7 => exact read

/-! ### Parts between brackets -/

/-- The text of the value at a level is read as the value with its fields in order, if the fuel is
enough for it. -/
def ReadsBack (depth level : Nat) (j : Json) : Prop :=
  ∀ fuel rest, EndsNumber rest → 2 * (prettyAt level j).toList.length ≤ fuel + 1 →
    readValue fuel depth ((prettyAt level j).toList ++ rest) = some (j.ordered, rest)

theorem prettyAt_pos (printable : Printable levels j) (level : Nat) :
    0 < (prettyAt level j).toList.length := by
  cases printable with
  | null => simp [prettyAt, scalarText]
  | bool b => cases b <;> simp [prettyAt, scalarText]
  | @int _ n fits =>
      obtain ⟨c, r, spelled, -⟩ := toString_int_head n
      simp only [prettyAt, scalarText, spelled, List.length_cons]
      omega
  | str s => simp [prettyAt, scalarText, stringText_toList]
  | arr all =>
      simp only [prettyAt, block]
      split <;> simp
  | obj all =>
      simp only [prettyAt, block]
      split <;> simp

theorem ReadsBack.of_pos (printable : Printable levels j)
    (step : ∀ fuel rest, EndsNumber rest → 2 * (prettyAt level j).toList.length ≤ fuel + 2 →
      readValue (fuel + 1) depth ((prettyAt level j).toList ++ rest) = some (j.ordered, rest)) :
    ReadsBack depth level j := by
  intro fuel rest ends enough
  have long := prettyAt_pos printable level
  obtain ⟨fuel, rfl⟩ : ∃ more, fuel = more + 1 := ⟨fuel - 1, by omega⟩
  exact step fuel rest ends enough

/-- The parts on lines of their own, with commas between them. -/
def partsText (level : Nat) (parts : List String) : List Char :=
  (String.intercalate ("," ++ lineAt level) parts).toList

theorem partsText_singleton (level : Nat) (part : String) :
    partsText level [part] = part.toList := by
  rw [partsText, String.intercalate_singleton]

theorem partsText_cons (level : Nat) (part next : String) (parts : List String) :
    partsText level (part :: next :: parts) =
      part.toList ++ ',' :: ((lineAt level).toList ++ partsText level (next :: parts)) := by
  simp [partsText, String.intercalate_cons_cons]

theorem endsNumber_comma (rest : List Char) : EndsNumber (',' :: rest) := by
  intro c h
  cases h
  exact Or.inl rfl

/-- The items of an array are read one by one, up to its closing bracket. -/
theorem readItems_pretty (nonempty : items ≠ []) (closing : skipSpace tail = ']' :: rest)
    (ends : EndsNumber tail)
    (all : ∀ j ∈ items, ReadsBack depth level j ∧ 0 < (prettyAt level j).toList.length) :
    ∀ fuel, 2 * (partsText level (prettyItems level items)).length ≤ fuel →
      readItems fuel depth
          ((lineAt level).toList ++ (partsText level (prettyItems level items) ++ tail)) =
        some (orderedItems items, rest) := by
  induction items with
  | nil => exact absurd rfl nonempty
  | cons j r ih =>
      intro fuel enough
      obtain ⟨back, long⟩ := all j List.mem_cons_self
      cases r with
      | nil =>
          rw [prettyItems, prettyItems, partsText_singleton] at enough ⊢
          obtain ⟨fuel, rfl⟩ : ∃ more, fuel = more + 1 := ⟨fuel - 1, by omega⟩
          rw [readItems, readValue_spaces (lineAt_spaces level), back fuel tail ends enough]
          simp only [closing]
          rfl
      | cons k r =>
          rw [prettyItems, prettyItems, partsText_cons] at enough ⊢
          rw [List.length_append, List.length_cons, List.length_append] at enough
          obtain ⟨fuel, rfl⟩ : ∃ more, fuel = more + 1 := ⟨fuel - 1, by omega⟩
          have others := ih (List.cons_ne_nil k r)
            (fun i hi => all i (List.mem_cons_of_mem j hi)) fuel
            (by rw [prettyItems]; omega)
          rw [prettyItems] at others
          rw [readItems, readValue_spaces (lineAt_spaces level)]
          rw [List.append_assoc, List.cons_append, List.append_assoc]
          rw [back fuel _ (endsNumber_comma _) (by omega)]
          simp only [skipSpace_self (show isSpace ',' = false by decide), others]
          rfl

/-- A field that is followed by others, or by the end of the object. -/
theorem readFields_field {key : String} {r : List Char}
    (value : readValue fuel depth rest = some (j, r)) :
    let text := (lineAt level).toList ++ ((stringText key).toList ++ (':' :: ' ' :: rest))
    (∀ more, skipSpace r = ',' :: more →
      readFields (fuel + 1) depth text =
        (readFields fuel depth more).map fun p => ((key, j) :: p.1, p.2)) ∧
    ∀ more, skipSpace r = '\x7d' :: more →
      readFields (fuel + 1) depth text = some ([(key, j)], more) := by
  intro text
  have opening : skipSpace text =
      '"' :: (key.toList.flatMap escapeChar ++ '"' :: (':' :: ' ' :: rest)) := by
    rw [skipSpace_spaces (lineAt_spaces level), stringText_toList, List.cons_append,
      List.append_assoc]
    exact skipSpace_self (by decide)
  have colon : skipSpace (':' :: ' ' :: rest) = ':' :: ' ' :: rest := skipSpace_self (by decide)
  have blank : ∀ c ∈ [' '], isSpace c = true := by
    intro c h
    rw [List.mem_singleton.1 h]
    decide
  have behind : readValue fuel depth (' ' :: rest) = some (j, r) := by
    rw [← value]
    exact readValue_spaces blank
  rw [readFields]
  simp only [opening, readChars_escape, colon, behind, String.ofList_toList]
  constructor
  · intro more comma
    simp only [comma]
  · intro more closing
    simp only [closing]

theorem prettyField_toList (level : Nat) (f : String × Json) :
    (prettyField level f).toList =
      (stringText f.1).toList ++ ':' :: ' ' :: (prettyAt level f.2).toList := by
  obtain ⟨key, j⟩ := f
  simp [prettyField]

/-- The fields of an object are read one by one, up to its closing brace. -/
theorem readFields_pretty (nonempty : fields ≠ []) (closing : skipSpace tail = '\x7d' :: rest)
    (ends : EndsNumber tail) (all : ∀ f ∈ fields, ReadsBack depth level f.2) :
    ∀ fuel, 2 * (partsText level (prettyFields level fields)).length ≤ fuel →
      readFields fuel depth
          ((lineAt level).toList ++ (partsText level (prettyFields level fields) ++ tail)) =
        some (orderedFields fields, rest) := by
  induction fields with
  | nil => exact absurd rfl nonempty
  | cons f r ih =>
      intro fuel enough
      obtain ⟨key, j⟩ := f
      have back : ReadsBack depth level j := all (key, j) List.mem_cons_self
      cases r with
      | nil =>
          rw [prettyFields, prettyFields, partsText_singleton, prettyField_toList] at enough ⊢
          simp only [List.length_append, List.length_cons] at enough
          obtain ⟨fuel, rfl⟩ : ∃ more, fuel = more + 1 := ⟨fuel - 1, by omega⟩
          simp only [List.append_assoc, List.cons_append]
          exact (readFields_field (back fuel tail ends (by omega))).2 rest closing
      | cons g r =>
          rw [prettyFields, prettyFields, partsText_cons, prettyField_toList] at enough ⊢
          simp only [List.length_append, List.length_cons] at enough
          obtain ⟨fuel, rfl⟩ : ∃ more, fuel = more + 1 := ⟨fuel - 1, by omega⟩
          have others := ih (List.cons_ne_nil g r)
            (fun i hi => all i (List.mem_cons_of_mem _ hi)) fuel
            (by rw [prettyFields]; omega)
          rw [prettyFields] at others
          simp only [List.append_assoc, List.cons_append]
          rw [(readFields_field (back fuel _ (endsNumber_comma _) (by omega))).1 _
            (skipSpace_self (by decide)), others]
          rfl

/-! ### Values -/

/-- A closing bracket begins no item. -/
theorem readItems_bracket (closing : skipSpace cs = ']' :: rest) :
    readItems fuel depth cs = none := by
  have noValue : ∀ fuel, readValue fuel depth cs = none := by
    intro fuel
    cases fuel with
    | zero => rfl
    | succ fuel =>
        rw [readValue, closing]
        rfl
  cases fuel with
  | zero => rfl
  | succ fuel => rw [readItems, noValue]

/-- A closing brace begins no field. -/
theorem readFields_brace (closing : skipSpace cs = '\x7d' :: rest) :
    readFields fuel depth cs = none := by
  cases fuel with
  | zero => rfl
  | succ fuel =>
      rw [readFields, closing]
      rfl

theorem readValue_array (read : readItems fuel depth cs = some (items, rest)) :
    readValue (fuel + 1) (depth + 1) ('[' :: cs) = some (.arr items, rest) := by
  have inside : ((depth + 1 == 0) = true) ↔ False := by simp
  rw [readValue, skipSpace_self (by decide)]
  simp only [inside, if_false, Nat.add_sub_cancel, read, Option.map_some]
  split
  case h_1 closing =>
    rw [readItems_bracket closing] at read
    cases read
  case h_2 => rfl

theorem readValue_object (read : readFields fuel depth cs = some (fields, rest)) :
    readValue (fuel + 1) (depth + 1) ('\x7b' :: cs) = some (ofFields fields, rest) := by
  have inside : ((depth + 1 == 0) = true) ↔ False := by simp
  rw [readValue, skipSpace_self (by decide)]
  simp only [inside, if_false, Nat.add_sub_cancel, read, Option.map_some]
  split
  case h_1 closing =>
    rw [readFields_brace closing] at read
    cases read
  case h_2 => rfl

theorem prettyAt_array (level : Nat) (nonempty : items ≠ []) :
    (prettyAt level (.arr items)).toList =
      '[' :: ((lineAt (level + 1)).toList ++ (partsText (level + 1) (prettyItems (level + 1) items) ++
        ((lineAt level).toList ++ [']']))) := by
  cases items with
  | nil => exact absurd rfl nonempty
  | cons j r => simp [prettyAt, prettyItems, block, partsText]

theorem prettyAt_object (level : Nat) (nonempty : fields ≠ []) :
    (prettyAt level (.obj fields)).toList =
      '\x7b' :: ((lineAt (level + 1)).toList ++
        (partsText (level + 1) (prettyFields (level + 1) fields) ++
          ((lineAt level).toList ++ ['\x7d']))) := by
  cases fields with
  | nil => exact absurd rfl nonempty
  | cons f r => simp [prettyAt, prettyFields, block, partsText]

theorem endsNumber_line (level : Nat) (rest : List Char) :
    EndsNumber ((lineAt level).toList ++ rest) := by
  intro c h
  have first : (lineAt level).toList ++ rest =
      '\n' :: (List.replicate (2 * level) ' ' ++ rest) := by simp [lineAt]
  rw [first] at h
  cases h
  exact Or.inr (by decide)

/-- The value is read, whatever follows it, if only a number cannot go on there. -/
theorem readValue_pretty (printable : Printable levels j) :
    ∀ {depth}, levels ≤ depth → ∀ level, ReadsBack depth level j := by
  induction printable with
  | null =>
      refine fun _ level => .of_pos (Printable.null : Printable 0 _) fun fuel rest _ _ => ?_
      have text : (prettyAt level .null).toList = ['n', 'u', 'l', 'l'] := by
        simp [prettyAt, scalarText]
      rw [text]
      rfl
  | bool b =>
      refine fun _ level => .of_pos (Printable.bool b : Printable 0 _) fun fuel rest _ _ => ?_
      cases b with
      | false =>
          have text : (prettyAt level (.bool false)).toList = ['f', 'a', 'l', 's', 'e'] := by
            simp [prettyAt, scalarText]
          rw [text]
          rfl
      | true =>
          have text : (prettyAt level (.bool true)).toList = ['t', 'r', 'u', 'e'] := by
            simp [prettyAt, scalarText]
          rw [text]
          rfl
  | int fits =>
      exact fun _ level => .of_pos (Printable.int fits : Printable 0 _) fun fuel rest ends _ =>
        readValue_int fits ends
  | str s =>
      exact fun _ level => .of_pos (Printable.str s : Printable 0 _) fun fuel rest _ _ =>
        readValue_str s rest
  | @arr levels items all ih =>
      intro depth within level
      obtain ⟨depth, rfl⟩ : ∃ below, depth = below + 1 := ⟨depth - 1, by omega⟩
      refine .of_pos (.arr all) fun fuel rest _ enough => ?_
      by_cases empty : items = []
      · subst empty
        have text : (prettyAt level (.arr [])).toList = ['[', ']'] := by
          simp [prettyAt, prettyItems, block]
        rw [text]
        rfl
      · rw [prettyAt_array level empty] at enough ⊢
        simp only [List.length_cons, List.length_append] at enough
        simp only [List.cons_append, List.append_assoc, List.nil_append]
        refine readValue_array (readItems_pretty empty ?_ (endsNumber_line level _) ?_ fuel ?_)
        · rw [skipSpace_spaces (lineAt_spaces level)]
          exact skipSpace_self (by decide)
        · exact fun i hi => ⟨ih i hi (by omega) (level + 1), prettyAt_pos (all i hi) (level + 1)⟩
        · omega
  | @obj levels fields all ih =>
      intro depth within level
      obtain ⟨depth, rfl⟩ : ∃ below, depth = below + 1 := ⟨depth - 1, by omega⟩
      refine .of_pos (.obj all) fun fuel rest _ enough => ?_
      by_cases empty : fields = []
      · subst empty
        have text : (prettyAt level (.obj [])).toList = ['\x7b', '\x7d'] := by
          simp [prettyAt, prettyFields, block]
        rw [text]
        rfl
      · rw [prettyAt_object level empty] at enough ⊢
        simp only [List.length_cons, List.length_append] at enough
        simp only [List.cons_append, List.append_assoc, List.nil_append]
        refine readValue_object (readFields_pretty empty ?_ (endsNumber_line level _) ?_ fuel ?_)
        · rw [skipSpace_spaces (lineAt_spaces level)]
          exact skipSpace_self (by decide)
        · exact fun f hf => ih f hf (by omega) (level + 1)
        · omega

/-- A printed value is read back with the fields of its objects in order. -/
theorem read?_pretty (printable : Printable levels j) (within : levels ≤ maxDepth) :
    read? (j.pretty ++ "\n") = some j.ordered := by
  have ends : EndsNumber ['\n'] := by
    intro c h
    cases h
    exact Or.inr (by decide)
  have value : readValue (2 * (j.pretty ++ "\n").toList.length + 2) maxDepth
      (j.pretty ++ "\n").toList = some (j.ordered, ['\n']) := by
    rw [String.toList_append]
    refine readValue_pretty printable within 0 _ _ ends ?_
    rw [List.length_append]
    unfold pretty
    omega
  unfold read? readAll?
  rw [value]
  rfl

end MarketBook.Json
