/-
Module: MarketBook.Proofs.DateTexts
Purpose: Which texts name a date, and that none names two.
Main exports:
  Holiday.IsYear, Holiday.IsPart, Holiday.Names, Holiday.readDate?_eq_some, Holiday.names_iff
-/
import Mathlib.Data.List.TakeWhile
import MarketBook.Calendar.Holiday
import MarketBook.Proofs.CivilDates
import MarketBook.Proofs.Numerals
import MarketBook.Proofs.SoundProfiles

namespace MarketBook

open Text Time

/-!
A text of a date has two dashes behind digits, so the reader, which takes digits as long as there are
any, takes those before a dash and no others.  What the parts are is said here of the text as a
whole, without the order in which it is read.
-/

theorem Text.isBlank_of_isDigit {c : Char} (digit : c.isDigit = true) : isBlank c = false := by
  obtain ⟨low, high⟩ := isDigit_bounds digit
  simp only [isBlank, Bool.or_eq_false_iff, Bool.and_eq_false_iff, decide_eq_false_iff_not,
    beq_eq_false_iff_ne]
  omega

/-- What begins with a numeral begins with a digit. -/
theorem Text.IsNumeral.digit_of_append {cs rest more : List Char} {c : Char} {n : Nat}
    (numeral : IsNumeral cs n) (same : cs ++ rest = c :: more) : c.isDigit = true := by
  obtain ⟨d, _, rfl, digit⟩ := numeral.exists_cons
  cases same
  exact digit

namespace Holiday

variable {cs rest : List Char} {most n : Nat}

/-! ### Digits at the front -/

/-- Before something that is no digit, all digits are taken if they are not too many. -/
theorem leadingDigits?_eq_some (ends : ∀ c ∈ rest.head?, c.isDigit = false) :
    leadingDigits? most cs = some (n, rest) ↔
      ∃ digits, cs = digits ++ rest ∧ digits.length ≤ most ∧ IsNumeral digits n := by
  unfold leadingDigits?
  simp only [Option.map_eq_some_iff, Prod.mk.injEq, digits?_eq_some]
  constructor
  · rintro ⟨_, numeral, rfl, behind⟩
    have front := List.takeWhile_prefix Char.isDigit (l := cs.take most)
    refine ⟨_, ?_, front.length_le.trans (List.length_take_le most cs), numeral⟩
    rw [← behind]
    exact (List.prefix_iff_eq_append.1 (front.trans (List.take_prefix most cs))).symm
  · rintro ⟨digits, rfl, few, numeral⟩
    have none : (rest.take (most - digits.length)).takeWhile Char.isDigit = [] := by
      cases rest with
      | nil => simp
      | cons c more => cases most - digits.length <;> simp [ends c rfl]
    have taken : ((digits ++ rest).take most).takeWhile Char.isDigit = digits := by
      rw [List.take_append, List.take_of_length_le few, List.takeWhile_append_of_pos numeral.digits,
        none, List.append_nil]
    exact ⟨n, taken.symm ▸ numeral, rfl, by rw [taken, List.drop_left]⟩

/-! ### The parts of a date -/

/-- A month or a day of a month: one digit or two, behind white space or nothing. -/
def IsPart (cs : List Char) (n : Nat) : Prop :=
  ∃ blanks digits, cs = blanks ++ digits ∧ (∀ c ∈ blanks, isBlank c = true) ∧
    digits.length ≤ 2 ∧ IsNumeral digits n

/-- A year: four digits at most, or a sign and any digits. -/
def IsYear (cs : List Char) (year : Int) : Prop :=
  ∃ digits n, IsNumeral digits n ∧
    (cs = digits ∧ digits.length ≤ 4 ∧ year = n ∨ cs = '+' :: digits ∧ year = n ∨
      cs = '-' :: digits ∧ year = -n)

theorem readNumber?_eq_some (ends : ∀ c ∈ rest.head?, c.isDigit = false) :
    readNumber? 2 cs = some (n, rest) ↔ ∃ part, cs = part ++ rest ∧ IsPart part n := by
  unfold readNumber?
  rw [leadingDigits?_eq_some ends]
  constructor
  · rintro ⟨digits, behind, few, numeral⟩
    refine ⟨cs.takeWhile isBlank ++ digits, ?_, _, digits, rfl, ?_, few, numeral⟩
    · rw [List.append_assoc, ← behind, List.takeWhile_append_dropWhile]
    · exact fun c given => List.mem_takeWhile_imp given
  · rintro ⟨_, rfl, blanks, digits, rfl, blank, few, numeral⟩
    obtain ⟨c, more, rfl, digit⟩ := numeral.exists_cons
    refine ⟨_, ?_, few, numeral⟩
    rw [List.append_assoc, List.dropWhile_append_of_pos blank, List.cons_append,
      List.dropWhile_cons_of_neg (by simp [isBlank_of_isDigit digit])]

/-- The three ways to write a year, each by what stands behind its sign. -/
theorem leadingYear?_eq_some {year : Int} (sign : Nat → Int)
    (ends : ∀ c ∈ rest.head?, c.isDigit = false) :
    ((leadingDigits? most cs).map fun p => (sign p.1, p.2)) = some (year, rest) ↔
      ∃ digits n, cs = digits ++ rest ∧ digits.length ≤ most ∧ IsNumeral digits n ∧
        year = sign n := by
  simp only [Option.map_eq_some_iff, Prod.mk.injEq, Prod.exists]
  constructor
  · rintro ⟨n, _, found, rfl, rfl⟩
    obtain ⟨digits, same, few, numeral⟩ := (leadingDigits?_eq_some ends).1 found
    exact ⟨digits, n, same, few, numeral, rfl⟩
  · rintro ⟨digits, n, same, few, numeral, rfl⟩
    exact ⟨n, rest, (leadingDigits?_eq_some ends).2 ⟨digits, same, few, numeral⟩, rfl, rfl⟩

theorem readYear?_eq_some {year : Int} (trimmed : cs.dropWhile isBlank = cs)
    (ends : ∀ c ∈ rest.head?, c.isDigit = false) :
    readYear? cs = some (year, rest) ↔ ∃ part, cs = part ++ rest ∧ IsYear part year := by
  unfold readYear?
  rw [trimmed]
  split
  case h_1 r =>
    rw [leadingYear?_eq_some (fun n => -Int.ofNat n) ends]
    constructor
    · rintro ⟨digits, n, rfl, -, numeral, rfl⟩
      exact ⟨'-' :: digits, rfl, digits, n, numeral, .inr (.inr ⟨rfl, rfl⟩)⟩
    · rintro ⟨_, same, digits, n, numeral, ⟨rfl, -⟩ | ⟨rfl, -⟩ | ⟨rfl, rfl⟩⟩
      · cases numeral.digit_of_append same.symm
      · cases same
      · cases same
        exact ⟨digits, n, rfl, by simp, numeral, rfl⟩
  case h_2 r =>
    rw [leadingYear?_eq_some Int.ofNat ends]
    constructor
    · rintro ⟨digits, n, rfl, -, numeral, rfl⟩
      exact ⟨'+' :: digits, rfl, digits, n, numeral, .inr (.inl ⟨rfl, rfl⟩)⟩
    · rintro ⟨_, same, digits, n, numeral, ⟨rfl, -⟩ | ⟨rfl, rfl⟩ | ⟨rfl, -⟩⟩
      · cases numeral.digit_of_append same.symm
      · cases same
        exact ⟨digits, n, rfl, by simp, numeral, rfl⟩
      · cases same
  case h_3 minus plus =>
    rw [leadingYear?_eq_some Int.ofNat ends]
    constructor
    · rintro ⟨digits, n, rfl, few, numeral, rfl⟩
      exact ⟨digits, rfl, digits, n, numeral, .inl ⟨rfl, few, rfl⟩⟩
    · rintro ⟨_, same, digits, n, numeral, ⟨rfl, few, rfl⟩ | ⟨rfl, -⟩ | ⟨rfl, -⟩⟩
      · exact ⟨_, n, same, few, numeral, rfl⟩
      · exact absurd same (plus _)
      · exact absurd same (minus _)

/-! ### Dates -/

/-- The text, without the white space around it, is a year, a month and a day with dashes between
them, and they are those of the date, which is in the calendar and not too far off. -/
structure Names (raw : String) (d : CivilDate) : Prop where
  parts : ∃ year month day, trimChars raw.toList = year ++ '-' :: (month ++ '-' :: day) ∧
    IsYear year d.year ∧ (∃ m, IsPart month m ∧ d.month = m) ∧ ∃ n, IsPart day n ∧ d.day = n
  inRange : isYearInRange d.year = true
  valid : d.isValid = true

theorem skipDash?_eq_some : skipDash? cs = some rest ↔ cs = '-' :: rest := by
  unfold skipDash?
  split
  case h_1 => simp
  case h_2 other => exact ⟨nofun, fun same => absurd same (other rest)⟩

theorem readDate?_eq_some {raw : String} {day : Int} :
    readDate? raw = some day ↔ ∃ d, Names raw d ∧ d.toDay = day := by
  have noDigit : ∀ r, ∀ c ∈ ('-' :: r : List Char).head?, c.isDigit = false := by
    rintro r c ⟨⟩
    rfl
  have trimmed := dropWhile_trimChars raw.toList
  unfold readDate?
  simp only [Option.bind_eq_bind, Option.bind_eq_some_iff, Prod.exists, skipDash?_eq_some]
  constructor
  · rintro ⟨year, _, yearRead, _, rfl, month, _, monthRead, _, rfl, n, r, dayRead, found⟩
    split at found
    case isFalse => cases found
    case isTrue checks =>
      simp only [Bool.and_eq_true, List.isEmpty_iff] at checks
      obtain ⟨⟨rfl, inRange⟩, valid⟩ := checks
      obtain ⟨yearPart, whole, isYear⟩ := (readYear?_eq_some trimmed (noDigit _)).1 yearRead
      obtain ⟨monthPart, rfl, isMonth⟩ := (readNumber?_eq_some (noDigit _)).1 monthRead
      obtain ⟨dayPart, rfl, isDay⟩ := (readNumber?_eq_some (by simp)).1 dayRead
      rw [List.append_nil] at whole
      exact ⟨⟨year, month, n⟩, ⟨⟨yearPart, monthPart, dayPart, whole, isYear, ⟨month, isMonth, rfl⟩,
        n, isDay, rfl⟩, inRange, valid⟩, Option.some.inj found⟩
  · rintro ⟨⟨year, _, _⟩, ⟨⟨yearPart, monthPart, dayPart, whole, isYear, ⟨month, isMonth, rfl⟩,
      n, isDay, rfl⟩, inRange, valid⟩, rfl⟩
    refine ⟨year, _, (readYear?_eq_some trimmed (noDigit _)).2 ⟨yearPart, whole, isYear⟩, _, rfl,
      month, _, (readNumber?_eq_some (noDigit _)).2 ⟨monthPart, rfl, isMonth⟩, _, rfl,
      n, [], (readNumber?_eq_some (by simp)).2 ⟨dayPart, (List.append_nil _).symm, isDay⟩, ?_⟩
    exact if_pos (by simpa using ⟨inRange, valid⟩)

/-- The texts that are read as the day of a date are those that name the date. -/
theorem names_iff {raw : String} {d : CivilDate} :
    Names raw d ↔ d.isValid = true ∧ readDate? raw = some d.toDay := by
  constructor
  · exact fun names => ⟨names.valid, readDate?_eq_some.2 ⟨d, names, rfl⟩⟩
  · rintro ⟨valid, read⟩
    obtain ⟨other, names, same⟩ := readDate?_eq_some.1 read
    rw [← CivilDate.ofDay_toDay valid, ← same, CivilDate.ofDay_toDay names.valid]
    exact names

/-- The date of a day is named by the texts that are read as this day. -/
theorem names_ofDay_iff {raw : String} {day : Int} :
    Names raw (CivilDate.ofDay day) ↔ readDate? raw = some day := by
  simp [names_iff, CivilDate.ofDay_isValid, CivilDate.toDay_ofDay]

/-- A text that is read names one date. -/
theorem existsUnique_names {raw : String} {day : Int} (read : readDate? raw = some day) :
    ∃! d, Names raw d := by
  refine ⟨CivilDate.ofDay day, names_ofDay_iff.2 read, fun d names => ?_⟩
  obtain ⟨valid, read'⟩ := names_iff.1 names
  rw [read] at read'
  rw [Option.some.inj read', CivilDate.ofDay_toDay valid]

end Holiday

end MarketBook
