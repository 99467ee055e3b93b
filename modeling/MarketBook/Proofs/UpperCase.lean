/-
Module: MarketBook.Proofs.UpperCase
Purpose: Upper case is its own upper case, and white space is neither changed by it nor made.
Main exports:
  Text.upperCode_fixed, Text.upperChar_fixed, Text.upperChar_ne_nil, Text.upperChar_idle,
  Text.idle_of_upperChar
-/
import MarketBook.Text.Blank
import MarketBook.Text.Upper

namespace MarketBook.Text

/-!
The mapping is a table, so what it does to its own values is read off the table.  Most of it is runs
of letters that move by one distance, and where a run moves to is a run again.  So runs are compared
with runs, by their ends and their steps, and only the few characters that become several are taken
one by one.
-/

namespace CaseRun

variable {r o : CaseRun} {n : Nat}

/-- Where a run moves to. -/
def image (r : CaseRun) : CaseRun :=
  ⟨(Int.ofNat r.first + r.shift).toNat, (Int.ofNat r.last + r.shift).toNat, r.step, 0⟩

/-- A sign that two runs have no point in common: one ends before the other begins, they take turns,
or the one has a single point, which the other does not hold. -/
def misses (r o : CaseRun) : Bool :=
  r.last.blt o.first || o.last.blt r.first ||
    (r.step == 2 && o.step == 2 && (r.first + o.first) % 2 == 1) ||
    (r.first == r.last && !o.holds r.first)

/-- The run moves to code points of characters. -/
def staysValid (r : CaseRun) : Bool :=
  0 ≤ Int.ofNat r.first + r.shift &&
    (r.image.last < 0xD800 || (0xDFFF < r.image.first && r.image.last < 0x110000))

theorem holds_iff : r.holds n = true ↔ r.first ≤ n ∧ n ≤ r.last ∧ (n - r.first) % r.step = 0 := by
  simp [holds, and_assoc]

theorem misses_sound (apart : r.misses o = true) (held : r.holds n = true) : o.holds n = false := by
  obtain ⟨low, high, onStep⟩ := holds_iff.1 held
  rw [← Bool.not_eq_true, holds_iff]
  rintro ⟨low', high', onStep'⟩
  simp only [misses, Bool.or_eq_true, Bool.and_eq_true, Nat.blt_eq, beq_iff_eq, Bool.not_eq_true',
    ← Bool.not_eq_true, holds_iff] at apart
  rcases apart with ((before | behind) | ⟨⟨two, two'⟩, odd⟩) | ⟨single, missed⟩
  · omega
  · omega
  · rw [two] at onStep
    rw [two'] at onStep'
    omega
  · obtain rfl : n = r.first := by omega
    exact missed ⟨low', high', onStep'⟩

theorem image_holds (valid : r.staysValid = true) (held : r.holds n = true) :
    r.image.holds (Int.ofNat n + r.shift).toNat = true := by
  obtain ⟨low, high, onStep⟩ := holds_iff.1 held
  simp only [staysValid, Bool.and_eq_true, decide_eq_true_eq] at valid
  have distance : (Int.ofNat n + r.shift).toNat - (Int.ofNat r.first + r.shift).toNat =
      n - r.first := by
    simp only [Int.ofNat_eq_natCast] at valid ⊢
    omega
  refine holds_iff.2 ⟨?_, ?_, ?_⟩
  · simp only [image, Int.ofNat_eq_natCast]
    omega
  · simp only [image, Int.ofNat_eq_natCast]
    omega
  · simp only [image]
    rw [distance]
    exact onStep

theorem image_valid (valid : r.staysValid = true) (held : r.image.holds n = true) :
    n.isValidChar := by
  obtain ⟨low, high, -⟩ := holds_iff.1 held
  simp only [staysValid, Bool.and_eq_true, Bool.or_eq_true, decide_eq_true_eq] at valid
  unfold Nat.isValidChar
  omega

end CaseRun

/-! ### What the table says of itself -/

theorem runs_valid : upperRuns.all (·.staysValid) = true := by
  decide +kernel

theorem runs_miss_runs : upperRuns.all (fun r => upperRuns.all r.image.misses) = true := by
  decide +kernel

theorem runs_miss_expansions :
    upperRuns.all (fun r => upperExpansions.all fun e => !r.image.holds e.1) = true := by
  decide +kernel

theorem expansions_fixed :
    upperExpansions.all (fun e => e.2 != [] && e.2.all fun m => m.blt 0xD800 && upperCode m == [m])
      = true := by
  decide +kernel

/-! ### Upper case twice -/

variable {n m : Nat} {c d : Char}

/-- A code point of an upper case lies where a run moves to, or it comes from an expansion, or it is
in no table. -/
theorem upperCode_cases (upper : m ∈ upperCode n) :
    (∃ r ∈ upperRuns, r.image.holds m = true) ∨ (∃ e ∈ upperExpansions, m ∈ e.2) ∨
      m = n ∧ upperCode n = [n] := by
  unfold upperCode at upper ⊢
  split at upper
  case h_1 r found =>
    have inside := List.mem_of_find?_eq_some found
    have held : r.holds n = true := by simpa using List.find?_some found
    rw [List.mem_singleton.1 upper]
    exact Or.inl ⟨r, inside, CaseRun.image_holds (List.all_eq_true.1 runs_valid r inside) held⟩
  case h_2 =>
    split at upper
    case h_1 e found => exact Or.inr (Or.inl ⟨e, List.mem_of_find?_eq_some found, upper⟩)
    case h_2 => exact Or.inr (Or.inr ⟨List.mem_singleton.1 upper, rfl⟩)

theorem upperCode_of_image {r : CaseRun} (inside : r ∈ upperRuns)
    (held : r.image.holds m = true) : upperCode m = [m] := by
  have noRun : upperRuns.find? (·.holds m) = none := by
    rw [List.find?_eq_none]
    intro o other
    have apart := List.all_eq_true.1 (List.all_eq_true.1 runs_miss_runs r inside) o other
    rw [CaseRun.misses_sound apart held]
    exact Bool.false_ne_true
  have noExpansion : upperExpansions.find? (·.1 == m) = none := by
    rw [List.find?_eq_none]
    intro e other same
    have missed := List.all_eq_true.1 (List.all_eq_true.1 runs_miss_expansions r inside) e other
    rw [eq_of_beq same, held] at missed
    cases missed
  unfold upperCode
  rw [noRun, noExpansion]

/-- The code points of an expansion are those of characters, and they are in upper case. -/
theorem upperCode_of_expansion {e : Nat × List Nat} (inside : e ∈ upperExpansions)
    (hm : m ∈ e.2) : m.isValidChar ∧ upperCode m = [m] := by
  have fixed := List.all_eq_true.1 expansions_fixed e inside
  rw [Bool.and_eq_true, List.all_eq_true] at fixed
  have here := fixed.2 m hm
  rw [Bool.and_eq_true, Nat.blt_eq, beq_iff_eq] at here
  exact ⟨Or.inl here.1, here.2⟩

theorem upperCode_fixed (upper : m ∈ upperCode n) : upperCode m = [m] := by
  rcases upperCode_cases upper with ⟨r, inside, held⟩ | ⟨e, inside, hm⟩ | ⟨rfl, fixed⟩
  · exact upperCode_of_image inside held
  · exact (upperCode_of_expansion inside hm).2
  · exact fixed

theorem upperCode_valid (valid : n.isValidChar) (upper : m ∈ upperCode n) : m.isValidChar := by
  rcases upperCode_cases upper with ⟨r, inside, held⟩ | ⟨e, inside, hm⟩ | ⟨rfl, -⟩
  · exact CaseRun.image_valid (List.all_eq_true.1 runs_valid r inside) held
  · exact (upperCode_of_expansion inside hm).1
  · exact valid

theorem upperCode_ne_nil (n : Nat) : upperCode n ≠ [] := by
  unfold upperCode
  split
  · exact List.cons_ne_nil _ _
  · split
    case h_1 e found =>
      have full := List.all_eq_true.1 expansions_fixed e (List.mem_of_find?_eq_some found)
      rw [Bool.and_eq_true, bne_iff_ne] at full
      exact full.1
    case h_2 => exact List.cons_ne_nil _ _

theorem toNat_ofNat (valid : m.isValidChar) : (Char.ofNat m).toNat = m := by
  have own : Char.ofNat m = Char.ofNatAux m valid := dif_pos valid
  rw [own]
  rfl

theorem mem_upperChar : d ∈ upperChar c ↔ d.toNat ∈ upperCode c.toNat := by
  unfold upperChar
  rw [List.mem_map]
  constructor
  · rintro ⟨m, upper, rfl⟩
    rwa [toNat_ofNat (upperCode_valid c.valid upper)]
  · exact fun upper => ⟨d.toNat, upper, Char.ofNat_toNat d⟩

/-- A character of an upper case is in upper case. -/
theorem upperChar_fixed (upper : d ∈ upperChar c) : upperChar d = [d] := by
  have fixed := upperCode_fixed (mem_upperChar.1 upper)
  rw [upperChar, fixed, List.map_singleton, Char.ofNat_toNat]

theorem upperChar_ne_nil (c : Char) : upperChar c ≠ [] := by
  rw [upperChar, Ne, List.map_eq_nil_iff]
  exact upperCode_ne_nil c.toNat

/-! ### White space -/

/-- The code points of the slash and of white space. -/
def idleCodes : List Nat :=
  [0x2F, 0x9, 0xA, 0xB, 0xC, 0xD, 0x20, 0x85, 0xA0, 0x1680, 0x2000, 0x2001, 0x2002, 0x2003, 0x2004,
    0x2005, 0x2006, 0x2007, 0x2008, 0x2009, 0x200A, 0x2028, 0x2029, 0x202F, 0x205F, 0x3000]

theorem mem_idleCodes : c.toNat ∈ idleCodes ↔ isBlank c = true ∨ c = '/' := by
  have slash : c = '/' ↔ c.toNat = 0x2F := Char.toNat_inj.symm
  rw [slash]
  simp only [idleCodes, isBlank, List.mem_cons, List.not_mem_nil, or_false, Bool.or_eq_true,
    Bool.and_eq_true, decide_eq_true_eq, beq_iff_eq]
  omega

theorem idle_fixed : idleCodes.all (fun m => upperCode m == [m]) = true := by
  decide +kernel

theorem runs_miss_idle :
    upperRuns.all (fun r => idleCodes.all fun m => !r.image.holds m) = true := by
  decide +kernel

theorem expansions_miss_idle :
    upperExpansions.all (fun e => e.2.all fun m => !idleCodes.contains m) = true := by
  decide +kernel

/-- Slashes and white space have no other upper case, and nothing else has one of them. -/
theorem idle_of_upperChar (upper : d ∈ upperChar c) (idle : isBlank d = true ∨ d = '/') :
    d = c := by
  rw [← mem_idleCodes] at idle
  rcases upperCode_cases (mem_upperChar.1 upper) with
    ⟨r, inside, held⟩ | ⟨e, inside, hd⟩ | ⟨same, -⟩
  · have missed := List.all_eq_true.1 (List.all_eq_true.1 runs_miss_idle r inside) _ idle
    rw [held] at missed
    cases missed
  · have missed := List.all_eq_true.1 (List.all_eq_true.1 expansions_miss_idle e inside) _ hd
    rw [List.contains_iff_mem.2 idle] at missed
    cases missed
  · exact Char.toNat_inj.1 same

theorem upperChar_idle (idle : isBlank c = true ∨ c = '/') : upperChar c = [c] := by
  have fixed := List.all_eq_true.1 idle_fixed _ (mem_idleCodes.2 idle)
  rw [upperChar, eq_of_beq fixed, List.map_singleton, Char.ofNat_toNat]

end MarketBook.Text
