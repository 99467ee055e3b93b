/-
Module: MarketBook.Proofs.NormalSymbols
Purpose: What the normal form of a symbol is, and when it is its own normal form.
Main exports:
  Symbol.normalize_eq_ok, Symbol.strip_strip, Symbol.allBlank_strip, Symbol.NormalForm,
  Symbol.normalForm
-/
import Mathlib.Data.List.Basic
import MarketBook.Bar.Symbol
import MarketBook.Proofs.Outcomes
import MarketBook.Proofs.UpperCase

namespace MarketBook.Symbol

open Outcome Text

/-!
Stripping takes a symbol to upper case and drops slashes and spaces, so doing it again changes
nothing.  Normalization asks before that whether the symbol is blank, and afterwards only whether
anything is left.  What can be left is white space other than the space, of a symbol that has a slash
beside it; such a normal form has no normal form itself.
-/

variable {raw n : String}

theorem strip_toList (raw : String) :
    (strip raw).toList = (raw.toList.flatMap upperChar).filter (!isSeparator ·) := by
  rw [strip, String.toList_ofList]

theorem isSeparator_eq_false {c : Char} : isSeparator c = false ↔ c ≠ '/' ∧ c ≠ ' ' := by
  simp [isSeparator]

theorem mem_strip {d : Char} :
    d ∈ (strip raw).toList ↔ (∃ c ∈ raw.toList, d ∈ upperChar c) ∧ d ≠ '/' ∧ d ≠ ' ' := by
  rw [strip_toList, List.mem_filter, List.mem_flatMap, Bool.not_eq_true', isSeparator_eq_false]

/-- A normal form is stripped already. -/
theorem strip_strip (raw : String) : strip (strip raw) = strip raw := by
  have upper : (strip raw).toList.flatMap upperChar = (strip raw).toList := by
    have fixed : ∀ d ∈ (strip raw).toList, upperChar d = [d] := by
      intro d hd
      obtain ⟨⟨c, -, upper⟩, -⟩ := mem_strip.1 hd
      exact upperChar_fixed upper
    rw [List.flatMap_congr fixed, List.flatMap_singleton']
  have kept : ∀ d ∈ (strip raw).toList, (!isSeparator d) = true := by
    intro d hd
    rw [Bool.not_eq_true', isSeparator_eq_false]
    exact (mem_strip.1 hd).2
  rw [← String.toList_inj, strip_toList (strip raw), upper, List.filter_eq_self.2 kept]

theorem allBlank_iff : allBlank raw = true ↔ ∀ c ∈ raw.toList, isBlank c = true :=
  List.all_eq_true

/-- Only slashes and white space leave nothing but white space. -/
theorem allBlank_strip :
    allBlank (strip raw) = true ↔ ∀ c ∈ raw.toList, isBlank c = true ∨ c = '/' := by
  rw [allBlank_iff]
  constructor
  · intro blank c hc
    obtain ⟨d, hd⟩ := List.exists_mem_of_ne_nil _ (upperChar_ne_nil c)
    have idle : isBlank d = true ∨ d = '/' := by
      by_cases slash : d = '/'
      · exact Or.inr slash
      · by_cases space : d = ' '
        · rw [space]
          exact Or.inl (by decide)
        · exact Or.inl (blank d (mem_strip.2 ⟨⟨c, hc, hd⟩, slash, space⟩))
    rwa [idle_of_upperChar hd idle] at idle
  · intro idle d hd
    obtain ⟨⟨c, hc, upper⟩, slash, -⟩ := mem_strip.1 hd
    rw [upperChar_idle (idle c hc), List.mem_singleton] at upper
    subst upper
    exact (idle d hc).resolve_right slash

theorem normalize_eq_ok :
    normalize raw = .ok n ↔ allBlank raw = false ∧ strip raw ≠ "" ∧ n = strip raw := by
  unfold normalize
  rw [guard_eq_ok misused_ne_ok, guard_eq_ok misused_ne_ok, Bool.not_eq_true, beq_iff_eq,
    Except.ok.injEq, @eq_comm _ (strip raw) n]

/-- What a symbol becomes by normalization. -/
structure NormalForm (raw n : String) : Prop where
  noSlash : '/' ∉ n.toList
  noSpace : ' ' ∉ n.toList
  filled : n ≠ ""
  stripped : strip n = n
  /-- It is its own normal form unless it is blank. -/
  own : normalize n = .ok n ↔ allBlank n = false
  /-- It is blank only for a symbol of slashes and white space. -/
  blank : allBlank n = true ↔ ∀ c ∈ raw.toList, isBlank c = true ∨ c = '/'

theorem normalForm (h : normalize raw = .ok n) : NormalForm raw n := by
  obtain ⟨-, filled, rfl⟩ := normalize_eq_ok.1 h
  exact {
    noSlash := fun here => (mem_strip.1 here).2.1 rfl
    noSpace := fun here => (mem_strip.1 here).2.2 rfl
    filled := filled
    stripped := strip_strip raw
    own := by
      rw [normalize_eq_ok, strip_strip]
      exact ⟨fun own => own.1, fun notBlank => ⟨notBlank, filled, rfl⟩⟩
    blank := allBlank_strip }

end MarketBook.Symbol
