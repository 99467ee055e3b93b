/-
Module: MarketBook.Proofs.SpanDifference
Purpose: Cutting closed windows out of runs is the difference of two sets of instants, written in
  the only way in which separated spans can write it.
Main exports:
  Calendar.Separated.of_neighbours, Closure.apart_of_neighbours, Calendar.Separated.eq_of_holds,
  Calendar.cutClosures_difference
-/
import Mathlib.Data.List.Chain
import MarketBook.Proofs.SpanLists

namespace MarketBook

/-!
Order is asked of neighbours only.  It holds of all pairs, because no span and no window in between
is empty.  Separated spans write down a set of instants in one way: each starts at an instant of the
set behind one outside it, and stops at the next instant outside.  So what a cut must leave is known
from the instants alone, and nothing of the search for the first window or of the moving start is
left in the statement.
-/

/-- A relation of neighbours that goes on over every entry holds of all pairs in their order. -/
theorem pairwise_of_neighbours {α : Type} {R : α → α → Prop} {l : List α}
    (carries : ∀ b ∈ l, ∀ a c, R a b → R b c → R a c) (neighbours : l.IsChain R) : l.Pairwise R := by
  induction l with
  | nil => exact .nil
  | cons a rest ih =>
      have later := ih (fun b hb => carries b (List.mem_cons_of_mem a hb)) neighbours.tail
      refine List.pairwise_cons.2 ⟨fun c hc => ?_, later⟩
      cases rest with
      | nil => cases hc
      | cons b rest =>
          have next := (List.isChain_cons_cons.1 neighbours).1
          rcases List.mem_cons.1 hc with rfl | behind
          · exact next
          · exact carries b (by simp) a c next ((List.pairwise_cons.1 later).1 c behind)

/-- Windows that are not empty and whose neighbours are in order are in order all together. -/
theorem Closure.apart_of_neighbours {closures : List Closure}
    (proper : ∀ c ∈ closures, c.start < c.stop)
    (neighbours : closures.IsChain fun a b => a.stop ≤ b.start) : Closure.Apart closures := by
  refine pairwise_of_neighbours (fun b hb a c before behind => ?_) neighbours
  have := proper b hb
  omega

namespace Calendar

variable {spans runs others : List Span} {first : Span} {ts : Int}

theorem Separated.of_neighbours (proper : ∀ s ∈ spans, s.start < s.stop)
    (neighbours : spans.IsChain fun a b => a.stop < b.start) : Separated spans := by
  refine ⟨proper, pairwise_of_neighbours (fun b hb a c before behind => ?_) neighbours⟩
  have := proper b hb
  omega

/-! ### One list for one set of instants -/

/-- The first of separated spans starts at the least instant that they hold. -/
theorem Separated.start_le (separated : Separated (first :: runs))
    (held : ∃ r ∈ first :: runs, r.holds ts = true) : first.start ≤ ts := by
  obtain ⟨r, hr, inside⟩ := held
  have late := (Span.holds_iff.1 inside).1
  rcases List.mem_cons.1 hr with rfl | later
  · exact late
  · have gap := (List.pairwise_cons.1 separated.gaps).1 r later
    have proper := separated.proper first List.mem_cons_self
    omega

theorem Separated.holds_start (separated : Separated (first :: runs)) :
    ∃ r ∈ first :: runs, r.holds first.start = true :=
  ⟨first, List.mem_cons_self,
    Span.holds_iff.2 ⟨le_rfl, separated.proper first List.mem_cons_self⟩⟩

/-- Behind the stop of the first of separated spans, what they hold is what the others hold. -/
theorem Separated.holds_tail (separated : Separated (first :: runs)) :
    (∃ r ∈ runs, r.holds ts = true) ↔
      first.stop ≤ ts ∧ ∃ r ∈ first :: runs, r.holds ts = true := by
  constructor
  · rintro ⟨r, hr, held⟩
    have gap := (List.pairwise_cons.1 separated.gaps).1 r hr
    have late := (Span.holds_iff.1 held).1
    exact ⟨by omega, r, List.mem_cons_of_mem first hr, held⟩
  · rintro ⟨behind, r, hr, held⟩
    rcases List.mem_cons.1 hr with rfl | later
    · exact absurd (Span.holds_iff.1 held).2 (not_lt.2 behind)
    · exact ⟨r, later, held⟩

/-- Of two first spans that start together and belong to the same instants, the second does not go
on behind the first: the instant at which the first stops is held by neither list. -/
theorem Separated.stop_le {other : Span} (separated : Separated (first :: runs))
    (starts : other.start = first.start)
    (same : (∃ r ∈ other :: others, r.holds first.stop = true) ↔
      ∃ r ∈ first :: runs, r.holds first.stop = true) : other.stop ≤ first.stop := by
  by_contra beyond
  have proper := separated.proper first List.mem_cons_self
  refine separated.not_holds_stop List.mem_cons_self (same.1 ⟨other, List.mem_cons_self, ?_⟩)
  exact Span.holds_iff.2 ⟨by omega, not_le.1 beyond⟩

/-- Separated spans that hold the same instants are the same spans. -/
theorem Separated.eq_of_holds (separated : Separated runs) (otherSeparated : Separated others)
    (same : ∀ ts, (∃ r ∈ runs, r.holds ts = true) ↔ ∃ r ∈ others, r.holds ts = true) :
    runs = others := by
  induction runs generalizing others with
  | nil =>
      cases others with
      | nil => rfl
      | cons other rest => simpa using (same other.start).2 otherSeparated.holds_start
  | cons first rest ih =>
      cases others with
      | nil => simpa using (same first.start).1 separated.holds_start
      | cons other others =>
          have starts : other.start = first.start :=
            le_antisymm (otherSeparated.start_le ((same _).1 separated.holds_start))
              (separated.start_le ((same _).2 otherSeparated.holds_start))
          have stops : other.stop = first.stop :=
            le_antisymm (separated.stop_le starts (same _).symm)
              (otherSeparated.stop_le starts.symm (same _))
          have firsts : first = other := by
            obtain ⟨start, stop⟩ := first
            obtain ⟨start', stop'⟩ := other
            simp only at starts stops
            rw [starts, stops]
          subst firsts
          refine congrArg _ (ih separated.tail otherSeparated.tail fun ts => ?_)
          rw [separated.holds_tail, otherSeparated.holds_tail, same]

/-! ### The difference -/

variable {closures : List Closure}

/-- Runs that are not empty, each with an instant between it and the next, and closed windows that
are not empty, each stopping where the next one starts or before: cutting the windows out of the runs
leaves spans that are not empty, each with an instant between it and the next, which hold exactly the
instants of the runs outside the windows, and no other spans of this kind hold just these. -/
theorem cutClosures_difference (runsProper : ∀ s ∈ spans, s.start < s.stop)
    (runsOrdered : spans.IsChain fun a b => a.stop < b.start)
    (closuresProper : ∀ c ∈ closures, c.start < c.stop)
    (closuresOrdered : closures.IsChain fun a b => a.stop ≤ b.start) :
    Separated (cutClosures closures spans) ∧
    (∀ ts, (∃ r ∈ cutClosures closures spans, r.holds ts = true) ↔
      (∃ s ∈ spans, s.holds ts = true) ∧ ∀ c ∈ closures, c.holds ts = false) ∧
    ∀ left : List Span, Separated left →
      (∀ ts, (∃ r ∈ left, r.holds ts = true) ↔
        (∃ s ∈ spans, s.holds ts = true) ∧ ∀ c ∈ closures, c.holds ts = false) →
      left = cutClosures closures spans := by
  have separated := cutClosures_separated closuresProper
    (Separated.of_neighbours runsProper runsOrdered)
  have apart := Closure.apart_of_neighbours closuresProper closuresOrdered
  refine ⟨separated, fun ts => holds_cutClosures closuresProper apart, fun left leftSeparated held => ?_⟩
  refine leftSeparated.eq_of_holds separated fun ts => ?_
  rw [held, holds_cutClosures closuresProper apart]

/-- Three runs and five windows: two that touch each other over the end of the first run, one inside
the second run, one from before the third run to behind it, and one behind them all. -/
theorem cutClosures_touching :
    let spans : List Span := [⟨0, 25⟩, ⟨40, 55⟩, ⟨70, 90⟩]
    let closures : List Closure := [⟨10, 20⟩, ⟨20, 30⟩, ⟨45, 50⟩, ⟨60, 90⟩, ⟨95, 99⟩]
    (∀ s ∈ spans, s.start < s.stop) ∧ (spans.IsChain fun a b => a.stop < b.start) ∧
      (∀ c ∈ closures, c.start < c.stop) ∧ (closures.IsChain fun a b => a.stop ≤ b.start) ∧
      cutClosures closures spans = [⟨0, 10⟩, ⟨40, 45⟩, ⟨50, 55⟩] ∧
      Separated [⟨0, 10⟩, ⟨40, 45⟩, ⟨50, 55⟩] ∧
      ∀ ts, (∃ r ∈ cutClosures closures spans, r.holds ts = true) ↔
        (∃ s ∈ spans, s.holds ts = true) ∧ ∀ c ∈ closures, c.holds ts = false := by
  intro spans closures
  have runsProper : ∀ s ∈ spans, s.start < s.stop := by decide
  have runsOrdered : spans.IsChain fun a b => a.stop < b.start := by decide
  have closuresProper : ∀ c ∈ closures, c.start < c.stop := by decide
  have closuresOrdered : closures.IsChain fun a b => a.stop ≤ b.start := by decide
  have cut : cutClosures closures spans = [⟨0, 10⟩, ⟨40, 45⟩, ⟨50, 55⟩] := by decide
  obtain ⟨separated, held, -⟩ :=
    cutClosures_difference runsProper runsOrdered closuresProper closuresOrdered
  rw [cut] at separated
  exact ⟨runsProper, runsOrdered, closuresProper, closuresOrdered, cut, separated, held⟩

end Calendar

end MarketBook
