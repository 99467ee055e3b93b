/-
Module: MarketBook.Proofs.MergeReports
Purpose: A merge always works, keeps the newest rows, and reports numbers that balance.
Main exports:
  Rows.length_put, Rows.merge_counts, Rows.card_openTimes, BarCache.MergesTo, BarCache.mergesTo,
  Reachable.merge_balances
-/
import Mathlib.Data.Finset.Card
import MarketBook.Proofs.NewestRows
import MarketBook.Proofs.WorkingCaches

namespace MarketBook

/-!
Every bar that comes in either lengthens the rows by one or is counted as a duplicate, and a trim
drops what is too much and nothing else.  So no bar gets lost in the counts, whatever open times the
rows and the pending bars share.  The counts rest on rows that ascend: among others a bar could take
a second place beside a row with its open time.
-/

namespace Rows

variable {opened : Int} {b : Bar} {rows existing : List Bar}

theorem holds_iff : holds opened rows = true ↔ ∃ r ∈ rows, r.openTime = opened := by
  simp [holds]

/-- A row lengthens others exactly if none of them has its open time. -/
theorem length_put (ascending : Ascending rows) :
    (put b rows).length = rows.length + if holds b.openTime rows then 0 else 1 := by
  induction rows with
  | nil => rfl
  | cons r rest ih =>
      obtain ⟨first, tail⟩ := List.pairwise_cons.1 ascending
      simp only [put]
      split
      case isTrue before =>
        have missing : ¬ holds b.openTime (r :: rest) = true := by
          rw [holds_iff]
          rintro ⟨x, hx, same⟩
          rcases List.mem_cons.1 hx with rfl | hx
          · omega
          · have := first x hx
            omega
        rw [if_neg missing, List.length_cons]
      case isFalse =>
        split
        case isTrue same =>
          have there : holds b.openTime (r :: rest) = true :=
            holds_iff.2 ⟨r, List.mem_cons_self, same.symm⟩
          rw [if_pos there, List.length_cons, List.length_cons, Nat.add_zero]
        case isFalse apart =>
          have onward : holds b.openTime (r :: rest) = holds b.openTime rest := by
            simp [holds, Ne.symm apart]
          rw [List.length_cons, List.length_cons, ih tail, onward]
          omega

/-- One bar more makes one row more or one duplicate more. -/
theorem add_counts {m : Merged} (ascending : Ascending m.rows) :
    (m.add b).rows.length + (m.add b).duplicates = m.rows.length + m.duplicates + 1 := by
  have length := length_put (b := b) ascending
  unfold Merged.add
  split
  case isTrue there =>
    rw [if_pos there] at length
    simp only [length]
    omega
  case isFalse missing =>
    rw [if_neg missing] at length
    simp only [length]
    omega

theorem foldl_add_counts (incoming : List Bar) :
    ∀ {m : Merged}, Ascending m.rows →
      (incoming.foldl Merged.add m).rows.length + (incoming.foldl Merged.add m).duplicates =
        m.rows.length + m.duplicates + incoming.length := by
  induction incoming with
  | nil => exact fun _ => rfl
  | cons b rest ih =>
      intro m ascending
      have next : Ascending (m.add b).rows := by
        rw [add_rows]
        exact put_ascending b ascending
      have := add_counts (b := b) ascending
      rw [List.foldl_cons, ih next, List.length_cons]
      omega

/-- Rows and duplicates after a merge are as many as the rows before it and the incoming ones. -/
theorem merge_counts (ascending : Ascending existing) (incoming : List Bar) :
    (merge existing incoming).rows.length + (merge existing incoming).duplicates =
      existing.length + incoming.length := by
  unfold merge
  rw [ascending.sorted]
  exact foldl_add_counts incoming ascending

/-- A merge has one row for every open time. -/
theorem card_openTimes (ascending : Ascending existing) (incoming : List Bar) :
    ((existing ++ incoming).map (·.openTime)).toFinset.card =
      (merge existing incoming).rows.length := by
  have keeps := (ascending.keeps ((merge existing incoming).rows.length + 1)).merged incoming
  have same : ((existing ++ incoming).map (·.openTime)).toFinset =
      ((merge existing incoming).rows.map (·.openTime)).toFinset := by
    ext t
    simp only [List.mem_toFinset, List.mem_map]
    constructor
    · rintro ⟨b, hb, rfl⟩
      rcases keeps.complete b hb with there | tooMany
      · exact there
      · have := (merge existing incoming).rows.countP_le_length (p := (b.openTime < ·.openTime))
        omega
    · rintro ⟨b, hb, rfl⟩
      exact ⟨b, mem_of_lastAt (keeps.last b hb), rfl⟩
  have distinct : ((merge existing incoming).rows.map (·.openTime)).Nodup :=
    List.pairwise_map.2 (keeps.ascending.imp fun before => before.ne)
  rw [same, List.toFinset_card_of_nodup distinct, List.length_map]

end Rows

open BarCache Device

/-- What a merge with room for so many rows has to leave and to report.  The rows are the newest
ones, each the last pending bar with its open time or else the row that was there; and every bar is
found again in one of the counts. -/
structure BarCache.MergesTo (c : BarCache) (limit : Nat) (report : Report) (rows : List Bar) :
    Prop where
  ascending : Rows.Ascending rows
  lastWriter : ∀ b ∈ rows,
    (Rows.lastAt b.openTime c.pending).or (Rows.lastAt b.openTime c.rows) = some b
  dropped : ∀ b ∈ c.rows ++ c.pending, (∀ r ∈ rows, r.openTime ≠ b.openTime) →
    ∀ r ∈ rows, b.openTime < r.openTime
  total : report.total = rows.length
  bounded : report.total ≤ limit
  balance : c.rows.length + c.pending.length =
    report.total + report.trimmed + report.duplicates
  inserted : (report.inserted : Int) = max 0 ((report.total : Int) - c.rows.length)
  full : 0 < report.trimmed → report.total = limit
  openTimes : ((c.rows ++ c.pending).map (·.openTime)).toFinset.card =
    report.total + report.trimmed

/-- A merge into rows that ascend leaves and reports what it has to. -/
theorem BarCache.mergesTo {c : BarCache} (ascending : Rows.Ascending c.rows) (limit : Option Nat) :
    c.MergesTo (limitOr c.maxBars limit) (c.mergeReport limit) (c.mergedRows limit) := by
  have newest : Rows.NewestOf (limitOr c.maxBars limit) (c.rows ++ c.pending)
      (c.mergedRows limit) :=
    ((ascending.keeps _).merged c.pending).trim
  have counted := Rows.merge_counts ascending c.pending
  have trimmed : (c.mergedRows limit).length =
      min (limitOr c.maxBars limit) (Rows.merge c.rows c.pending).rows.length :=
    Rows.length_trim _ _
  exact {
    ascending := newest.ascending
    lastWriter := fun b hb => by
      rw [← Rows.lastAt_append]
      exact newest.last b hb
    dropped := fun b hb gone => (newest.missing hb gone).2
    total := rfl
    bounded := newest.bounded
    balance := by
      simp only [mergeReport]
      omega
    inserted := by
      simp only [mergeReport]
      omega
    full := by
      simp only [mergeReport]
      omega
    openTimes := by
      rw [Rows.card_openTimes ascending]
      simp only [mergeReport]
      omega }

variable {allowed : Action → Prop} {s : Session}

/-- In every reachable state a merge works with every limit.  It empties the pending bars and
changes nothing else but the rows, which become the newest ones; and its report balances. -/
theorem Reachable.merge_balances (reachable : Reachable allowed s) (limit : Option Nat) :
    ∃ report rows,
      Ends (mergeAndTrim limit) s (.ok report)
        { s with cache := { s.cache with rows := rows, pending := [] } } ∧
      s.cache.MergesTo (limitOr s.cache.maxBars limit) report rows := by
  have holds := reachable.holds fun binding a _ => gated_sound binding a.incoming
  exact ⟨_, _, ends_mergeAndTrim.2 ⟨rfl, rfl⟩, mergesTo holds.ascending limit⟩

/-- A bar that corrects the one row there is, and two bars of the next minute, all pending. -/
def metalPending : Session :=
  (Action.append [metalBar 1700000040000 5, metalBar 1700000100000 3,
    metalBar 1700000100000 4]).after metalSession

/-- With room for one row, two of the bars were duplicates and the older row is dropped. -/
theorem metalPending_merge_balances :
    ∃ report rows,
      Ends (mergeAndTrim (some 1)) metalPending (.ok report)
        { metalPending with cache := { metalPending.cache with rows := rows, pending := [] } } ∧
      metalPending.cache.MergesTo 1 report rows ∧ report = ⟨0, 2, 1, 1⟩ := by
  have reachable : Reachable (fun _ => True) metalPending :=
    .step _ trivial (.step metalArrival trivial (.start metalCache_created _))
  obtain ⟨report, rows, ended, merges⟩ := reachable.merge_balances (some 1)
  refine ⟨report, rows, ended, merges, ?_⟩
  obtain ⟨same, -⟩ := ends_mergeAndTrim.1 ended
  cases same
  decide +kernel

end MarketBook
