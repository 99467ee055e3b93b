/-
Module: MarketBook.Proofs.RowLists
Purpose: Merging and trimming keep rows in strictly ascending order and add no row of their own.
Main exports:
  Rows.Ascending, Rows.requireAscending_eq_ok, Rows.put_ascending, Rows.merge_ascending,
  Rows.mem_merge, Rows.trim_ascending, Rows.length_trim
-/
import MarketBook.Bar.Rows
import MarketBook.Proofs.Outcomes

namespace MarketBook.Rows

open Outcome

/-!
The rows of a merge are put one by one into rows that ascend, so they ascend from the first to the
last; the check that follows a merge can never fail.
-/

/-- Every row opens before the rows behind it. -/
def Ascending (rows : List Bar) : Prop :=
  rows.Pairwise fun a b => a.openTime < b.openTime

variable {b x : Bar} {rows existing incoming : List Bar}

/-- Neighbours in order are enough, because the order goes on from neighbour to neighbour. -/
theorem requireAscending_eq_ok : requireAscending rows = .ok () ↔ Ascending rows := by
  induction rows with
  | nil => exact ⟨fun _ => .nil, fun _ => rfl⟩
  | cons a rest ih =>
      cases rest with
      | nil => exact ⟨fun _ => List.pairwise_singleton _ _, fun _ => rfl⟩
      | cons b rest =>
          simp only [requireAscending]
          constructor
          · intro passed
            split at passed
            · cases passed
            · split at passed
              · cases passed
              · have tail := ih.1 passed
                refine List.pairwise_cons.2 ⟨fun c hc => ?_, tail⟩
                rcases List.mem_cons.1 hc with rfl | hc
                · omega
                · have := (List.pairwise_cons.1 tail).1 c hc
                  omega
          · intro ascending
            obtain ⟨first, tail⟩ := List.pairwise_cons.1 ascending
            have := first b List.mem_cons_self
            rw [if_neg (by omega), if_neg (by omega)]
            exact ih.2 tail

/-! ### One row -/

theorem mem_put (h : x ∈ put b rows) : x = b ∨ x ∈ rows := by
  induction rows with
  | nil => exact Or.inl (List.mem_singleton.1 h)
  | cons r rest ih =>
      simp only [put] at h
      split at h
      · exact List.mem_cons.1 h
      · split at h
        · rcases List.mem_cons.1 h with same | inRest
          · exact Or.inl same
          · exact Or.inr (List.mem_cons_of_mem r inRest)
        · rcases List.mem_cons.1 h with same | inRest
          · exact Or.inr (same ▸ List.mem_cons_self)
          · rcases ih inRest with same | inRest
            · exact Or.inl same
            · exact Or.inr (List.mem_cons_of_mem r inRest)

theorem put_ascending (b : Bar) (ascending : Ascending rows) : Ascending (put b rows) := by
  induction rows with
  | nil => exact List.pairwise_singleton _ _
  | cons r rest ih =>
      obtain ⟨first, tail⟩ := List.pairwise_cons.1 ascending
      simp only [put]
      split
      case isTrue before =>
        refine List.pairwise_cons.2 ⟨fun x hx => ?_, ascending⟩
        rcases List.mem_cons.1 hx with rfl | hx
        · exact before
        · have := first x hx
          omega
      case isFalse =>
        split
        case isTrue same =>
          refine List.pairwise_cons.2 ⟨fun x hx => ?_, tail⟩
          have := first x hx
          omega
        case isFalse =>
          refine List.pairwise_cons.2 ⟨fun x hx => ?_, ih tail⟩
          rcases mem_put hx with rfl | hx
          · omega
          · exact first x hx

/-! ### Many rows -/

theorem foldl_put_ascending (incoming : List Bar) :
    ∀ {rows : List Bar}, Ascending rows →
      Ascending (incoming.foldl (fun done b => put b done) rows) := by
  induction incoming with
  | nil => exact fun ascending => ascending
  | cons b rest ih => exact fun ascending => ih (put_ascending b ascending)

theorem mem_foldl_put (incoming : List Bar) :
    ∀ {rows : List Bar}, x ∈ incoming.foldl (fun done b => put b done) rows →
      x ∈ rows ∨ x ∈ incoming := by
  induction incoming with
  | nil => exact fun h => Or.inl h
  | cons b rest ih =>
      intro rows h
      rcases ih h with inPut | inRest
      · rcases mem_put inPut with same | inRows
        · exact Or.inr (same ▸ List.mem_cons_self)
        · exact Or.inl inRows
      · exact Or.inr (List.mem_cons_of_mem b inRest)

theorem add_rows (m : Merged) (b : Bar) : (m.add b).rows = put b m.rows := by
  unfold Merged.add
  split
  · rfl
  · rfl

/-- The counts aside, a merge puts the incoming rows into the existing ones. -/
theorem merge_rows (existing incoming : List Bar) :
    (merge existing incoming).rows =
      incoming.foldl (fun done b => put b done) (sorted existing) := by
  have counted : ∀ (incoming : List Bar) (m : Merged),
      (incoming.foldl Merged.add m).rows = incoming.foldl (fun done b => put b done) m.rows := by
    intro incoming
    induction incoming with
    | nil => exact fun _ => rfl
    | cons b rest ih =>
        intro m
        rw [List.foldl_cons, ih, add_rows, List.foldl_cons]
  exact counted incoming _

theorem merge_ascending (existing incoming : List Bar) :
    Ascending (merge existing incoming).rows := by
  rw [merge_rows]
  exact foldl_put_ascending incoming (foldl_put_ascending existing List.Pairwise.nil)

/-- A row of a merge was there before or came in. -/
theorem mem_merge (h : x ∈ (merge existing incoming).rows) : x ∈ existing ∨ x ∈ incoming := by
  rw [merge_rows] at h
  rcases mem_foldl_put incoming h with inSorted | inIncoming
  · rcases mem_foldl_put existing inSorted with nowhere | inExisting
    · cases nowhere
    · exact Or.inl inExisting
  · exact Or.inr inIncoming

theorem mem_trim {limit : Nat} (h : x ∈ trim limit rows) : x ∈ rows :=
  List.mem_of_mem_drop h

theorem trim_ascending (limit : Nat) (ascending : Ascending rows) : Ascending (trim limit rows) :=
  ascending.sublist (List.drop_sublist _ rows)

theorem length_trim (limit : Nat) (rows : List Bar) :
    (trim limit rows).length = min limit rows.length := by
  rw [trim, List.length_drop]
  omega

end MarketBook.Rows
