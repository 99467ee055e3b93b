/-
Module: MarketBook.Proofs.NewestRows
Purpose: Merging rows in portions and trimming after each of them keeps the newest rows of all that
  came in, whatever the portions.
Main exports:
  Rows.lastAt, Rows.Keeps, Rows.NewestOf, Rows.Keeps.merged, Rows.NewestOf.unique,
  Rows.NewestOf.replayed
-/
import Mathlib.Data.List.Perm.Subperm
import MarketBook.Proofs.RowLists

namespace MarketBook.Rows

/-!
What a trim drops may come in again, so the rows after a merge do not always hold all they should.
But a row is dropped only for so many newer ones, and these never get fewer: one more trim sorts out
whatever came back.  So a portion keeps what is said of the rows here, and since that determines
them, the cuts between the portions are not seen in the end.
-/

/-- The last row with an open time. -/
def lastAt (opened : Int) (source : List Bar) : Option Bar :=
  source.reverse.find? (·.openTime == opened)

/-- Rows kept of a sequence of which the newest are asked for, up to a limit.  Each is the last one
with its open time, and none is missing that has not so many newer ones among those kept. -/
structure Keeps (limit : Nat) (source rows : List Bar) : Prop where
  ascending : Ascending rows
  last : ∀ b ∈ rows, lastAt b.openTime source = some b
  complete : ∀ b ∈ source, (∃ r ∈ rows, r.openTime = b.openTime) ∨
    limit ≤ rows.countP (b.openTime < ·.openTime)

/-- The newest rows of a sequence, up to a limit: not more than that are kept. -/
structure NewestOf (limit : Nat) (source rows : List Bar) : Prop
    extends Keeps limit source rows where
  bounded : rows.length ≤ limit

variable {limit : Nat} {b x : Bar} {rows rows' source incoming : List Bar}

/-! ### The last row -/

theorem lastAt_append (opened : Int) (front back : List Bar) :
    lastAt opened (front ++ back) = (lastAt opened back).or (lastAt opened front) := by
  simp [lastAt, List.find?_append]

theorem lastAt_singleton (b : Bar) : lastAt b.openTime [b] = some b := by
  simp [lastAt]

theorem lastAt_other {opened : Int} (apart : b.openTime ≠ opened) : lastAt opened [b] = none := by
  simp [lastAt, apart]

theorem mem_of_lastAt {opened : Int} (found : lastAt opened source = some b) : b ∈ source :=
  List.mem_reverse.1 (List.mem_of_find?_eq_some found)

/-- Among rows that ascend every row is the only one with its open time. -/
theorem Ascending.eq_of_openTime (ascending : Ascending rows) (hx : x ∈ rows) (hb : b ∈ rows)
    (same : x.openTime = b.openTime) : x = b := by
  induction rows with
  | nil => cases hx
  | cons r rest ih =>
      obtain ⟨first, tail⟩ := List.pairwise_cons.1 ascending
      rcases List.mem_cons.1 hx with isFirst | hx
      · rcases List.mem_cons.1 hb with isFirst' | hb
        · rw [isFirst, isFirst']
        · have := first b hb
          rw [isFirst] at same
          omega
      · rcases List.mem_cons.1 hb with isFirst | hb
        · have := first x hx
          rw [isFirst] at same
          omega
        · exact ih tail hx hb

theorem Ascending.lastAt (ascending : Ascending rows) (hb : b ∈ rows) :
    lastAt b.openTime rows = some b := by
  cases found : Rows.lastAt b.openTime rows with
  | none =>
      have none := List.find?_eq_none.1 found b (List.mem_reverse.2 hb)
      simp at none
  | some r =>
      have same : r.openTime = b.openTime := by simpa using List.find?_some found
      rw [ascending.eq_of_openTime (mem_of_lastAt found) hb same]

theorem Ascending.nodup (ascending : Ascending rows) : rows.Nodup :=
  ascending.imp fun before same => by
    rw [same] at before
    omega

/-- Rows that ascend are determined by what they hold. -/
theorem Ascending.ext (ascending : Ascending rows) (ascending' : Ascending rows')
    (same : ∀ b, b ∈ rows ↔ b ∈ rows') : rows = rows' := by
  have perm : rows.Perm rows' := (List.perm_ext_iff_of_nodup ascending.nodup ascending'.nodup).2 same
  exact perm.eq_of_pairwise (fun a b _ _ before after => by omega) ascending ascending'

/-! ### One row more -/

theorem mem_put_iff (ascending : Ascending rows) :
    x ∈ put b rows ↔ x = b ∨ x ∈ rows ∧ x.openTime ≠ b.openTime := by
  induction rows with
  | nil => simp [put]
  | cons r rest ih =>
      obtain ⟨first, tail⟩ := List.pairwise_cons.1 ascending
      have ih := ih tail
      simp only [put]
      split
      case isTrue before => grind
      case isFalse =>
        split
        case isTrue same => grind
        case isFalse apart => grind

/-- A row that is put among others takes the place of none newer than an instant but one that is no
older itself. -/
theorem countP_put (opened : Int) (b : Bar) (rows : List Bar) :
    rows.countP (opened < ·.openTime) ≤ (put b rows).countP (opened < ·.openTime) := by
  induction rows with
  | nil => exact Nat.zero_le _
  | cons r rest ih =>
      simp only [put]
      split
      case isTrue => simp only [List.countP_cons]; omega
      case isFalse =>
        split
        case isTrue same => simp only [List.countP_cons, same]; omega
        case isFalse => simp only [List.countP_cons]; omega

theorem Keeps.put (keeps : Keeps limit source rows) (b : Bar) :
    Keeps limit (source ++ [b]) (put b rows) where
  ascending := put_ascending b keeps.ascending
  last := by
    intro x hx
    rw [lastAt_append]
    rcases (mem_put_iff keeps.ascending).1 hx with rfl | ⟨inRows, apart⟩
    · rw [lastAt_singleton]
      rfl
    · rw [lastAt_other (Ne.symm apart)]
      exact keeps.last x inRows
  complete := by
    intro x hx
    have new : b ∈ Rows.put b rows := (mem_put_iff keeps.ascending).2 (Or.inl rfl)
    rcases List.mem_append.1 hx with inSource | isNew
    · by_cases same : x.openTime = b.openTime
      · exact Or.inl ⟨b, new, same.symm⟩
      · rcases keeps.complete x inSource with ⟨r, hr, found⟩ | newer
        · have stays : r ∈ Rows.put b rows :=
            (mem_put_iff keeps.ascending).2 (Or.inr ⟨hr, by omega⟩)
          exact Or.inl ⟨r, stays, found⟩
        · exact Or.inr (Nat.le_trans newer (countP_put x.openTime b rows))
    · rw [List.mem_singleton.1 isNew]
      exact Or.inl ⟨b, new, rfl⟩

/-! ### Whole portions -/

/-- Rows that ascend keep themselves in full. -/
theorem Ascending.keeps (ascending : Ascending rows) (limit : Nat) : Keeps limit rows rows where
  ascending := ascending
  last := fun _ hb => ascending.lastAt hb
  complete := fun b hb => Or.inl ⟨b, hb, rfl⟩

theorem Keeps.foldl_put (incoming : List Bar) :
    ∀ {source rows : List Bar}, Keeps limit source rows →
      Keeps limit (source ++ incoming) (incoming.foldl (fun done b => Rows.put b done) rows) := by
  induction incoming with
  | nil =>
      intro source rows keeps
      rw [List.append_nil]
      exact keeps
  | cons b rest ih =>
      intro source rows keeps
      rw [List.append_cons]
      exact ih (keeps.put b)

theorem keeps_nil (limit : Nat) : Keeps limit [] [] :=
  Ascending.keeps .nil limit

/-- Sorting rows that ascend leaves them as they are. -/
theorem Ascending.sorted (ascending : Ascending rows) : sorted rows = rows := by
  have keeps : Keeps ((Rows.sorted rows).length + 1) rows (Rows.sorted rows) :=
    (keeps_nil _).foldl_put rows
  refine keeps.ascending.ext ascending fun b => ⟨fun hb => mem_of_lastAt (keeps.last b hb), ?_⟩
  intro hb
  rcases keeps.complete b hb with ⟨r, hr, same⟩ | tooMany
  · have inRows := mem_of_lastAt (keeps.last r hr)
    rw [← ascending.eq_of_openTime inRows hb same]
    exact hr
  · have := (Rows.sorted rows).countP_le_length (p := fun r => b.openTime < r.openTime)
    omega

/-- A merge keeps of all rows what was kept before, and the incoming ones. -/
theorem Keeps.merged (keeps : Keeps limit source rows) (incoming : List Bar) :
    Keeps limit (source ++ incoming) (merge rows incoming).rows := by
  rw [merge_rows, keeps.ascending.sorted]
  exact keeps.foldl_put incoming

/-- Of rows that ascend a trim drops only such as have `limit` newer ones behind it. -/
theorem Keeps.trim (keeps : Keeps limit source rows) :
    NewestOf limit source (trim limit rows) where
  ascending := trim_ascending limit keeps.ascending
  last := fun b hb => keeps.last b (mem_trim hb)
  bounded := by
    rw [Rows.trim, List.length_drop]
    omega
  complete := by
    set dropped := rows.take (rows.length - limit)
    set kept := rows.drop (rows.length - limit) with isKept
    have parts : rows = dropped ++ kept := (List.take_append_drop _ _).symm
    have before : ∀ r ∈ dropped, ∀ x ∈ kept, r.openTime < x.openTime := by
      have ascending := keeps.ascending
      rw [parts] at ascending
      exact (List.pairwise_append.1 ascending).2.2
    -- Where anything is dropped, `limit` rows are kept, and all are newer than what is dropped.
    have newer : ∀ b : Bar, (∃ r ∈ dropped, b.openTime ≤ r.openTime) →
        limit ≤ kept.countP (b.openTime < ·.openTime) := by
      rintro b ⟨r, hr, notNewer⟩
      have all : kept.countP (b.openTime < ·.openTime) = kept.length :=
        List.countP_eq_length.2 fun x hx => by
          have := before r hr x hx
          exact decide_eq_true (by omega)
      have some : 0 < dropped.length := List.length_pos_of_mem hr
      rw [List.length_take] at some
      rw [all, isKept, List.length_drop]
      omega
    intro b hb
    rcases keeps.complete b hb with ⟨r, hr, same⟩ | enough
    · rw [parts] at hr
      rcases List.mem_append.1 hr with isDropped | isKept
      · exact Or.inr (newer b ⟨r, isDropped, by omega⟩)
      · exact Or.inl ⟨r, isKept, same⟩
    · refine Or.inr ?_
      rw [parts, List.countP_append] at enough
      by_cases any : ∃ r ∈ dropped, b.openTime < r.openTime
      · obtain ⟨r, hr, older⟩ := any
        exact newer b ⟨r, hr, by omega⟩
      · have none : dropped.countP (b.openTime < ·.openTime) = 0 :=
          List.countP_eq_zero.2 fun r hr older => any ⟨r, hr, of_decide_eq_true older⟩
        rw [none, Nat.zero_add] at enough
        exact enough

/-! ### What the newest rows are -/

/-- A row of the sequence that is missing is older than all that are there, and there are as many as
there may be. -/
theorem NewestOf.missing (newest : NewestOf limit source rows) (hb : b ∈ source)
    (gone : ∀ r ∈ rows, r.openTime ≠ b.openTime) :
    rows.length = limit ∧ ∀ r ∈ rows, b.openTime < r.openTime := by
  rcases newest.complete b hb with ⟨r, hr, same⟩ | enough
  · exact absurd same (gone r hr)
  · have bounded := newest.bounded
    have counted := rows.countP_le_length (p := fun r => b.openTime < r.openTime)
    have all : rows.countP (b.openTime < ·.openTime) = rows.length := by omega
    exact ⟨by omega, fun r hr => of_decide_eq_true (List.countP_eq_length.1 all r hr)⟩

/-- Rows of the one are rows of the other: if one were missing there, all that are there would be
newer and as many as there may be, and then one of these would be missing here. -/
theorem NewestOf.subset (newest : NewestOf limit source rows)
    (newest' : NewestOf limit source rows') (hb : b ∈ rows) : b ∈ rows' := by
  have last := newest.last b hb
  by_cases there : ∃ r ∈ rows', r.openTime = b.openTime
  · obtain ⟨r, hr, same⟩ := there
    have last' := newest'.last r hr
    rw [same, last] at last'
    cases last'
    exact hr
  · exfalso
    obtain ⟨full, newer⟩ := newest'.missing (mem_of_lastAt last) fun r hr same => there ⟨r, hr, same⟩
    have all : ∀ r ∈ rows', r ∈ rows := by
      intro r hr
      have last' := newest'.last r hr
      by_contra gone
      have := (newest.missing (mem_of_lastAt last') ?_).2 b hb
      · have := newer r hr
        omega
      · intro x hx same
        have lastX := newest.last x hx
        rw [same, last'] at lastX
        cases lastX
        exact gone hx
    have distinct : (b :: rows').Nodup :=
      List.nodup_cons.2 ⟨fun hb' => there ⟨b, hb', rfl⟩, newest'.ascending.nodup⟩
    have more := (List.subperm_of_subset distinct (List.cons_subset.2 ⟨hb, all⟩)).length_le
    have bounded := newest.bounded
    rw [List.length_cons] at more
    omega

/-- The newest rows of a sequence are determined by it. -/
theorem NewestOf.unique (newest : NewestOf limit source rows)
    (newest' : NewestOf limit source rows') : rows = rows' :=
  newest.ascending.ext newest'.ascending fun _ => ⟨newest.subset newest', newest'.subset newest⟩

/-- What came in last may come in once more. -/
theorem NewestOf.replayed {before again : List Bar}
    (newest : NewestOf limit (before ++ again ++ again) rows) :
    NewestOf limit (before ++ again) rows where
  ascending := newest.ascending
  bounded := newest.bounded
  last := by
    intro b hb
    have last := newest.last b hb
    rw [lastAt_append, lastAt_append, ← Option.or_assoc, Option.or_self] at last
    rw [lastAt_append]
    exact last
  complete := fun b hb => newest.complete b (List.mem_append_left again hb)

end MarketBook.Rows
