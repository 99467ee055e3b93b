/-
Module: MarketBook.Proofs.SpanLists
Purpose: Lists of spans in order: joining those that touch and cutting closed windows out of them
  changes what they hold in no other way.
Main exports:
  Calendar.InOrder, Calendar.Separated, Calendar.joinSpans_separated, Calendar.holds_joinSpans,
  Calendar.cutClosures_separated, Calendar.holds_cutClosures, Calendar.Separated.find?_first,
  Calendar.Separated.find?_last
-/
import Mathlib.Data.List.Basic
import Mathlib.Order.MinMax
import MarketBook.Calendar.Runs
import MarketBook.Proofs.ClosureLists

namespace MarketBook

theorem Span.holds_iff {s : Span} {ts : Int} : s.holds ts = true ↔ s.start ≤ ts ∧ ts < s.stop := by
  simp [Span.holds]

theorem Span.isProper_iff {s : Span} : s.isProper = true ↔ s.start < s.stop := by
  simp [Span.isProper]

namespace Calendar

/-!
What matters of a list of spans is which instants it holds.  The open parts of a day come in order
and may touch each other over midnight; the runs made of them are separated, and therefore the ends
of a run are the instants at which being held changes.
-/

/-- Spans that are not empty, each behind the ones before. -/
structure InOrder (spans : List Span) : Prop where
  proper : ∀ s ∈ spans, s.start < s.stop
  ordered : spans.Pairwise fun a b => a.stop ≤ b.start

/-- Spans that are not empty, with an instant between each and the ones before. -/
structure Separated (spans : List Span) : Prop where
  proper : ∀ s ∈ spans, s.start < s.stop
  gaps : spans.Pairwise fun a b => a.stop < b.start

theorem InOrder.tail {s : Span} {spans : List Span} (h : InOrder (s :: spans)) : InOrder spans :=
  ⟨fun t ht => h.proper t (List.mem_cons_of_mem s ht), (List.pairwise_cons.1 h.ordered).2⟩

theorem Separated.tail {s : Span} {spans : List Span} (h : Separated (s :: spans)) :
    Separated spans :=
  ⟨fun t ht => h.proper t (List.mem_cons_of_mem s ht), (List.pairwise_cons.1 h.gaps).2⟩

theorem Separated.nil : Separated [] :=
  ⟨fun _ hs => absurd hs List.not_mem_nil, List.Pairwise.nil⟩

/-- A span behind separated spans, with an instant between. -/
theorem Separated.concat {done : List Span} {s : Span} (separated : Separated done)
    (proper : s.start < s.stop) (behind : ∀ a ∈ done, a.stop < s.start) :
    Separated (done ++ [s]) := by
  refine ⟨?_, ?_⟩
  · intro t ht
    rcases List.mem_append.1 ht with ht | ht
    · exact separated.proper t ht
    · rw [List.mem_singleton.1 ht]
      exact proper
  · refine List.pairwise_append.2 ⟨separated.gaps, List.pairwise_singleton _ _, ?_⟩
    intro a ha b hb
    rw [List.mem_singleton.1 hb]
    exact behind a ha

variable {done spans : List Span} {s : Span} {ts : Int}

/-! ### Joining -/

/-- A span that touches the last one extends it, and any other span becomes the last one. -/
theorem joinSpan_concat (done : List Span) (last s : Span) :
    joinSpan (done ++ [last]) s =
      if s.start ≤ last.stop then done ++ [⟨last.start, max last.stop s.stop⟩]
      else done ++ [last] ++ [s] := by
  simp [joinSpan]

theorem joinSpan_separated (separated : Separated done) (proper : s.start < s.stop)
    (behind : ∀ a ∈ done, a.stop ≤ s.start) : Separated (joinSpan done s) := by
  rcases List.eq_nil_or_concat' done with rfl | ⟨front, last, rfl⟩
  · exact Separated.nil.concat proper (by simp)
  · have lastProper : last.start < last.stop := separated.proper last (by simp)
    have lastBehind : last.stop ≤ s.start := behind last (by simp)
    have frontGaps := List.pairwise_append.1 separated.gaps
    have frontSeparated : Separated front :=
      ⟨fun t ht => separated.proper t (List.mem_append_left _ ht), frontGaps.1⟩
    rw [joinSpan_concat]
    split
    case isTrue =>
      apply frontSeparated.concat
      · exact lt_of_lt_of_le lastProper (le_max_left _ _)
      · intro a ha
        exact frontGaps.2.2 a ha last (List.mem_singleton.2 rfl)
    case isFalse apart =>
      apply separated.concat proper
      intro a ha
      rcases List.mem_append.1 ha with ha | ha
      · have := frontGaps.2.2 a ha last (List.mem_singleton.2 rfl)
        omega
      · rw [List.mem_singleton.1 ha]
        exact not_le.1 apart

/-- Joining a span adds exactly what the span holds. -/
theorem holds_joinSpan (separated : Separated done) (proper : s.start < s.stop)
    (behind : ∀ a ∈ done, a.stop ≤ s.start) :
    (∃ r ∈ joinSpan done s, r.holds ts = true) ↔
      (∃ r ∈ done, r.holds ts = true) ∨ s.holds ts = true := by
  rcases List.eq_nil_or_concat' done with rfl | ⟨front, last, rfl⟩
  · simp [joinSpan]
  · have lastProper : last.start < last.stop := separated.proper last (by simp)
    have lastBehind : last.stop ≤ s.start := behind last (by simp)
    rw [joinSpan_concat]
    split
    case isTrue touches =>
      have joined : (⟨last.start, max last.stop s.stop⟩ : Span).holds ts = true ↔
          last.holds ts = true ∨ s.holds ts = true := by
        simp only [Span.holds_iff]
        omega
      simp only [List.mem_append, List.mem_singleton, or_and_right, exists_or, exists_eq_left,
        joined, or_assoc]
    case isFalse =>
      simp only [List.mem_append, List.mem_singleton, or_and_right, exists_or, exists_eq_left]

theorem stop_le_of_mem_joinSpan (proper : s.start < s.stop) (behind : ∀ a ∈ done, a.stop ≤ s.start)
    {r : Span} (hr : r ∈ joinSpan done s) : r.stop ≤ s.stop := by
  rcases List.eq_nil_or_concat' done with rfl | ⟨front, last, rfl⟩
  · exact le_of_eq (congrArg Span.stop (List.mem_singleton.1 hr))
  · rw [joinSpan_concat] at hr
    have lastBehind : last.stop ≤ s.start := behind last (by simp)
    split at hr
    case isTrue =>
      rcases List.mem_append.1 hr with hr | hr
      · have := behind r (List.mem_append_left _ hr)
        omega
      · rw [List.mem_singleton.1 hr]
        exact max_le (by omega) le_rfl
    case isFalse =>
      rcases List.mem_append.1 hr with hr | hr
      · have := behind r hr
        omega
      · exact le_of_eq (congrArg Span.stop (List.mem_singleton.1 hr))

/-- Both facts about joining go along the list together, because each step needs the order that the
steps before have kept. -/
theorem foldl_joinSpan (order : InOrder spans) :
    ∀ {done : List Span}, Separated done → (∀ a ∈ done, ∀ b ∈ spans, a.stop ≤ b.start) →
      Separated (spans.foldl joinSpan done) ∧
        ∀ ts, (∃ r ∈ spans.foldl joinSpan done, r.holds ts = true) ↔
          (∃ r ∈ done, r.holds ts = true) ∨ ∃ r ∈ spans, r.holds ts = true := by
  induction spans with
  | nil =>
      intro done separated _
      exact ⟨separated, by simp⟩
  | cons s rest ih =>
      intro done separated behind
      have proper : s.start < s.stop := order.proper s List.mem_cons_self
      have sBehind : ∀ a ∈ done, a.stop ≤ s.start := fun a ha => behind a ha s List.mem_cons_self
      have later : ∀ a ∈ joinSpan done s, ∀ b ∈ rest, a.stop ≤ b.start := by
        intro a ha b hb
        have := stop_le_of_mem_joinSpan proper sBehind ha
        exact le_trans this ((List.pairwise_cons.1 order.ordered).1 b hb)
      obtain ⟨gaps, same⟩ := ih order.tail (joinSpan_separated separated proper sBehind) later
      refine ⟨gaps, fun ts => ?_⟩
      rw [List.foldl_cons, same, holds_joinSpan separated proper sBehind]
      simp only [List.mem_cons, or_and_right, exists_or, exists_eq_left, or_assoc]

theorem joinSpans_separated (order : InOrder spans) : Separated (joinSpans spans) :=
  (foldl_joinSpan order Separated.nil (by simp)).1

theorem holds_joinSpans (order : InOrder spans) :
    (∃ r ∈ joinSpans spans, r.holds ts = true) ↔ ∃ r ∈ spans, r.holds ts = true := by
  have := (foldl_joinSpan order Separated.nil (by simp)).2 ts
  simpa [joinSpans] using this

/-! ### Cutting -/

/-- One span, unless it would be empty. -/
def piece (start stop : Int) : List Span :=
  if start < stop then [⟨start, stop⟩] else []

theorem cutSpan_nil (stop start : Int) : cutSpan stop start [] = piece start stop := rfl

theorem cutSpan_cons (stop start : Int) (c : Closure) (rest : List Closure) :
    cutSpan stop start (c :: rest) =
      if stop ≤ c.start ∨ stop ≤ start then piece start stop
      else piece start c.start ++ cutSpan stop (max start c.stop) rest := rfl

theorem mem_piece {start stop : Int} : s ∈ piece start stop ↔ s = ⟨start, stop⟩ ∧ start < stop := by
  unfold piece
  split <;> simp_all

theorem holds_piece {start stop : Int} :
    (∃ r ∈ piece start stop, r.holds ts = true) ↔ start ≤ ts ∧ ts < stop := by
  simp only [mem_piece, and_assoc, exists_eq_left, Span.holds_iff]
  omega

theorem piece_gaps (start stop : Int) :
    (piece start stop).Pairwise fun a b => a.stop < b.start := by
  unfold piece
  split <;> simp

variable {stop : Int} {closures : List Closure}

/-- What a cut leaves lies inside the span. -/
theorem cutSpan_bounds (sound : ∀ c ∈ closures, c.start < c.stop) :
    ∀ {start : Int}, ∀ r ∈ cutSpan stop start closures,
      start ≤ r.start ∧ r.start < r.stop ∧ r.stop ≤ stop := by
  induction closures with
  | nil =>
      intro start r hr
      obtain ⟨rfl, proper⟩ := mem_piece.1 hr
      exact ⟨le_rfl, proper, le_rfl⟩
  | cons c rest ih =>
      intro start r hr
      have cProper := sound c List.mem_cons_self
      rw [cutSpan_cons] at hr
      split at hr
      · obtain ⟨rfl, proper⟩ := mem_piece.1 hr
        exact ⟨le_rfl, proper, le_rfl⟩
      · rcases List.mem_append.1 hr with hr | hr
        · obtain ⟨rfl, proper⟩ := mem_piece.1 hr
          exact ⟨le_rfl, proper, by simp only; omega⟩
        · obtain ⟨late, proper, inside⟩ := ih (fun d hd => sound d (List.mem_cons_of_mem c hd)) r hr
          exact ⟨(le_max_left _ _).trans late, proper, inside⟩

/-- The first piece stops where a window starts, and the next one starts where that window has
stopped or later. -/
theorem cutSpan_gaps (sound : ∀ c ∈ closures, c.start < c.stop) :
    ∀ {start : Int}, (cutSpan stop start closures).Pairwise fun a b => a.stop < b.start := by
  induction closures with
  | nil => exact piece_gaps _ _
  | cons c rest ih =>
      intro start
      have cProper := sound c List.mem_cons_self
      have restSound : ∀ d ∈ rest, d.start < d.stop :=
        fun d hd => sound d (List.mem_cons_of_mem c hd)
      rw [cutSpan_cons]
      split
      · exact piece_gaps _ _
      · refine List.pairwise_append.2 ⟨piece_gaps _ _, ih restSound, ?_⟩
        intro a ha b hb
        obtain ⟨rfl, -⟩ := mem_piece.1 ha
        have late := (cutSpan_bounds restSound b hb).1
        exact lt_of_lt_of_le cProper ((le_max_right _ _).trans late)

theorem not_holds_iff {c : Closure} : c.holds ts = false ↔ ¬ (c.start ≤ ts ∧ ts < c.stop) := by
  rw [← Closure.holds_iff, Bool.not_eq_true]

/-- A cut takes away what the windows hold and nothing else. -/
theorem holds_cutSpan (sound : ∀ c ∈ closures, c.start < c.stop) (apart : Closure.Apart closures) :
    ∀ {start : Int}, (∃ r ∈ cutSpan stop start closures, r.holds ts = true) ↔
      (start ≤ ts ∧ ts < stop) ∧ ∀ c ∈ closures, c.holds ts = false := by
  induction closures with
  | nil =>
      intro start
      simp only [cutSpan_nil, holds_piece, List.not_mem_nil, false_implies, implies_true, and_true]
  | cons c rest ih =>
      intro start
      have cProper := sound c List.mem_cons_self
      have restSound : ∀ d ∈ rest, d.start < d.stop :=
        fun d hd => sound d (List.mem_cons_of_mem c hd)
      have behind : ∀ d ∈ rest, c.stop ≤ d.start := (List.pairwise_cons.1 apart).1
      rw [cutSpan_cons]
      split
      case isTrue beyond =>
        rw [holds_piece, iff_self_and]
        intro inside d hd
        rw [not_holds_iff]
        rcases List.mem_cons.1 hd with rfl | hd
        · omega
        · have := behind d hd
          omega
      case isFalse =>
        simp only [List.mem_append, or_and_right, exists_or, holds_piece,
          ih restSound (List.pairwise_cons.1 apart).2, List.mem_cons, forall_eq_or_imp,
          max_le_iff, not_holds_iff (c := c)]
        constructor
        · rintro (⟨late, before⟩ | ⟨⟨late, inside⟩, others⟩)
          · refine ⟨⟨late, by omega⟩, by omega, fun d hd => not_holds_iff.2 ?_⟩
            have := behind d hd
            omega
          · exact ⟨⟨late.1, inside⟩, by omega, others⟩
        · rintro ⟨⟨late, inside⟩, notC, others⟩
          by_cases before : ts < c.start
          · exact Or.inl ⟨late, before⟩
          · exact Or.inr ⟨⟨⟨late, by omega⟩, inside⟩, others⟩

/-- The windows that have stopped by the start of a span hold nothing of it. -/
theorem holds_dropped {start : Int} (late : start ≤ ts) :
    (∀ c ∈ closures.dropWhile fun c => c.stop ≤ start, c.holds ts = false) ↔
      ∀ c ∈ closures, c.holds ts = false := by
  induction closures with
  | nil => rfl
  | cons c rest ih =>
      rw [List.dropWhile_cons]
      split
      case isTrue stopped =>
        have passed : c.holds ts = false := by
          rw [not_holds_iff]
          have := of_decide_eq_true stopped
          omega
        simp [ih, passed]
      case isFalse => rfl

/-- What one span keeps when the windows are cut out of it. -/
theorem cutClosures_cons (closures : List Closure) (s : Span) (rest : List Span) :
    cutClosures closures (s :: rest) =
      cutSpan s.stop s.start (closures.dropWhile fun c => c.stop ≤ s.start) ++
        cutClosures closures rest := rfl

/-- Cutting windows out of separated spans leaves separated spans, each of them inside one of the
spans before. -/
theorem cutClosures_separated (sound : ∀ c ∈ closures, c.start < c.stop)
    (separated : Separated spans) : Separated (cutClosures closures spans) := by
  have kept : ∀ s : Span, ∀ c ∈ closures.dropWhile fun c => c.stop ≤ s.start, c.start < c.stop :=
    fun s c hc => sound c ((List.dropWhile_suffix _).subset hc)
  have inside : ∀ (s : Span), ∀ r ∈ cutSpan s.stop s.start
      (closures.dropWhile fun c => c.stop ≤ s.start), s.start ≤ r.start ∧ r.start < r.stop ∧
        r.stop ≤ s.stop := fun s => cutSpan_bounds (kept s)
  refine ⟨?_, ?_⟩
  · intro r hr
    obtain ⟨s, -, hr⟩ := List.mem_flatMap.1 hr
    exact (inside s r hr).2.1
  · refine List.pairwise_flatMap.2 ⟨fun s _ => cutSpan_gaps (kept s), separated.gaps.imp ?_⟩
    intro s t gap a ha b hb
    have := (inside s a ha).2.2
    have := (inside t b hb).1
    omega

theorem holds_cutClosures (sound : ∀ c ∈ closures, c.start < c.stop)
    (apart : Closure.Apart closures) :
    (∃ r ∈ cutClosures closures spans, r.holds ts = true) ↔
      (∃ s ∈ spans, s.holds ts = true) ∧ ∀ c ∈ closures, c.holds ts = false := by
  have one : ∀ s : Span, (∃ r ∈ cutSpan s.stop s.start
      (closures.dropWhile fun c => c.stop ≤ s.start), r.holds ts = true) ↔
        s.holds ts = true ∧ ∀ c ∈ closures, c.holds ts = false := by
    intro s
    rw [holds_cutSpan (fun c hc => sound c ((List.dropWhile_suffix _).subset hc))
      (apart.sublist (List.dropWhile_sublist _)), ← Span.holds_iff]
    exact and_congr_right fun held => holds_dropped (Span.holds_iff.1 held).1
  induction spans with
  | nil => simp [cutClosures]
  | cons s rest ih =>
      rw [cutClosures_cons]
      simp only [List.mem_append, List.mem_cons, or_and_right, exists_or, exists_eq_left, one, ih]

/-! ### The ends of a run -/

variable {runs : List Span} {run other : Span}

theorem Separated.apart (separated : Separated runs) (hrun : run ∈ runs) (hother : other ∈ runs) :
    run = other ∨ run.stop < other.start ∨ other.stop < run.start := by
  induction runs with
  | nil => cases hrun
  | cons first rest ih =>
      have later := (List.pairwise_cons.1 separated.gaps).1
      rcases List.mem_cons.1 hrun with rfl | runLater
      · rcases List.mem_cons.1 hother with rfl | otherLater
        · exact Or.inl rfl
        · exact Or.inr (Or.inl (later other otherLater))
      · rcases List.mem_cons.1 hother with rfl | otherLater
        · exact Or.inr (Or.inr (later run runLater))
        · exact ih separated.tail runLater otherLater

/-- Two runs that touch the same instant, their stops included, are one run. -/
theorem Separated.eq_of_touch (separated : Separated runs) (hrun : run ∈ runs)
    (hother : other ∈ runs) (after : run.start ≤ ts ∧ ts ≤ run.stop)
    (otherAfter : other.start ≤ ts ∧ ts ≤ other.stop) : run = other := by
  rcases separated.apart hrun hother with same | before | behind
  · exact same
  · omega
  · omega

/-- No run goes on where another one stops. -/
theorem Separated.not_holds_stop (separated : Separated runs) (hrun : run ∈ runs) :
    ¬ ∃ r ∈ runs, r.holds run.stop = true := by
  rintro ⟨r, hr, held⟩
  have bounds := Span.holds_iff.1 held
  have proper := separated.proper run hrun
  have same : run = r :=
    separated.eq_of_touch hrun hr ⟨proper.le, le_rfl⟩ ⟨bounds.1, bounds.2.le⟩
  rw [same] at bounds
  exact absurd bounds.2 (lt_irrefl _)

/-- No run goes on up to the start of another one. -/
theorem Separated.not_holds_before (separated : Separated runs) (hrun : run ∈ runs) :
    ¬ ∃ r ∈ runs, r.holds (run.start - 1) = true := by
  rintro ⟨r, hr, held⟩
  have bounds := Span.holds_iff.1 held
  have proper := separated.proper run hrun
  have same : run = r :=
    separated.eq_of_touch hrun hr ⟨le_rfl, proper.le⟩ ⟨by omega, by omega⟩
  rw [same] at bounds
  omega

/-- A search through the runs finds the first one that serves. -/
theorem Separated.find?_first (separated : Separated runs) {serves : Span → Bool}
    (found : runs.find? serves = some run) (hother : other ∈ runs) (good : serves other = true) :
    run.start ≤ other.start := by
  induction runs with
  | nil => cases found
  | cons first rest ih =>
      rw [List.find?_cons] at found
      split at found
      case h_1 =>
        cases found
        rcases List.mem_cons.1 hother with rfl | later
        · exact le_rfl
        · have gap := (List.pairwise_cons.1 separated.gaps).1 other later
          have proper := separated.proper run List.mem_cons_self
          omega
      case h_2 bad =>
        rcases List.mem_cons.1 hother with rfl | later
        · rw [bad] at good
          cases good
        · exact ih separated.tail found later

/-- A search from the end finds the last one that serves. -/
theorem Separated.find?_last (separated : Separated runs) {serves : Span → Bool}
    (found : runs.reverse.find? serves = some run) (hother : other ∈ runs)
    (good : serves other = true) : other.stop ≤ run.stop := by
  induction runs with
  | nil => cases found
  | cons first rest ih =>
      rw [List.reverse_cons, List.find?_append] at found
      cases later : rest.reverse.find? serves with
      | some last =>
          rw [later, Option.some_or] at found
          cases found
          have hrun : run ∈ rest := List.mem_reverse.1 (List.mem_of_find?_eq_some later)
          rcases List.mem_cons.1 hother with rfl | behind
          · have gap := (List.pairwise_cons.1 separated.gaps).1 run hrun
            have proper := separated.proper run (List.mem_cons_of_mem _ hrun)
            omega
          · exact ih separated.tail later behind
      | none =>
          rw [later, Option.none_or] at found
          have same : run = first := List.mem_singleton.1 (List.mem_of_find?_eq_some found)
          rcases List.mem_cons.1 hother with rfl | behind
          · rw [same]
          · exact absurd good (List.find?_eq_none.1 later other (List.mem_reverse.2 behind))

end Calendar

end MarketBook
