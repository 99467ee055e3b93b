/-
Module: MarketBook.Proofs.ClosureLists
Purpose: What a list of closed windows is after normalization, and which window of it holds an
  instant.
Main exports:
  Closure.IsSound, Closure.Apart, Closure.sort_perm, Closure.normalize_eq_ok,
  Closure.mem_distinct, Closure.normalize_eq_self, Closure.containing?_eq_some
-/
import MarketBook.Calendar.Closure
import MarketBook.Proofs.Outcomes

namespace MarketBook.Closure

open Time Outcome

/-!
Normalization sorts the windows by an insertion that keeps every one of them, and accepts the result
if each window is sound and neighbours share no instant.  In such a list the search by the end of
the windows finds the one window that holds an instant.
-/

/-- Both bounds are plausible time stamps and the window is not empty. -/
def IsSound (c : Closure) : Prop :=
  onRails c.start = true ∧ onRails c.stop = true ∧ c.start < c.stop

/-- Every window stops before the later ones start, or where they start. -/
def Apart (closures : List Closure) : Prop :=
  closures.Pairwise fun a b => a.stop ≤ b.start

theorem holds_iff {c : Closure} {ts : Int} : c.holds ts = true ↔ c.start ≤ ts ∧ ts < c.stop := by
  simp [holds]

/-! ### Soundness of the windows -/

theorem requireBound_eq_ok {index position : Nat} {value : Int} :
    requireBound index position value = .ok () ↔ onRails value = true := by
  unfold requireBound
  split <;> simp_all

theorem requireWindow_eq_ok {index : Nat} {c : Closure} :
    requireWindow index c = .ok () ↔ c.IsSound := by
  simp only [requireWindow, check_eq_ok, requireBound_eq_ok, unless_eq_ok misused_ne_ok, IsSound,
    Int.not_le]

theorem requireWindows_eq_ok {windows : List Closure} :
    ∀ {index : Nat}, requireWindows index windows = .ok () ↔ ∀ c ∈ windows, c.IsSound := by
  induction windows with
  | nil => simp [requireWindows]
  | cons c r ih =>
      intro index
      simp [requireWindows, check_eq_ok, requireWindow_eq_ok, ih]

/-! ### The order of the windows -/

theorem insert_perm (c : Closure) (closures : List Closure) :
    (insert c closures).Perm (c :: closures) := by
  induction closures with
  | nil => exact .refl _
  | cons d r ih =>
      simp only [insert]
      split
      · exact .refl _
      · exact (ih.cons d).trans (.swap c d r)

theorem sort_perm (closures : List Closure) : (sort closures).Perm closures := by
  induction closures with
  | nil => exact .refl _
  | cons c r ih => exact (insert_perm c (sort r)).trans (ih.cons c)

/-- Neighbours that share no instant are told apart exactly as all windows are, because no window is
empty. -/
theorem requireApart_eq_ok {closures : List Closure} (sound : ∀ c ∈ closures, c.IsSound) :
    requireApart closures = .ok () ↔ Apart closures := by
  induction closures with
  | nil => simp [requireApart, Apart]
  | cons c r ih =>
      cases r with
      | nil => simp [requireApart, Apart]
      | cons d r =>
          have rest := ih fun e he => sound e (List.mem_cons_of_mem c he)
          have dSound := sound d (by simp)
          simp only [requireApart]
          split
          case isTrue overlap =>
            refine ⟨fun h => absurd h misused_ne_ok, fun h => ?_⟩
            have := (List.pairwise_cons.1 h).1 d (by simp)
            omega
          case isFalse apart =>
            rw [rest]
            refine ⟨fun h => List.pairwise_cons.2 ⟨fun e he => ?_, h⟩, fun h => h.of_cons⟩
            rcases List.mem_cons.1 he with rfl | he
            · omega
            · have := (List.pairwise_cons.1 h).1 e he
              have := dSound.2.2
              omega

/-- Normalization accepts sound windows that share no instant, and puts them in order. -/
theorem normalize_eq_ok {windows closures : List Closure} :
    normalize windows = .ok closures ↔
      closures = sort windows ∧ (∀ c ∈ windows, c.IsSound) ∧ Apart (sort windows) := by
  simp only [normalize, check_eq_ok, requireWindows_eq_ok, pure_eq_ok]
  have sorted : (∀ c ∈ windows, c.IsSound) → ∀ c ∈ sort windows, c.IsSound := fun sound c hc =>
    sound c ((sort_perm windows).mem_iff.1 hc)
  constructor
  · rintro ⟨sound, apart, rfl⟩
    exact ⟨rfl, sound, (requireApart_eq_ok (sorted sound)).1 apart⟩
  · rintro ⟨rfl, sound, apart⟩
    exact ⟨sound, (requireApart_eq_ok (sorted sound)).2 apart, rfl⟩

theorem mem_distinct {c : Closure} {windows : List Closure} : c ∈ distinct windows ↔ c ∈ windows := by
  induction windows with
  | nil => simp [distinct]
  | cons d r ih =>
      simp only [distinct, List.mem_cons, List.mem_filter, ih, ne_eq, decide_eq_true_eq]
      by_cases same : c = d <;> simp [same]

/-! ### Lists that are in order already -/

theorem sort_of_apart {closures : List Closure} (sound : ∀ c ∈ closures, c.IsSound)
    (apart : Apart closures) : sort closures = closures := by
  induction closures with
  | nil => rfl
  | cons c r ih =>
      obtain ⟨first, rest⟩ := List.pairwise_cons.1 apart
      rw [sort, ih (fun d hd => sound d (List.mem_cons_of_mem c hd)) rest]
      cases r with
      | nil => rfl
      | cons d r =>
          have stops := first d (by simp)
          have forward := (sound c (by simp)).2.2
          have inOrder : c.start ≤ d.start := by omega
          simp [insert, inOrder]

/-- Windows that share no instant are all different, so none of them is a repetition. -/
theorem distinct_of_apart {closures : List Closure} (sound : ∀ c ∈ closures, c.IsSound)
    (apart : Apart closures) : distinct closures = closures := by
  induction closures with
  | nil => rfl
  | cons c r ih =>
      obtain ⟨first, rest⟩ := List.pairwise_cons.1 apart
      rw [distinct, ih (fun d hd => sound d (List.mem_cons_of_mem c hd)) rest]
      congr 1
      rw [List.filter_eq_self]
      intro d hd
      have stops := first d hd
      have forward := (sound c (by simp)).2.2
      have different : d ≠ c := by
        rintro rfl
        omega
      simpa using different

/-- A list that came out of a normalization. -/
theorem normalize_eq_self {closures : List Closure} :
    normalize closures = .ok closures ↔ (∀ c ∈ closures, c.IsSound) ∧ Apart closures := by
  rw [normalize_eq_ok]
  constructor
  · rintro ⟨same, sound, apart⟩
    rw [← same] at apart
    exact ⟨sound, apart⟩
  · rintro ⟨sound, apart⟩
    have same := sort_of_apart sound apart
    exact ⟨same.symm, sound, by rwa [same]⟩

theorem normalize_normalized {windows closures : List Closure}
    (h : normalize windows = .ok closures) : normalize closures = .ok closures := by
  obtain ⟨rfl, sound, apart⟩ := normalize_eq_ok.1 h
  exact normalize_eq_self.2 ⟨fun c hc => sound c ((sort_perm windows).mem_iff.1 hc), apart⟩

/-! ### The window of an instant -/

/-- In a list in order the search finds exactly the window that holds the instant. -/
theorem containing?_eq_some {closures : List Closure} (apart : Apart closures) {ts : Int}
    {c : Closure} : containing? closures ts = some c ↔ c ∈ closures ∧ c.holds ts = true := by
  induction closures with
  | nil => simp [containing?]
  | cons d r ih =>
      obtain ⟨first, rest⟩ := List.pairwise_cons.1 apart
      by_cases past : d.stop ≤ ts
      · have skipped : containing? (d :: r) ts = containing? r ts := by
          simp [containing?, past]
        rw [skipped, ih rest, List.mem_cons]
        refine ⟨fun h => ⟨.inr h.1, h.2⟩, fun h => ⟨h.1.resolve_left ?_, h.2⟩⟩
        rintro rfl
        have := holds_iff.1 h.2
        omega
      · have here : containing? (d :: r) ts = (some d).filter (·.holds ts) := by
          simp [containing?, past]
        rw [here, Option.filter_eq_some_iff, Option.some.injEq, List.mem_cons]
        refine ⟨fun h => ⟨.inl h.1.symm, h.1 ▸ h.2⟩, fun h => ?_⟩
        have same : c = d := by
          refine h.1.resolve_right fun behind => ?_
          have := first c behind
          have := holds_iff.1 h.2
          omega
        exact ⟨same.symm, h.2⟩

theorem containing?_eq_none {closures : List Closure} (apart : Apart closures) {ts : Int} :
    containing? closures ts = none ↔ ∀ c ∈ closures, c.holds ts = false := by
  rw [Option.eq_none_iff_forall_ne_some]
  refine ⟨fun h c hc => ?_, fun h c found => ?_⟩
  · cases held : c.holds ts with
    | false => rfl
    | true => exact absurd ((containing?_eq_some apart).2 ⟨hc, held⟩) (h c)
  · obtain ⟨hc, holds⟩ := (containing?_eq_some apart).1 found
    simp [h c hc] at holds

end MarketBook.Closure
