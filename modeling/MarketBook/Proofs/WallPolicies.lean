/-
Module: MarketBook.Proofs.WallPolicies
Purpose: The instant that each policy gives a wall time, told by the instants at which the clock
  shows that time.
Main exports:
  Zone.exists_jump, Zone.Gentle.not_shown_thrice, Zone.Shown, Zone.Gentle.shown, Zone.Refuses,
  Zone.lenient_at_first_date, Zone.policies_exact
-/
import MarketBook.Proofs.WallInstants
import MarketBook.Zone.Data

namespace MarketBook.Zone

open Time

/-!
A clock that goes back shows some wall times twice, but none a third time: the change that took it
back leaves it running for seven days, and by then it is far ahead.  So a wall time is shown never,
once or twice, and each policy says what becomes of it in these three cases.  Next to the first and
the last date a wall time can be shown at instants that have no date.  The date type then has no
reading for it, and a policy that goes on through gaps may find none either.
-/

variable {z : Zone} {wall a b : Int}

/-! ### How often a wall time is shown -/

/-- A clock that has not gone on by as much as has passed changed in between. -/
theorem exists_jump (hab : a ≤ b) (changed : z.wallAt b ≠ z.wallAt a + (b - a)) :
    ∃ r, a < r ∧ r ≤ b ∧ z.wallAt r ≠ z.wallAt (r - 1) + 1 := by
  induction b, hab using Int.leInduction with
  | base => exact absurd (by omega) changed
  | succ b hab ih =>
      by_cases runs : z.wallAt (b + 1) = z.wallAt b + 1
      · obtain ⟨r, after, upTo, jumps⟩ := ih (by omega)
        exact ⟨r, after, by omega, jumps⟩
      · exact ⟨b + 1, by omega, le_rfl, by rwa [Int.add_sub_cancel]⟩

/-- Two instants that show one wall time are two hours apart at most. -/
theorem Gentle.showings_near (gentle : z.Gentle) (hab : a ≤ b) (same : z.wallAt a = z.wallAt b) :
    b ≤ a + maxShift := by
  by_cases near : b ≤ a + weekMs
  · have := (gentle.wallAt_near hab near).2
    omega
  · have week := (gentle.wallAt_near (s := a) (t := a + weekMs)
      (by simp only [weekMs, dayMs]; omega) le_rfl).2
    have drop := gentle.wallAt_drop (s := a + weekMs) b (by omega)
    simp only [weekMs, dayMs, maxShift, minuteMs] at *
    omega

/-- No wall time is shown at three instants. -/
theorem Gentle.not_shown_thrice (gentle : z.Gentle) {first second third : Int}
    (before : first < second) (behind : second < third) (one : z.wallAt first = wall)
    (two : z.wallAt second = wall) : z.wallAt third ≠ wall := by
  intro three
  obtain ⟨r, after, upTo, jumps⟩ := exists_jump (z := z) before.le (by omega)
  have near := gentle.showings_near (before.trans behind).le (one.trans three.symm)
  have soon : third < r + weekMs := by
    simp only [weekMs, dayMs, maxShift, minuteMs] at *
    omega
  have runs := (gentle.wallAt_jump jumps).2
  have atSecond := runs second upTo (by omega)
  have atThird := runs third (by omega) soon
  omega

/-- The instants of a wall time that is shown never, once or twice. -/
inductive Shown (z : Zone) (wall : Int) : List Int → Prop where
  | never (none : ∀ t, z.wallAt t ≠ wall) : Shown z wall []
  | once {a : Int} (only : ∀ t, z.wallAt t = wall ↔ t = a) : Shown z wall [a]
  | twice {a b : Int} (order : a < b) (only : ∀ t, z.wallAt t = wall ↔ t = a ∨ t = b) :
      Shown z wall [a, b]

theorem Gentle.shown (gentle : z.Gentle) (room : WallRoom wall) : Shown z wall (z.readings wall) := by
  rw [room.readings_self gentle]
  have listed : ∀ t, z.wallAt t = wall ↔ t ∈ z.showings wall := fun _ => gentle.mem_showings.symm
  have ascend := gentle.showings_ascend wall
  generalize z.showings wall = found at listed ascend
  match found with
  | [] => exact .never fun t shows => List.not_mem_nil ((listed t).1 shows)
  | [a] => exact .once fun t => (listed t).trans List.mem_singleton
  | [a, b] =>
      exact .twice (List.rel_of_pairwise_cons ascend (by simp)) fun t =>
        (listed t).trans (by simp)
  | a :: b :: c :: _ =>
      have first : a < b := List.rel_of_pairwise_cons ascend (by simp)
      have second : b < c := List.rel_of_pairwise_cons ascend.of_cons (by simp)
      exact absurd ((listed c).2 (by simp))
        (gentle.not_shown_thrice first second ((listed a).2 (by simp)) ((listed b).2 (by simp)))

/-! ### The policies -/

/-- The policy has no instant for the wall time. -/
def Refuses (z : Zone) (p : Policy) (wall : Int) : Prop :=
  ∃ fault, z.instantOf p wall = .ok (.error fault)

/-- A wall time that is shown at all is shown at the first instant of it or of a later one. -/
theorem Gentle.wallAt_firstAt (gentle : z.Gentle) (shown : ∃ t, z.wallAt t = wall) :
    z.wallAt (z.firstAt wall) = wall := by
  by_contra skipped
  obtain ⟨t, shows⟩ := shown
  have ahead := lt_of_le_of_ne (gentle.le_wallAt_firstAt wall) (Ne.symm skipped)
  have gap := gentle.showings_of_gap skipped le_rfl ahead
  have listed : t ∈ z.showings wall := gentle.mem_showings.2 shows
  rw [gap] at listed
  exact List.not_mem_nil listed

theorem Gentle.instantOf_earliest (gentle : z.Gentle) (room : WallRoom wall) {ts : Int} :
    z.instantOf .earliest wall = .ok (.ok ts) ↔ IsLeast {t | z.wallAt t = wall} ts := by
  have shown := gentle.shown room
  unfold instantOf
  generalize z.readings wall = found at shown
  cases shown with
  | never none => exact ⟨nofun, fun least => absurd least.1 (none ts)⟩
  | @once a only =>
      have least : IsLeast {t | z.wallAt t = wall} a :=
        ⟨(only a).2 rfl, fun t shows => ((only t).1 shows).ge⟩
      simp [least.isLeast_iff_eq]
  | @twice a b order only =>
      have least : IsLeast {t | z.wallAt t = wall} a := by
        refine ⟨(only a).2 (.inl rfl), fun t shows => ?_⟩
        rcases (only t).1 shows with rfl | rfl
        · exact le_rfl
        · exact order.le
      simp [Policy.takesFirst, least.isLeast_iff_eq]

theorem Gentle.instantOf_latest (gentle : z.Gentle) (room : WallRoom wall) {ts : Int} :
    z.instantOf .latest wall = .ok (.ok ts) ↔ IsGreatest {t | z.wallAt t = wall} ts := by
  have shown := gentle.shown room
  unfold instantOf
  generalize z.readings wall = found at shown
  cases shown with
  | never none => exact ⟨nofun, fun greatest => absurd greatest.1 (none ts)⟩
  | @once a only =>
      have greatest : IsGreatest {t | z.wallAt t = wall} a :=
        ⟨(only a).2 rfl, fun t shows => ((only t).1 shows).le⟩
      simp [greatest.isGreatest_iff_eq]
  | @twice a b order only =>
      have greatest : IsGreatest {t | z.wallAt t = wall} b := by
        refine ⟨(only b).2 (.inr rfl), fun t shows => ?_⟩
        rcases (only t).1 shows with rfl | rfl
        · exact order.le
        · exact le_rfl
      simp [Policy.takesFirst, greatest.isGreatest_iff_eq]

theorem Gentle.instantOf_strict (gentle : z.Gentle) (room : WallRoom wall) {ts : Int} :
    z.instantOf .strict wall = .ok (.ok ts) ↔ ∀ t, z.wallAt t = wall ↔ t = ts := by
  have shown := gentle.shown room
  unfold instantOf
  generalize z.readings wall = found at shown
  cases shown with
  | never none => exact ⟨nofun, fun only => absurd ((only ts).2 rfl) (none ts)⟩
  | @once a only =>
      simp only [Checked.pure_eq, Except.ok.injEq]
      constructor
      · rintro rfl
        exact only
      · exact fun same => (same a).1 ((only a).2 rfl)
  | @twice a b order only =>
      refine ⟨nofun, fun same => ?_⟩
      have first := (same a).1 ((only a).2 (.inl rfl))
      have second := (same b).1 ((only b).2 (.inr rfl))
      omega

/-- The strict policy refuses a wall time exactly if no single instant shows it. -/
theorem Gentle.refuses_strict (gentle : z.Gentle) (room : WallRoom wall) :
    z.Refuses .strict wall ↔ ¬ ∃ ts, ∀ t, z.wallAt t = wall ↔ t = ts := by
  simp only [← gentle.instantOf_strict room]
  have shown := gentle.shown room
  unfold Refuses instantOf
  generalize z.readings wall = found at shown
  cases shown with
  | never none => exact iff_of_true ⟨_, rfl⟩ nofun
  | @once a only => exact iff_of_false nofun (not_not.2 ⟨a, rfl⟩)
  | @twice a b order only => exact iff_of_true ⟨_, rfl⟩ nofun

/-- A policy that takes one of the readings refuses a wall time exactly if there is none. -/
theorem Gentle.refuses_iff_never (gentle : z.Gentle) (room : WallRoom wall) {p : Policy}
    (takes : p = .earliest ∨ p = .latest) : z.Refuses p wall ↔ ¬ ∃ t, z.wallAt t = wall := by
  have shown := gentle.shown room
  unfold Refuses instantOf
  generalize z.readings wall = found at shown
  cases shown with
  | never none =>
      refine iff_of_true ?_ fun ⟨t, shows⟩ => none t shows
      rcases takes with rfl | rfl <;> exact ⟨_, rfl⟩
  | @once a only => exact iff_of_false nofun (not_not.2 ⟨a, (only a).2 rfl⟩)
  | @twice a b _ only =>
      refine iff_of_false ?_ (not_not.2 ⟨a, (only a).2 (.inl rfl)⟩)
      rcases takes with rfl | rfl <;> exact nofun

/-- Shifting forward refuses what is shown twice, and is lenient with everything else. -/
theorem Gentle.instantOf_shiftForward (gentle : z.Gentle) (room : WallRoom wall) :
    (∃ a b, a < b ∧ z.wallAt a = wall ∧ z.wallAt b = wall) ∧ z.Refuses .shiftForward wall ∨
      (¬ ∃ a b, a < b ∧ z.wallAt a = wall ∧ z.wallAt b = wall) ∧
        z.instantOf .shiftForward wall = z.instantOf .lenient wall := by
  have shown := gentle.shown room
  unfold Refuses instantOf
  generalize z.readings wall = found at shown
  cases shown with
  | never none => exact .inr ⟨fun ⟨a, _, _, shows, _⟩ => none a shows, rfl⟩
  | @once a only =>
      refine .inr ⟨?_, rfl⟩
      rintro ⟨first, second, order, one, two⟩
      have := (only first).1 one
      have := (only second).1 two
      omega
  | @twice a b order only =>
      exact .inl ⟨⟨a, b, order, (only a).2 (.inl rfl), (only b).2 (.inr rfl)⟩, _, rfl⟩

/-- Midnight of the first date in Tokyo is shown nine hours before the first instant that has a date.
The date type does not read it, and two hours later still does not; so even lenient conversion
refuses it, though the clock shows a later time at that first instant. -/
theorem lenient_at_first_date :
    let z := fixed "Asia/Tokyo" 32400
    z.Steady ∧ firstDated % minuteMs = 0 ∧ hasDate firstDated = true ∧ z.Refuses .lenient firstDated ∧
      IsLeast {t | hasDate t = true ∧ firstDated ≤ z.wallAt t} firstDated := by
  intro z
  refine ⟨by decide, by decide, by decide, ⟨.nonexistent firstDated, by decide +kernel⟩,
    ⟨by decide, by decide +kernel⟩, fun t ht => (hasDate_iff.1 ht.1).1⟩

/-- A wall time on a whole minute, with room around it in the date type, becomes an instant as its
policy says.  Lenient conversion always works and gives the first instant at which the clock shows
the wall time or a later one, so it keeps the order, and it reads back whatever is shown.  The
earliest and the latest reading are taken where there is one; the strict policy wants exactly one;
and shifting forward is lenient conversion that refuses a wall time shown twice. -/
theorem policies_exact (gentle : z.Gentle) (whole : wall % minuteMs = 0) (room : WallRoom wall) :
    (∃ ts, z.instantOf .lenient wall = .ok (.ok ts) ∧ IsLeast {t | wall ≤ z.wallAt t} ts ∧
      ((∃ t, z.wallAt t = wall) → z.wallAt ts = wall) ∧
      ∀ later, later % minuteMs = 0 → WallRoom later → wall ≤ later →
        ∃ laterTs, z.instantOf .lenient later = .ok (.ok laterTs) ∧ ts ≤ laterTs) ∧
    (∀ ts, z.instantOf .earliest wall = .ok (.ok ts) ↔ IsLeast {t | z.wallAt t = wall} ts) ∧
    (z.Refuses .earliest wall ↔ ¬ ∃ t, z.wallAt t = wall) ∧
    (∀ ts, z.instantOf .latest wall = .ok (.ok ts) ↔ IsGreatest {t | z.wallAt t = wall} ts) ∧
    (z.Refuses .latest wall ↔ ¬ ∃ t, z.wallAt t = wall) ∧
    (∀ ts, z.instantOf .strict wall = .ok (.ok ts) ↔ ∀ t, z.wallAt t = wall ↔ t = ts) ∧
    (z.Refuses .strict wall ↔ ¬ ∃ ts, ∀ t, z.wallAt t = wall ↔ t = ts) ∧
    (z.Refuses .shiftForward wall ↔ ∃ a b, a < b ∧ z.wallAt a = wall ∧ z.wallAt b = wall) ∧
    (¬ z.Refuses .shiftForward wall →
      z.instantOf .shiftForward wall = z.instantOf .lenient wall) := by
  have lenient := gentle.instantOf_lenient whole room
  have given : ¬ z.Refuses .lenient wall := by
    rintro ⟨fault, refused⟩
    rw [lenient] at refused
    cases refused
  refine ⟨⟨_, lenient, gentle.firstAt_isLeast wall, gentle.wallAt_firstAt, ?_⟩,
    fun _ => gentle.instantOf_earliest room, gentle.refuses_iff_never room (.inl rfl),
    fun _ => gentle.instantOf_latest room, gentle.refuses_iff_never room (.inr rfl),
    fun _ => gentle.instantOf_strict room, gentle.refuses_strict room, ?_⟩
  · intro later laterWhole laterRoom order
    exact ⟨_, gentle.instantOf_lenient laterWhole laterRoom, gentle.firstAt_mono order⟩
  · rcases gentle.instantOf_shiftForward room with ⟨twice, refused⟩ | ⟨notTwice, same⟩
    · exact ⟨iff_of_true refused twice, fun accepted => absurd refused accepted⟩
    · have accepted : ¬ z.Refuses .shiftForward wall := by
        unfold Refuses at given ⊢
        rwa [same]
      exact ⟨iff_of_false accepted notTwice, fun _ => same⟩

/-- On the last Sunday of March the clock of Troll station skips the two hours from one o'clock on:
the search through the gap takes its very last step. -/
theorem policies_troll :
    troll.Steady ∧ 1711846800000 % minuteMs = 0 ∧ WallRoom 1711846800000 ∧
      troll.instantOf .lenient 1711846800000 = .ok (.ok 1711846800000) ∧
      IsLeast {t | 1711846800000 ≤ troll.wallAt t} 1711846800000 ∧
      troll.wallAt 1711846800000 = 1711846800000 + maxShift ∧
      troll.Refuses .latest 1711846800000 ∧
      troll.instantOf .shiftForward 1711846800000 = .ok (.ok 1711846800000) := by
  have steady : troll.Steady := by decide +kernel
  have whole : (1711846800000 : Int) % minuteMs = 0 := by decide
  have room : WallRoom 1711846800000 := ⟨by decide, by decide⟩
  have first : troll.firstAt 1711846800000 = 1711846800000 := by decide +kernel
  have refused : ∃ fault, troll.instantOf .latest 1711846800000 = .ok (.error fault) :=
    ⟨.nonexistent 1711846800000, by decide +kernel⟩
  obtain ⟨⟨ts, found, least, -⟩, -, -, -, latest, -, -, twice, shifted⟩ :=
    policies_exact steady.toGentle whole room
  obtain rfl : ts = 1711846800000 := (least.unique (steady.firstAt_isLeast _)).trans first
  have shift : troll.instantOf .shiftForward 1711846800000 = .ok (.ok 1711846800000) := by
    rw [shifted ?_, found]
    rintro refusal
    obtain ⟨a, -, -, shows, -⟩ := twice.1 refusal
    exact latest.1 refused ⟨a, shows⟩
  exact ⟨steady, whole, room, found, least, by decide +kernel, refused, shift⟩

end MarketBook.Zone
