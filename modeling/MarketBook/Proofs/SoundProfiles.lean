/-
Module: MarketBook.Proofs.SoundProfiles
Purpose: Which profiles the reader of profiles lets through, and what their drafts had to be.
Main exports:
  Text.trim_trim, Text.trim_eq_empty, Profile.IsSound, Profile.Draft.Describes, Profile.ofDraft_eq_ok,
  Profile.readAll_eq_ok, Profile.readAll_sound
-/
import Mathlib.Data.List.DropRight
import MarketBook.Proofs.HealthyCalendar
import MarketBook.Proofs.JsonRecords
import MarketBook.Proofs.Numerals

namespace MarketBook

/-!
The reader trims, sorts and checks.  Trimming what is trimmed and sorting what is sorted change
nothing, so a profile that has been read would pass every check again.  What the checks ask of a
profile is therefore said of the profile itself, without its draft.
-/

/-! ### Trimming -/

namespace Text

theorem trimChars_eq_rdropWhile (cs : List Char) :
    trimChars cs = (cs.dropWhile isBlank).rdropWhile isBlank := rfl

/-- What is left begins as before its end was cleared, so with no white space. -/
theorem dropWhile_trimChars (cs : List Char) : (trimChars cs).dropWhile isBlank = trimChars cs := by
  rw [List.dropWhile_eq_self_iff]
  intro nonempty
  obtain ⟨tail, whole⟩ := List.rdropWhile_prefix isBlank (cs.dropWhile isBlank)
  rw [← trimChars_eq_rdropWhile] at whole
  have longer : 0 < (cs.dropWhile isBlank).length := by
    rw [← whole, List.length_append]
    omega
  have first := List.dropWhile_get_zero_not isBlank cs longer
  simp only [← whole, List.get_eq_getElem] at first
  rwa [List.getElem_append_left nonempty] at first

theorem trimChars_trimChars (cs : List Char) : trimChars (trimChars cs) = trimChars cs := by
  rw [trimChars_eq_rdropWhile (trimChars cs), dropWhile_trimChars, trimChars_eq_rdropWhile cs]
  exact List.rdropWhile_idempotent _ _

theorem trim_trim (s : String) : trim (trim s) = trim s := by
  simp [trim, trimChars_trimChars]

/-- Trimming leaves nothing of a text exactly if the text is white space only. -/
theorem trim_eq_empty {raw : String} : trim raw = "" ↔ allBlank raw = true := by
  have nothing : trim raw = "" ↔ ∀ c ∈ raw.toList.dropWhile isBlank, isBlank c = true := by
    rw [← String.toList_inj, trim, trimChars]
    simp only [String.toList_ofList, String.toList_empty, List.reverse_eq_nil_iff,
      List.dropWhile_eq_nil_iff, List.mem_reverse]
  rw [nothing, ← List.dropWhile_eq_nil_iff, List.dropWhile_idempotent,
    List.dropWhile_eq_nil_iff, allBlank, List.all_eq_true]

end Text

open Json Outcome Text

/-- The text is a time of the day. -/
def ClockTime.IsText (raw : String) : Prop :=
  ∃ t, ClockTime.read raw = .ok t

/-- The numbers of a policy are within their types, and it asks for windows at all. -/
structure Policy.IsSound (p : Policy) : Prop where
  coverageEnd : isSigned64 p.coverageEnd = true
  leastIntervals : p.leastIntervals < limit32
  futureDays : p.futureDays < limit32
  asks : p.leastIntervals ≠ 0

namespace Profile

/-- Everything that the reader of profiles asks of one. -/
structure IsSound (p : Profile) : Prop where
  tagTrimmed : trim p.tag = p.tag
  tagged : p.tag ≠ ""
  zoneTrimmed : trim p.zoneName = p.zoneName
  zoned : p.zoneName ≠ ""
  weeklyOpen : ClockTime.IsText p.weeklyOpen
  weeklyClose : ClockTime.IsText p.weeklyClose
  breakStart : ClockTime.IsText p.breakStart
  breakMinutes : 0 < p.breakMinutes
  breakFits : isSigned64 p.breakMinutes = true
  closures : Closure.normalize p.closures = .ok p.closures
  policy : ∀ policy ∈ p.policy, policy.IsSound

/-! ### Drafts -/

/-- The numbers that a draft gives are within their types. -/
structure Draft.Fits (d : Draft) : Prop where
  breakMinutes : ∀ minutes ∈ d.breakMinutes, isSigned64 minutes = true
  policy : ∀ policy ∈ d.policy, isSigned64 policy.coverageEnd = true ∧
    policy.leastIntervals < limit32 ∧ policy.futureDays < limit32

theorem policy_fits {j : Json} {p : Policy} (h : Policy.ofJson? j = some p) :
    isSigned64 p.coverageEnd = true ∧ p.leastIntervals < limit32 ∧ p.futureDays < limit32 := by
  simp only [Policy.ofJson?, Option.bind_eq_bind, Option.bind_eq_some_iff] at h
  obtain ⟨values, -, h⟩ := h
  split at h
  · simp only [Option.bind_eq_some_iff, required?_eq_some, Option.pure_def, Option.some.injEq] at h
    obtain ⟨_, -, _, ⟨_, -, covered⟩, _, ⟨_, -, least⟩, _, ⟨_, -, days⟩, rfl⟩ := h
    exact ⟨asInt64?_fits covered, asNatBelow?_fits least, asNatBelow?_fits days⟩
  · cases h

theorem draftOfJson?_fits {j : Json} {d : Draft} (h : draftOfJson? j = some d) : d.Fits := by
  simp only [draftOfJson?, Option.bind_eq_bind, Option.bind_eq_some_iff] at h
  obtain ⟨values, -, h⟩ := h
  split at h
  · simp only [Option.bind_eq_some_iff, Option.pure_def, Option.some.injEq] at h
    obtain ⟨_, -, _, -, _, -, _, -, _, -, minutes, minutesRead, _, -, _, -, policy, policyRead,
      rfl⟩ := h
    refine ⟨fun n hn => ?_, fun p hp => ?_⟩
    · rw [show minutes = some n from hn] at minutesRead
      obtain ⟨_, -, found⟩ := optional?_some minutesRead
      exact asInt64?_fits found
    · rw [show policy = some p from hp] at policyRead
      obtain ⟨_, -, found⟩ := optional?_some policyRead
      exact policy_fits found
  · cases h

/-- A break is given by its start and its length, or in the older form by its start and its end. -/
theorem breakOf_eq_ok {tag : String} {d : Draft} {start : String} {minutes : Int} :
    breakOf tag d = .ok (start, minutes) ↔
      (d.breakStart = some start ∧ d.breakMinutes = some minutes) ∨
      d.breakStart = none ∧ d.breakMinutes = none ∧
        ∃ span first last, d.breakSpan = some span ∧ ClockTime.read span.start = .ok first ∧
          ClockTime.read span.stop = .ok last ∧ start = span.start ∧
          minutes = (last.minutes - first.minutes) % (24 * 60) := by
  unfold breakOf
  split
  case h_1 start' minutes' given length => simp [given, length]
  case h_2 span noStart noMinutes given =>
    simp only [bind_eq_ok, pure_eq_ok, Prod.mk.injEq, noStart, noMinutes, given]
    constructor
    · rintro ⟨first, firstRead, last, lastRead, rfl, rfl⟩
      exact Or.inr ⟨trivial, trivial, span, first, last, rfl, firstRead, lastRead, rfl, rfl⟩
    · rintro (⟨h, -⟩ | ⟨-, -, span', first, last, same, firstRead, lastRead, rfl, rfl⟩)
      · cases h
      · cases same
        exact ⟨first, firstRead, last, lastRead, rfl, rfl⟩
  case h_3 neither older =>
    refine ⟨fun h => absurd h misused_ne_ok, ?_⟩
    rintro (⟨given, length⟩ | ⟨noStart, noMinutes, span, -, -, given, -⟩)
    · exact (neither _ _ given length).elim
    · exact (older _ noStart noMinutes given).elim

/-- The draft gives the fields of the profile. -/
structure Draft.Describes (d : Draft) (p : Profile) : Prop where
  tag : p.tag = trim d.tag
  zoneName : p.zoneName = trim d.zoneName
  weeklyOpen : p.weeklyOpen = d.weeklyOpen
  weeklyClose : p.weeklyClose = d.weeklyClose
  pause : breakOf p.tag d = .ok (p.breakStart, p.breakMinutes)
  closures : closuresOf d = .ok p.closures
  policy : p.policy = d.policy

theorem requirePolicyShape_eq_ok {tag : String} {policy : Option Policy} :
    requirePolicyShape tag policy = .ok () ↔ ∀ p ∈ policy, p.leastIntervals ≠ 0 := by
  cases policy with
  | none => simp [requirePolicyShape]
  | some p => simp [requirePolicyShape, guard_eq_ok misused_ne_ok]

/-- A draft is accepted exactly for a profile that it describes and that passes the checks. -/
theorem ofDraft_eq_ok {d : Draft} {p : Profile} :
    ofDraft d = .ok p ↔
      d.Describes p ∧ p.tag ≠ "" ∧ p.zoneName ≠ "" ∧ ClockTime.IsText p.weeklyOpen ∧
        ClockTime.IsText p.weeklyClose ∧ ClockTime.IsText p.breakStart ∧ 0 < p.breakMinutes ∧
        ∀ policy ∈ p.policy, policy.leastIntervals ≠ 0 := by
  simp only [ofDraft, guard_eq_ok misused_bind_ne_ok, bind_eq_ok (α := ClockTime),
    bind_eq_ok (α := String × Int), bind_eq_ok (α := List Closure), check_eq_ok,
    requirePolicyShape_eq_ok, pure_eq_ok, Int.not_le]
  constructor
  · rintro ⟨tagged, zoned, opens, openRead, closes, closeRead, ⟨start, minutes⟩, pause, starts,
      startRead, positive, closures, closed, asks, rfl⟩
    exact ⟨⟨rfl, rfl, rfl, rfl, pause, closed, rfl⟩, tagged, zoned, ⟨opens, openRead⟩,
      ⟨closes, closeRead⟩, ⟨starts, startRead⟩, positive, asks⟩
  · rintro ⟨described, tagged, zoned, ⟨opens, openRead⟩, ⟨closes, closeRead⟩, ⟨starts, startRead⟩,
      positive, asks⟩
    obtain ⟨tag, zoneName, weeklyOpen, weeklyClose, breakStart, breakMinutes, closures, policy⟩ := p
    obtain ⟨rfl, rfl, rfl, rfl, pause, closed, rfl⟩ := described
    exact ⟨tagged, zoned, opens, openRead, closes, closeRead, ⟨breakStart, breakMinutes⟩, pause,
      starts, startRead, positive, closures, closed, asks, rfl⟩

theorem closuresOf_normalized {d : Draft} {closures : List Closure}
    (h : closuresOf d = .ok closures) : Closure.normalize closures = .ok closures := by
  unfold closuresOf at h
  split at h
  · exact Closure.normalize_normalized h
  · obtain ⟨windows, -, h⟩ := bind_eq_ok.1 h
    exact Closure.normalize_normalized h

theorem Draft.Fits.pause {d : Draft} (fits : d.Fits) {tag start : String} {minutes : Int}
    (h : breakOf tag d = .ok (start, minutes)) : isSigned64 minutes = true := by
  rcases breakOf_eq_ok.1 h with ⟨-, given⟩ | ⟨-, -, span, first, last, -, -, -, -, rfl⟩
  · exact fits.breakMinutes minutes given
  · rw [isSigned64_iff]
    omega

/-- What is read from a draft whose numbers fit is sound. -/
theorem ofDraft_sound {d : Draft} {p : Profile} (fits : d.Fits) (h : ofDraft d = .ok p) :
    p.IsSound := by
  obtain ⟨described, tagged, zoned, opens, closes, starts, positive, asks⟩ := ofDraft_eq_ok.1 h
  exact
    { tagTrimmed := by rw [described.tag, trim_trim]
      tagged := tagged
      zoneTrimmed := by rw [described.zoneName, trim_trim]
      zoned := zoned
      weeklyOpen := opens
      weeklyClose := closes
      breakStart := starts
      breakMinutes := positive
      breakFits := fits.pause described.pause
      closures := closuresOf_normalized described.closures
      policy := by
        intro policy declared
        obtain ⟨covered, least, days⟩ := fits.policy policy (described.policy ▸ declared)
        exact ⟨covered, least, days, asks policy declared⟩ }

/-! ### Lists of profiles -/

/-- The JSON value gives the profile. -/
def Reads (j : Json) (p : Profile) : Prop :=
  ∃ d, draftOfJson? j = some d ∧ ofDraft d = .ok p

theorem Reads.sound {j : Json} {p : Profile} (h : Reads j p) : p.IsSound := by
  obtain ⟨d, found, accepted⟩ := h
  exact ofDraft_sound (draftOfJson?_fits found) accepted

theorem ofJson_eq_ok {index : Nat} {j : Json} {p : Profile} :
    ofJson index j = .ok p ↔ Reads j p := by
  unfold ofJson Reads
  split
  case h_1 d found => simp [found]
  case h_2 none => simp [none]

/-- The items are read one by one, and no tag comes twice. -/
theorem ofItems_eq_ok {items : List Json} : ∀ {index : Nat} {done ps : List Profile},
    (done.map tag).Nodup →
      (ofItems index done items = .ok ps ↔
        ∃ rest, ps = done ++ rest ∧ items.Forall₂ Reads rest ∧ ((done ++ rest).map tag).Nodup) := by
  induction items with
  | nil =>
      intro index done ps distinct
      constructor
      · intro h
        cases h
        exact ⟨[], by simp, .nil, by simpa using distinct⟩
      · rintro ⟨_, rfl, _ | _, -⟩
        simp [ofItems]
  | cons j items ih =>
      intro index done ps distinct
      have fresh : ∀ p : Profile, ¬ (done.any (·.tag == p.tag)) = true ↔
          ((done ++ [p]).map tag).Nodup := by
        intro p
        simp [List.nodup_append, distinct]
      simp only [ofItems, bind_eq_ok (α := Profile), ofJson_eq_ok, guard_eq_ok misused_bind_ne_ok,
        fresh]
      constructor
      · rintro ⟨p, read, distinct', h⟩
        obtain ⟨rest, rfl, reads, all⟩ := (ih distinct').1 h
        exact ⟨p :: rest, by simp, .cons read reads, by simpa using all⟩
      · rintro ⟨_, rfl, _ | ⟨read, reads⟩, all⟩
        rename_i p rest
        have whole : done ++ p :: rest = done ++ [p] ++ rest := by simp
        rw [whole] at all ⊢
        have distinct' : ((done ++ [p]).map tag).Nodup :=
          all.sublist ((List.sublist_append_left _ _).map tag)
        exact ⟨p, read, distinct', (ih distinct').2 ⟨rest, rfl, reads, all⟩⟩

/-- A text gives the profiles of its items, and no two of them have one tag. -/
theorem readAll_eq_ok {text : String} {ps : List Profile} :
    readAll text = .ok ps ↔
      ∃ items, Json.read? text = some (.arr items) ∧ items.Forall₂ Reads ps ∧
        (ps.map tag).Nodup := by
  unfold readAll
  split
  case h_1 none => simp [none]
  case h_2 j found =>
    cases j with
    | arr items => simp [Json.asItems?, found, ofItems_eq_ok]
    | _ => simp [Json.asItems?, found]

/-- Every profile that is read is sound. -/
theorem readAll_sound {text : String} {ps : List Profile} (h : readAll text = .ok ps) :
    ∀ p ∈ ps, p.IsSound := by
  obtain ⟨items, -, reads, -⟩ := readAll_eq_ok.1 h
  clear h
  induction reads with
  | nil => nofun
  | cons read _ ih => exact List.forall_mem_cons.2 ⟨read.sound, ih⟩

end Profile

end MarketBook
