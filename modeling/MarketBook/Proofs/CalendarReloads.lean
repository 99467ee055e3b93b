/-
Module: MarketBook.Proofs.CalendarReloads
Purpose: A profile that the loader accepts makes a healthy calendar unless its zone is unknown, and
  reloads replace the calendar in use wholly or not at all.
Main exports:
  Calendar.ofProfile_healthy, Calendar.Handle.reload_eq_ok, Calendar.Reload, Calendar.Handle.tried,
  Calendar.Handle.reloads_exact
-/
import MarketBook.Calendar.Handle
import MarketBook.Proofs.Effects
import MarketBook.Proofs.SoundProfiles

namespace MarketBook

open Device Text

/-!
The loader and the calendar check the same fields, each in its own way.  What the loader has accepted
passes the checks of the calendar, which knows one thing more: whether the zone exists.  So a reload
fails for a reason of the loader or for the zone, and in both cases before the calendar in use is
touched.
-/

theorem ProfileFile.read_sound {v v' : Device} {place : Place} {tag : String} {p : Profile}
    (h : Ends (ProfileFile.read place tag) v (.ok p) v') : p.IsSound := by
  obtain ⟨profiles, t, all, found⟩ := Ends.bind_ok_iff.1 h
  obtain ⟨text, u, -, parsed⟩ := Ends.bind_ok_iff.1 all
  have chosen := (ends_ofOutcome_ok.1 found).1
  unfold Profile.find at chosen
  split at chosen
  case h_1 q first =>
    cases chosen
    exact Profile.readAll_sound (ends_ofOutcome_ok.1 parsed).1 p (List.mem_of_find?_eq_some first)
  case h_2 => cases chosen

namespace Calendar

variable {p : Profile}

/-! ### The calendar of a sound profile -/

theorem clockOf_noDefect {field raw : String} (reads : ClockTime.IsText raw) :
    (clockOf field raw).2 = [] := by
  obtain ⟨t, read⟩ := reads
  simp [clockOf, read]

theorem closuresOf_noDefect {closures : List Closure}
    (normalized : Closure.normalize closures = .ok closures) :
    closuresOf closures = (closures, []) := by
  obtain ⟨sound, apart⟩ := Closure.normalize_eq_self.1 normalized
  simp [closuresOf, Closure.distinct_of_apart sound apart, normalized]

/-- Of all that a calendar checks, only the zone of a sound profile can be wrong. -/
theorem ofProfile_defects (sound : p.IsSound) :
    (ofProfile p).defects = (zoneOf p.zoneName).2 := by
  have positive : ¬ p.breakMinutes ≤ 0 := Int.not_le.2 sound.breakMinutes
  simp [ofProfile, create, build, Settings.ofProfile, clockOf_noDefect sound.weeklyOpen,
    clockOf_noDefect sound.weeklyClose, clockOf_noDefect sound.breakStart,
    closuresOf_noDefect sound.closures, breakDefects, positive]

theorem ofProfile_closures (sound : p.IsSound) : (ofProfile p).closures = p.closures := by
  simp [ofProfile, create, build, closuresOf_noDefect sound.closures]

theorem mem_zoneOf_defects {raw : String} {d : Defect} :
    d ∈ (zoneOf raw).2 ↔ ∃ cause, Zone.resolve raw = .error cause ∧ d = .zone cause := by
  unfold zoneOf
  cases Zone.resolve raw with
  | ok found => simp
  | error cause => simp

/-- The calendar of a sound profile is healthy exactly if its zone is known. -/
theorem ofProfile_healthy (sound : p.IsSound) :
    (ofProfile p).healthError = none ↔ ∃ found, Zone.resolve p.zoneName = .ok found := by
  rw [healthError_eq_none, isBroken, ofProfile_defects sound]
  unfold zoneOf
  cases Zone.resolve p.zoneName with
  | ok found => simp
  | error cause => simp

namespace Handle

variable {h h' : Handle} {v v' : Device} {place : Place} {tag : String}

theorem requireHealthy_eq_ok {c c' : Calendar} :
    requireHealthy tag c = .ok c' ↔ c.healthError = none ∧ c' = c := by
  unfold requireHealthy
  split
  case h_1 reason broken => simp [broken]
  case h_2 none => simp [none, eq_comm]

/-- A reload succeeds exactly if the loader accepts the profile and its zone is known, and then the
calendar of that profile is in use. -/
theorem reload_eq_ok :
    Ends (h.reload place tag) v (.ok h') v' ↔
      ∃ p found, Ends (ProfileFile.read place tag) v (.ok p) v' ∧
        Zone.resolve p.zoneName = .ok found ∧ h' = ⟨ofProfile p⟩ := by
  simp only [reload, ofFile, Ends.bind_ok_iff, Ends.pure_iff, ends_ofOutcome_ok,
    requireHealthy_eq_ok, Except.ok.injEq]
  constructor
  · rintro ⟨c, t, ⟨p, u, read, rfl, rfl⟩, _, _, ⟨⟨healthy, rfl⟩, rfl⟩, rfl, rfl⟩
    obtain ⟨found, resolved⟩ := (ofProfile_healthy (ProfileFile.read_sound read)).1 healthy
    exact ⟨p, found, read, resolved, rfl⟩
  · rintro ⟨p, found, read, resolved, rfl⟩
    have healthy := (ofProfile_healthy (ProfileFile.read_sound read)).2 ⟨found, resolved⟩
    exact ⟨_, _, ⟨p, v', read, rfl, rfl⟩, _, _, ⟨⟨healthy, rfl⟩, rfl⟩, rfl, rfl⟩

end Handle

/-! ### Runs of reloads -/

/-- A reload that is tried: of the profile of a tag, from a file as the device then has it. -/
structure Reload where
  device : Device
  place : Place
  tag : String

/-- The calendar of a reload, if the loader accepts the profile and its zone is known. -/
def Reload.calendar? (a : Reload) : Option Calendar :=
  match (ProfileFile.read a.place a.tag).run a.device with
  | (.ok p, _) => (Zone.resolve p.zoneName).toOption.map fun _ => ofProfile p
  | (.error _, _) => none

/-- The holder behind a reload that is tried; after a fault it is the holder before. -/
def Handle.tried (h : Handle) (a : Reload) : Handle :=
  match (h.reload a.place a.tag).run a.device with
  | (.ok next, _) => next
  | (.error _, _) => h

namespace Handle

variable {h : Handle}

/-- A reload has a calendar exactly if it succeeds, and then this calendar is in use. -/
theorem calendar?_eq_some (h : Handle) {a : Reload} {c : Calendar} :
    a.calendar? = some c ↔ ∃ v', Ends (h.reload a.place a.tag) a.device (.ok ⟨c⟩) v' := by
  constructor
  · intro built
    unfold Reload.calendar? at built
    split at built
    case h_1 p v' read =>
      cases resolved : Zone.resolve p.zoneName with
      | error cause =>
          rw [resolved] at built
          cases built
      | ok found =>
          rw [resolved] at built
          cases built
          exact ⟨v', reload_eq_ok.2 ⟨p, found, read, resolved, rfl⟩⟩
    case h_2 => cases built
  · rintro ⟨v', ended⟩
    obtain ⟨p, found, read, resolved, same⟩ := reload_eq_ok.1 ended
    cases same
    simp only [Reload.calendar?]
    rw [show (ProfileFile.read a.place a.tag).run a.device = (.ok p, v') from read]
    simp only [resolved]
    rfl

/-- One reload puts the calendar that it builds in use, or leaves the one before. -/
theorem tried_current (h : Handle) (a : Reload) :
    (h.tried a).current = a.calendar?.getD h.current := by
  have built := fun c => calendar?_eq_some h (a := a) (c := c)
  unfold tried
  rcases reloaded : (h.reload a.place a.tag).run a.device with ⟨e | h', v'⟩
  · have none : a.calendar? = none := by
      rw [Option.eq_none_iff_forall_ne_some]
      intro c found
      obtain ⟨v', ended⟩ := (built c).1 found
      cases (Ends.unique reloaded ended).1
    rw [none]
    rfl
  · rw [(built h'.current).2 ⟨v', reloaded⟩]
    rfl

theorem healthy_of_calendar? {a : Reload} {c : Calendar} (built : a.calendar? = some c) :
    c.healthError = none := by
  obtain ⟨v', ended⟩ := (calendar?_eq_some ⟨c⟩).1 built
  obtain ⟨p, found, read, resolved, same⟩ := reload_eq_ok.1 ended
  cases same
  exact (ofProfile_healthy (ProfileFile.read_sound read)).2 ⟨found, resolved⟩

theorem foldl_tried (reloads : List Reload) : ∀ h : Handle,
    (reloads.foldl tried h).current =
      (reloads.filterMap Reload.calendar?).getLast?.getD h.current := by
  induction reloads with
  | nil => exact fun h => rfl
  | cons a rest ih =>
      intro h
      rw [List.foldl_cons, ih, tried_current]
      cases built : a.calendar? with
      | none => simp [built]
      | some c => simp [built, List.getLast?_cons]

/-- What the calendar in use and every calendar that may take its place have in common, all calendars
in use have, whatever is reloaded. -/
theorem foldl_tried_healthy {h : Handle} (healthy : h.current.healthError = none)
    (reloads : List Reload) : (reloads.foldl tried h).current.healthError = none := by
  rw [foldl_tried]
  cases last : (reloads.filterMap Reload.calendar?).getLast? with
  | none => exact healthy
  | some c =>
      obtain ⟨a, -, built⟩ := List.mem_filterMap.1 (List.mem_of_getLast? last)
      exact healthy_of_calendar? built

end Handle

/-- With the calendar of a profile that the loader gives nothing can be wrong but its zone, and it has
the closed windows of the profile.  So a reload succeeds exactly if the loader gives the profile and
its zone is known; and whatever is reloaded, a healthy calendar is in use, that of the last reload that
succeeded. -/
theorem reloads_exact {h : Handle} (healthy : h.current.healthError = none)
    (reloads : List Reload) :
    (∀ (a : Reload) (p : Profile) (v' : Device),
      Ends (ProfileFile.read a.place a.tag) a.device (.ok p) v' →
        ((ofProfile p).healthError = none ↔ ∃ found, Zone.resolve p.zoneName = .ok found) ∧
        (∀ d ∈ (ofProfile p).defects, ∃ cause, Zone.resolve p.zoneName = .error cause ∧
          d = .zone cause) ∧
        (ofProfile p).closures = p.closures) ∧
    (∀ (a : Reload) (held next : Handle) (v' : Device),
      Ends (held.reload a.place a.tag) a.device (.ok next) v' ↔
        ∃ p found, Ends (ProfileFile.read a.place a.tag) a.device (.ok p) v' ∧
          Zone.resolve p.zoneName = .ok found ∧ next = ⟨ofProfile p⟩) ∧
    (reloads.foldl Handle.tried h).current.healthError = none ∧
    (reloads.foldl Handle.tried h).current =
      (reloads.filterMap Reload.calendar?).getLast?.getD h.current := by
  refine ⟨fun a p v' read => ?_, fun a held next v' => Handle.reload_eq_ok, ?_, ?_⟩
  · have sound := ProfileFile.read_sound read
    refine ⟨ofProfile_healthy sound, fun d hd => ?_, ofProfile_closures sound⟩
    rw [ofProfile_defects sound] at hd
    exact mem_zoneOf_defects.1 hd
  · exact Handle.foldl_tried_healthy healthy reloads
  · exact Handle.foldl_tried reloads h

/-- A profile for New York takes the place of the first calendar, and one for a place without a zone
does not take the place of it. -/
theorem reloads_newYork :
    let file : Disk.Node := .file (encode ("[[\"us\",\"America/New_York\",\"17:00\",\"17:00\"," ++
      "\"17:00\",5,null,[],null],[\"sea\",\"Atlantis\",\"1:00\",\"2:00\",\"3:00\",5,null,[],null]]"))
    let attempt : String → Reload := fun tag =>
      ⟨.sound ⟨[(["profiles.json"], file)]⟩ 1, .ofText [] "/profiles.json", tag⟩
    let reloads := [attempt "us", attempt "sea"]
    let h : Handle := ⟨create [] "first" .standard none⟩
    (reloads.foldl Handle.tried h).current.healthError = none ∧
      (reloads.foldl Handle.tried h).current =
        ofProfile ⟨"us", "America/New_York", "17:00", "17:00", "17:00", 5, [], none⟩ := by
  intro file attempt reloads h
  have healthy : h.current.healthError = none := by decide +kernel
  have built : reloads.filterMap Reload.calendar? =
      [ofProfile ⟨"us", "America/New_York", "17:00", "17:00", "17:00", 5, [], none⟩] := by
    decide +kernel
  obtain ⟨-, -, stays, last⟩ := reloads_exact healthy reloads
  rw [built] at last
  exact ⟨stays, last⟩

end Calendar

end MarketBook
