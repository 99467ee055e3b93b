/-
Module: MarketBook.Proofs.ProfileTexts
Purpose: Profiles that were read and written are read back as the same profiles.
Main exports:
  Closure.listOfJson_toJson, Policy.ofJson?_toJson, Profile.IsSound.reads, Profile.readAll_writeAll,
  ProfileFile.Settled, Profile.readAll_round_trips
-/
import MarketBook.Calendar.ProfileFile
import MarketBook.Proofs.SaveThenLoad
import MarketBook.Proofs.SoundProfiles

namespace MarketBook

open Device Json Outcome Text

/-!
What the reader lets through is sound, and the text of sound profiles is read as the same profiles.
The two halves meet at the sound profile, so nothing has to be known of the text that was read first:
its names, its order and its form are gone with the draft.
-/

/-! ### Closed windows and policies -/

namespace Closure

/-- The bounds of a window have 64 bits. -/
def Fits (c : Closure) : Prop :=
  isSigned64 c.start = true ∧ isSigned64 c.stop = true

variable {closures : List Closure}

theorem IsSound.fits {c : Closure} (sound : c.IsSound) : c.Fits :=
  ⟨Time.onRails_fits sound.1, Time.onRails_fits sound.2.1⟩

theorem toJson_printable {c : Closure} (fits : c.Fits) : Printable 1 c.toJson := by
  refine .arr fun j hj => ?_
  simp only [List.mem_cons, List.not_mem_nil, or_false] at hj
  rcases hj with rfl | rfl
  · exact .int (isInteger64_of_signed fits.1)
  · exact .int (isInteger64_of_signed fits.2)

theorem ordered_map_toJson (closures : List Closure) :
    (Json.arr (closures.map toJson)).ordered = .arr (closures.map toJson) := by
  rw [ordered, orderedItems_eq, List.map_map]
  rfl

theorem ofJson_toJson {c : Closure} (fits : c.Fits) (index : Nat) :
    ofJson index c.toJson = .ok c := by
  simp only [ofJson, toJson, asItems?, boundOfJson, asInt64?_int fits.1, asInt64?_int fits.2]
  rfl

theorem ofItems_toJson (fit : ∀ c ∈ closures, c.Fits) (index : Nat) :
    ofItems index (closures.map toJson) = .ok closures := by
  induction closures generalizing index with
  | nil => rfl
  | cons c r ih =>
      rw [List.map_cons, ofItems, ofJson_toJson (fit c List.mem_cons_self),
        ih fun d hd => fit d (List.mem_cons_of_mem c hd)]
      rfl

theorem listOfJson_toJson (fit : ∀ c ∈ closures, c.Fits) :
    listOfJson (.arr (closures.map toJson)) = .ok closures :=
  ofItems_toJson fit 0

end Closure

namespace Policy

variable {p : Policy}

theorem toJson_printable (sound : p.IsSound) : ∀ levels, Printable (levels + 1) p.toJson := by
  intro levels
  have least := isInteger64_ofNat (lt_trans sound.leastIntervals (by decide))
  have days := isInteger64_ofNat (lt_trans sound.futureDays (by decide))
  refine .obj fun f hf => ?_
  simp only [List.mem_cons, List.not_mem_nil, or_false] at hf
  rcases hf with rfl | rfl | rfl | rfl
  · exact .bool _
  · exact .int (isInteger64_of_signed sound.coverageEnd)
  · exact .int least
  · exact .int days

theorem ofJson?_toJson (sound : p.IsSound) : ofJson? p.toJson.ordered = some p := by
  have parsed : p.toJson.ordered = ofFields [("required", .bool p.isRequired),
      ("coverage_end_utc", .int p.coverageEnd), ("min_intervals", .ofNat p.leastIntervals),
      ("min_future_days", .ofNat p.futureDays)] := by
    simp only [toJson, ordered, orderedFields, orderedField, ofNat]
  have values : shape.fields? p.toJson.ordered = some [some (.bool p.isRequired),
      some (.int p.coverageEnd), some (.ofNat p.leastIntervals), some (.ofNat p.futureDays)] := by
    rw [parsed, fields?_ofFields shape (by simp)]
    simp [shape, Shape.fields?, valuesAt?, valueAt?, field?]
  simp only [ofJson?, values, Option.bind_eq_bind, Option.bind_some, Option.bind_eq_some_iff,
    required?_eq_some]
  exact ⟨_, ⟨_, rfl, rfl⟩, _, ⟨_, rfl, asInt64?_int sound.coverageEnd⟩,
    _, ⟨_, rfl, asNatBelow?_ofNat sound.leastIntervals⟩,
    _, ⟨_, rfl, asNatBelow?_ofNat sound.futureDays⟩, rfl⟩

end Policy

namespace Profile

variable {p : Profile} {ps : List Profile}

/-! ### One profile -/

theorem IsSound.closures_fit (sound : p.IsSound) : ∀ c ∈ p.closures, c.Fits := fun c hc =>
  ((Closure.normalize_eq_self.1 sound.closures).1 c hc).fits

theorem toJson_printable (sound : p.IsSound) : Printable 3 p.toJson := by
  refine .obj fun f hf => ?_
  simp only [List.mem_append, List.mem_cons, List.not_mem_nil, or_false, Option.mem_toList,
    Option.map_eq_some_iff] at hf
  rcases hf with (rfl | rfl | rfl | rfl | rfl | rfl | rfl) | ⟨policy, declared, rfl⟩
  · exact .str _
  · exact .str _
  · exact .str _
  · exact .str _
  · exact .str _
  · exact .int (isInteger64_of_signed sound.breakFits)
  · refine .arr fun j hj => ?_
    obtain ⟨c, hc, rfl⟩ := List.mem_map.1 hj
    exact Closure.toJson_printable (sound.closures_fit c hc)
  · exact Policy.toJson_printable (sound.policy policy declared) 1

/-- The draft that a written profile is read as. -/
def written (p : Profile) : Draft where
  tag := p.tag
  zoneName := p.zoneName
  weeklyOpen := p.weeklyOpen
  weeklyClose := p.weeklyClose
  breakStart := some p.breakStart
  breakMinutes := some p.breakMinutes
  breakSpan := none
  closures := some (.arr (p.closures.map Closure.toJson))
  policy := p.policy

/-- What stands at the fields of a written profile. -/
theorem fields?_toJson (p : Profile) :
    shape.fields? p.toJson.ordered = some [some (.str p.tag), some (.str p.zoneName),
      some (.str p.weeklyOpen), some (.str p.weeklyClose), some (.str p.breakStart),
      some (.int p.breakMinutes), none, some (.arr (p.closures.map Closure.toJson)),
      p.policy.map fun policy => policy.toJson.ordered] := by
  have parsed : p.toJson.ordered = ofFields ([("calendar_tag", .str p.tag),
      ("tz_name", .str p.zoneName), ("weekly_open", .str p.weeklyOpen),
      ("weekly_close", .str p.weeklyClose), ("daily_break_start", .str p.breakStart),
      ("daily_break_minutes", .int p.breakMinutes),
      ("closed_intervals_utc", .arr (p.closures.map Closure.toJson))] ++
      (p.policy.map fun policy => ("holiday_policy", policy.toJson.ordered)).toList) := by
    rw [← Closure.ordered_map_toJson p.closures]
    cases declared : p.policy with
    | none =>
        simp only [toJson, declared, ordered, orderedFields_eq]
        rfl
    | some policy =>
        simp only [toJson, declared, ordered, orderedFields_eq]
        rfl
  rw [parsed, fields?_ofFields]
  · cases p.policy with
    | none => simp [shape, Shape.fields?, valuesAt?, valueAt?, field?]
    | some policy => simp [shape, Shape.fields?, valuesAt?, valueAt?, field?]
  · cases p.policy with
    | none => simp
    | some policy => simp

theorem draftOfJson?_toJson (sound : p.IsSound) : draftOfJson? p.toJson.ordered = some p.written := by
  have policy : optional? Policy.ofJson? (p.policy.map fun policy => policy.toJson.ordered) =
      some p.policy := by
    cases declared : p.policy with
    | none => rfl
    | some policy =>
        exact optional?_of_read (by nofun) (Policy.ofJson?_toJson (sound.policy policy declared))
  have start : optional? asText? (some (.str p.breakStart)) = some (some p.breakStart) :=
    optional?_of_read (by nofun) rfl
  have minutes : optional? asInt64? (some (.int p.breakMinutes)) = some (some p.breakMinutes) :=
    optional?_of_read (by nofun) (asInt64?_int sound.breakFits)
  have closures : optional? some (some (.arr (p.closures.map Closure.toJson))) =
      some p.written.closures := optional?_of_read (by nofun) rfl
  simp only [draftOfJson?, fields?_toJson, Option.bind_eq_bind, Option.bind_some,
    Option.bind_eq_some_iff, required?_eq_some]
  exact ⟨_, ⟨_, rfl, rfl⟩, _, ⟨_, rfl, rfl⟩, _, ⟨_, rfl, rfl⟩, _, ⟨_, rfl, rfl⟩, _, start, _, minutes,
    _, rfl, _, closures, _, policy, rfl⟩

/-- A sound profile that was written is read as itself. -/
theorem IsSound.reads (sound : p.IsSound) : Reads p.toJson.ordered p := by
  have described : p.written.Describes p :=
    { tag := sound.tagTrimmed.symm
      zoneName := sound.zoneTrimmed.symm
      weeklyOpen := rfl
      weeklyClose := rfl
      pause := rfl
      closures := by
        simp only [closuresOf, written, Closure.listOfJson_toJson sound.closures_fit]
        exact sound.closures
      policy := rfl }
  exact ⟨p.written, draftOfJson?_toJson sound, ofDraft_eq_ok.2 ⟨described, sound.tagged, sound.zoned,
    sound.weeklyOpen, sound.weeklyClose, sound.breakStart, sound.breakMinutes,
    fun policy declared => (sound.policy policy declared).asks⟩⟩

/-! ### Texts -/

/-- The text of sound profiles with tags of their own is read as the same profiles in the same
order. -/
theorem readAll_writeAll (sound : ∀ p ∈ ps, p.IsSound) (distinct : (ps.map tag).Nodup) :
    readAll (writeAll ps) = .ok ps := by
  have printable : Printable 4 (.arr (ps.map toJson)) := by
    refine .arr fun j hj => ?_
    obtain ⟨p, hp, rfl⟩ := List.mem_map.1 hj
    exact toJson_printable (sound p hp)
  have parsed : Json.read? (writeAll ps) = some (.arr (ps.map fun p => p.toJson.ordered)) := by
    have found := read?_pretty printable (by decide)
    rwa [ordered, orderedItems_eq, List.map_map] at found
  refine readAll_eq_ok.2 ⟨_, parsed, ?_, distinct⟩
  rw [List.forall₂_map_left_iff, List.forall₂_same]
  exact fun p hp => (sound p hp).reads

end Profile

/-! ### Files -/

namespace ProfileFile

variable {place : Place} {ps : List Profile} {v v' : Device}

/-- The disk holds a text at the place that gives the profiles. -/
def HeldOn (d : Disk) (place : Place) (ps : List Profile) : Prop :=
  ∃ text, d.textAt place = .ok (some text) ∧ Profile.readAll text = .ok ps

/-- Whatever becomes of the accesses to the disk, profiles that are read are those that it holds. -/
theorem heldOn_of_readAll (h : Ends (readAll place) v (.ok ps) v') : HeldOn v.disk place ps := by
  obtain ⟨text, t, textRead, parsed⟩ := Ends.bind_ok_iff.1 h
  obtain ⟨found, u, ended, given⟩ := Ends.bind_ok_iff.1 textRead
  rcases ends_withFault.1 ended with ⟨found', ended', same⟩ | ⟨-, impossible⟩ | ⟨_, -, impossible⟩
  · cases same
    have held := (readText?_cases ended').2 found rfl
    cases found with
    | none =>
        cases (ends_fail.1 given).1
    | some text' =>
        obtain ⟨same, -⟩ := Ends.pure_iff.1 given
        cases same
        exact ⟨text, held, (ends_ofOutcome_ok.1 parsed).1⟩
  · cases impossible
  · cases impossible

/-- Where nothing fails, the profiles that the disk holds are read. -/
theorem readAll_works {d : Disk} (held : HeldOn d place ps) (process : Nat) :
    Ends (readAll place) (sound d process) (.ok ps) (sound d process) := by
  obtain ⟨text, there, parsed⟩ := held
  exact (Ends.bind_of (readTextOr_works there)).2 (ends_ofOutcome_ok.2 ⟨parsed, rfl⟩)

theorem HeldOn.unique {d : Disk} {qs : List Profile} (held : HeldOn d place ps)
    (held' : HeldOn d place qs) : qs = ps := by
  obtain ⟨text, there, parsed⟩ := held
  obtain ⟨text', there', parsed'⟩ := held'
  rw [there] at there'
  cases there'
  rw [parsed] at parsed'
  cases parsed'
  rfl

/-- The file at a place has the text of the profiles.  Profiles that are read from it are these, and
where nothing fails they are read; written again they leave the file as it is. -/
structure Settled (place : Place) (ps : List Profile) (v : Device) : Prop where
  file : v.disk.node? place.path = some (.file (encode (Profile.writeAll ps)))
  only : ∀ (w w' : Device) (qs : List Profile), w.disk = v.disk →
    Ends (readAll place) w (.ok qs) w' → qs = ps
  works : Ends (readAll place) (sound v.disk v.process) (.ok ps) (sound v.disk v.process)
  again : ∃ d, Ends (write place ps) (sound v.disk v.process) (.ok ()) (sound d v.process) ∧
    d.node? place.path = v.disk.node? place.path

/-- Profiles that their own text gives are settled once they were written. -/
theorem settled_of_write (parsed : Profile.readAll (Profile.writeAll ps) = .ok ps)
    (h : Ends (write place ps) v (.ok ()) v') : Settled place ps v' := by
  have published := publishContent_published h
  have ready : Ready place v'.process v'.disk := published.process ▸ published.ready
  have held : HeldOn v'.disk place ps := by
    refine ⟨Profile.writeAll ps, ?_, parsed⟩
    simp only [Disk.textAt, Disk.contentAt_file published.located published.content, decode?_encode]
  obtain ⟨d, ended⟩ : ∃ d, Ends (write place ps) (sound v'.disk v'.process) (.ok ())
      (sound d v'.process) := publish_works ready
  refine ⟨published.content, fun w w' qs same read => ?_, readAll_works held _, d, ended, ?_⟩
  · rw [← same] at held
    exact held.unique (heldOn_of_readAll read)
  · rw [published.content]
    exact (publishContent_published ended).content

end ProfileFile

/-! ### The round trip -/

namespace Profile

/-- The break of a profile is the one that a draft gives by its start and its end: it has the start,
and after its minutes, fewer than those of a day, comes the end, if need be of the next day. -/
def Draft.GivesSpan (d : Draft) (p : Profile) : Prop :=
  ∃ span first last, d.breakSpan = some span ∧ ClockTime.read span.start = .ok first ∧
    ClockTime.read span.stop = .ok last ∧ p.breakStart = span.start ∧
    0 < p.breakMinutes ∧ p.breakMinutes < 24 * 60 ∧
    (first.minutes + p.breakMinutes) % (24 * 60) = last.minutes

theorem givesSpan_of_ofDraft {d : Draft} {p : Profile} (h : ofDraft d = .ok p)
    (older : d.breakStart = none) : d.GivesSpan p := by
  obtain ⟨described, -, -, -, -, -, positive, -⟩ := ofDraft_eq_ok.1 h
  rcases breakOf_eq_ok.1 described.pause with
    ⟨given, -⟩ | ⟨-, -, span, first, last, given, firstRead, lastRead, start, minutes⟩
  · rw [older] at given
    cases given
  · obtain ⟨hour, minute⟩ := ClockTime.read_isValid lastRead
    refine ⟨span, first, last, given, firstRead, lastRead, start, positive, ?_, ?_⟩
    · omega
    · simp only [ClockTime.minutes, Int.ofNat_eq_natCast] at minutes ⊢
      omega

/-- Profiles that were read from any text are read again, in the same order, from the text and the
file that they are written to, and writing them once more changes nothing.  Each one comes from an
item of the first text; alone it is read from its own text as well, so an item in the older form
gives the same profile as that text, whose break ends when the item says. -/
theorem readAll_round_trips {text : String} {ps : List Profile} (read : readAll text = .ok ps) :
    readAll (writeAll ps) = .ok ps ∧
    (∀ (place : Place) (v v' : Device), Ends (ProfileFile.write place ps) v (.ok ()) v' →
      ProfileFile.Settled place ps v') ∧
    ∃ items, Json.read? text = some (.arr items) ∧
      items.Forall₂ (fun j p => readAll (writeAll [p]) = .ok [p] ∧
        ∃ d, draftOfJson? j = some d ∧ ofDraft d = .ok p ∧
          (d.breakStart = none → d.GivesSpan p)) ps := by
  obtain ⟨items, parsed, reads, distinct⟩ := readAll_eq_ok.1 read
  have again := readAll_writeAll (readAll_sound read) distinct
  refine ⟨again, fun place v v' => ProfileFile.settled_of_write again, items, parsed, ?_⟩
  refine reads.imp fun j p given => ⟨?_, ?_⟩
  · exact readAll_writeAll (by simpa using given.sound) (List.nodup_singleton _)
  · obtain ⟨d, found, accepted⟩ := given
    exact ⟨d, found, accepted, givesSpan_of_ofDraft accepted⟩

/-- A profile in the older form, with a break over midnight and with its windows in no order, is
settled in the file that it is written to. -/
theorem readAll_round_trips_older :
    let text := "[\x7b\"calendar_tag\":\" gold \",\"recurrence_tz\":\"UTC\"," ++
      "\"weekly_open_local\":\"22:00\",\"weekly_close_local\":\"9:5\"," ++
      "\"daily_break_local\":\x7b\"start\":\"23:58\",\"end\":\"0:03\"\x7d," ++
      "\"closed_intervals_utc\":[[1700000060000,1700000120000],[1700000000000,1700000060000]]\x7d]"
    let p : Profile := ⟨"gold", "UTC", "22:00", "9:5", "23:58", 5,
      [⟨1700000000000, 1700000060000⟩, ⟨1700000060000, 1700000120000⟩], none⟩
    let place := Place.ofText [] "/profiles.json"
    readAll text = .ok [p] ∧ readAll (writeAll [p]) = .ok [p] ∧
      ∃ d, Ends (ProfileFile.write place [p]) (sound .empty 1) (.ok ()) (sound d 1) ∧
        ProfileFile.Settled place [p] (sound d 1) := by
  intro text p place
  have read : readAll text = .ok [p] := by decide +kernel
  have ready : Ready place 1 .empty := by
    refine ⟨?_, ?_, ?_, ?_, ?_⟩ <;> decide +kernel
  obtain ⟨again, settles, -⟩ := readAll_round_trips read
  obtain ⟨d, ended⟩ : ∃ d, Ends (ProfileFile.write place [p]) (sound .empty 1) (.ok ())
      (sound d 1) := publish_works ready
  exact ⟨read, again, d, ended, settles _ _ _ ended⟩

end Profile

end MarketBook
