/-
Module: MarketBook.Proofs.OwnBars
Purpose: Which values a cache takes for bars of its binding, and when a bar that it holds would be
  taken again.
Main exports:
  BarCache.append_own_bars, Json.put, Bar.Described.put_symbol, Bar.described_own,
  Bar.TakenAgain, Symbol.held_bars_taken_again
-/
import MarketBook.Proofs.ArchiveTables
import MarketBook.Proofs.JsonRecords
import MarketBook.Proofs.NormalSymbols
import MarketBook.Proofs.WorkingCaches

namespace MarketBook

open BarCache Device Outcome Text Time

/-!
A cache files every bar under its own symbol and timeframe.  What an object says of them is compared
where it says it in a text, and its times are taken from integers alone.  A bar that is held
describes itself to the gate, and its key to the archive, unless its symbol is blank; a bar from a
file may close later than the gate allows.
-/

/-! ### What an append takes -/

section Append

variable {s s' : Session} {incoming : List Json} {n : Nat}

/-- An append works exactly for values that each describe a bar of the binding, and it puts these
bars behind the pending ones. -/
theorem BarCache.append_own_bars :
    Ends (append incoming) s (.ok n) s' ↔
      ∃ bars, List.Forall₂ (Bar.Described s.cache.binding) incoming bars ∧ n = bars.length ∧
        s' = { s with cache := { s.cache with pending := s.cache.pending ++ bars } } := by
  have batch : ∀ bars, acceptAll s.cache.binding incoming = .ok bars ↔
      List.Forall₂ (Bar.Described s.cache.binding) incoming bars := by
    intro bars
    rw [acceptAll_eq_ok]
    simp only [Bar.accept_eq_ok]
  constructor
  · intro h
    rcases append_cases h with ⟨bars, accepted, same, rest⟩ | ⟨⟨e, impossible⟩, -⟩
    · exact ⟨bars, (batch bars).1 accepted, Except.ok.inj same, rest⟩
    · cases impossible
  · rintro ⟨bars, described, rfl, rfl⟩
    exact append_of ((batch bars).2 described)

/-- An object that names another symbol in a list, and a timeframe as a number. -/
def metalGuest : Json :=
  .obj [("symbol", .arr [.str "EURUSD"]), ("tf", .int 60), ("open_time_ms", .int 1700000040000),
    ("close_time_ms", .int 1700000099999), ("complete", .bool true), ("open", .int 1),
    ("high", .int 2), ("low", .int 1), ("close", .int 2)]

/-- It is taken for a bar of the metal, although neither value is a text. -/
theorem metalGuest_taken :
    (∃ v, metalGuest.get? "symbol" = some v ∧ v ≠ .null ∧ ∀ raw, v ≠ .str raw) ∧
      (∃ v, metalGuest.get? "tf" = some v ∧ v ≠ .null ∧ ∀ raw, v ≠ .str raw) ∧
      ∃ s', Ends (append [metalGuest]) ⟨metalCache, sound Disk.empty 1⟩ (.ok 1) s' :=
  ⟨⟨.arr [.str "EURUSD"], rfl, nofun, nofun⟩, ⟨.int 60, rfl, nofun, nofun⟩, _,
    Ends.of_result (by decide +kernel)⟩

end Append

/-! ### Objects with one field more -/

/-- An object with another value at a key; a value of another kind stays as it is. -/
def Json.put (j : Json) (key : String) (value : Json) : Json :=
  match j with
  | .obj fields => .obj (insertField key value fields)
  | j => j

theorem Json.get?_put {fields : List (String × Json)} (key k : String) (value : Json) :
    ((obj fields).put key value).get? k = if key = k then some value else (obj fields).get? k :=
  field?_insertField key k value fields

namespace Bar

variable {binding : Binding} {o : Json} {b : Bar}

/-- With its symbol put in, an object describes the same bar exactly if the symbol is one that
normalizes to that of the binding. -/
theorem Described.put_symbol (described : b.Described binding o) (text : String) :
    b.Described binding (o.put "symbol" (.str text)) ↔
      Symbol.normalize text = .ok binding.symbol := by
  obtain ⟨fields, rfl⟩ := described.isObject
  constructor
  · intro again
    exact again.symbolText text (by rw [Json.get?_put, if_pos rfl])
  · intro normal
    have other : ∀ key, "symbol" ≠ key →
        ((Json.obj fields).put "symbol" (.str text)).get? key = (Json.obj fields).get? key := by
      intro key apart
      rw [Json.get?_put, if_neg apart]
    exact {
      isObject := ⟨_, rfl⟩
      symbolText := by
        intro raw found
        rw [Json.get?_put, if_pos rfl] at found
        cases found
        exact normal
      tfText := by rw [other "tf" (by decide)]; exact described.tfText
      openTime := by
        rw [other "open_time_ms" (by decide), other "open_time" (by decide)]
        exact described.openTime
      closeTime := by
        rw [other "close_time_ms" (by decide), other "close_time" (by decide)]
        exact described.closeTime
      closeOnRails := described.closeOnRails
      complete := by rw [other "complete" (by decide)]; exact described.complete
      opening := by rw [other "open" (by decide)]; exact described.opening
      high := by rw [other "high" (by decide)]; exact described.high
      low := by rw [other "low" (by decide)]; exact described.low
      closing := by rw [other "close" (by decide)]; exact described.closing
      volume := by rw [other "volume" (by decide)]; exact described.volume
      ticks := by rw [other "tick_count" (by decide)]; exact described.ticks
      sound := described.sound }

/-- A bar as an object that the gate reads, with symbol and timeframe. -/
def ownJson (b : Bar) : Json :=
  b.toJson.put "complete" (.bool true)

theorem get?_ownJson (key : String) {v : Json} (apart : "complete" ≠ key)
    (found : b.toJson.get? key = some v) : b.ownJson.get? key = some v := by
  rw [ownJson, toJson, Json.get?_put, if_neg apart]
  exact found

theorem requireTicks_ofNat (n : Nat) : requireTicks (some (.ofNat n)) = .ok n := by
  simp [requireTicks, Json.ofNat]

/-- A sound bar describes itself exactly if its symbol is a normal form of its own and it closes in
time. -/
theorem described_own (sound : b.IsSound binding) :
    b.Described binding b.ownJson ↔
      Symbol.normalize b.symbol = .ok binding.symbol ∧ onRails b.closeTime = true := by
  have symbol : b.ownJson.get? "symbol" = some (.str b.symbol) :=
    get?_ownJson "symbol" (by decide) rfl
  constructor
  · intro described
    exact ⟨described.symbolText _ symbol, described.closeOnRails⟩
  · rintro ⟨normal, onTheRails⟩
    have finite := sound.finite
    simp only [quantities, List.forall_mem_cons] at finite
    have volume : requireFinite "volume" (some (.float b.volume)) = .ok b.volume :=
      requireFinite_eq_ok.2 ⟨rfl, finite.2.2.2.2.1⟩
    exact {
      isObject := ⟨_, rfl⟩
      symbolText := by
        intro raw found
        rw [symbol] at found
        cases found
        exact normal
      tfText := by
        intro raw found
        rw [get?_ownJson "tf" (v := .str b.tf.label) (by decide) rfl] at found
        cases found
        rw [← sound.tf]
        exact Timeframe.read_label b.tf
      openTime := by
        rw [get?_ownJson "open_time_ms" (by decide) rfl]
        rfl
      closeTime := by
        rw [get?_ownJson "close_time_ms" (by decide) rfl]
        rfl
      closeOnRails := onTheRails
      complete := by rw [ownJson, toJson, Json.get?_put, if_pos rfl]
      opening := by rw [get?_ownJson "open" (by decide) rfl]; rfl
      high := by rw [get?_ownJson "high" (by decide) rfl]; rfl
      low := by rw [get?_ownJson "low" (by decide) rfl]; rfl
      closing := by rw [get?_ownJson "close" (by decide) rfl]; rfl
      volume := by rw [get?_ownJson "volume" (by decide) rfl]; exact volume
      ticks := by
        rw [get?_ownJson "tick_count" (by decide) rfl]
        exact requireTicks_ofNat b.ticks
      sound := sound }

/-- How a bar that a cache holds is taken again.  Nothing but its symbol can be in the way, or a
close that is off the rails. -/
structure TakenAgain (b : Bar) : Prop where
  /-- The archive takes its key. -/
  archived : Archive.requireKey b.symbol b.tf.label b.openTime b.closeTime = .ok b.tf ↔
    allBlank b.symbol = false
  /-- The gate takes it as it describes itself. -/
  described : accept b.symbol b.tf b.ownJson = .ok b ↔
    allBlank b.symbol = false ∧ onRails b.closeTime = true
  /-- The gate takes any object that it was made from, with its symbol put in. -/
  named : ∀ o, accept b.symbol b.tf o = .ok b →
    (accept b.symbol b.tf (o.put "symbol" (.str b.symbol)) = .ok b ↔ allBlank b.symbol = false)

/-- A sound bar is taken again as its symbol is. -/
theorem IsSound.takenAgain (sound : b.IsSound binding)
    (own : Symbol.normalize b.symbol = .ok b.symbol ↔ allBlank b.symbol = false) :
    b.TakenAgain := by
  have gate : ∀ o, accept b.symbol b.tf o = .ok b ↔ b.Described ⟨b.symbol, b.tf⟩ o :=
    fun o => @accept_eq_ok ⟨b.symbol, b.tf⟩ o b
  have same : b.IsSound ⟨b.symbol, b.tf⟩ := by
    rw [sound.symbol, sound.tf]
    exact sound
  constructor
  case archived =>
    rw [Archive.requireKey_eq_ok]
    exact ⟨fun accepted => accepted.1, fun filled =>
      ⟨filled, rfl, same.onTheRails, same.aligned, same.closes⟩⟩
  case described => rw [gate, described_own same, own]
  case named =>
    intro o accepted
    rw [gate, ((gate o).1 accepted).put_symbol, own]

end Bar

/-! ### Bars that caches hold -/

variable {raw n : String}

/-- A normal form has neither slashes nor spaces, is not empty, and is its own normal form unless it
is blank.  Every bar in a cache of that symbol has it as its symbol, and is taken again as far as the
symbol goes. -/
theorem Symbol.held_bars_taken_again (h : normalize raw = .ok n) :
    NormalForm raw n ∧
      ∀ {allowed : Action → Prop} {s : Session}, Reachable allowed s → s.cache.binding.symbol = n →
        ∀ b ∈ s.cache.rows ++ s.cache.pending, b.symbol = n ∧ b.TakenAgain := by
  have normal := normalForm h
  refine ⟨normal, ?_⟩
  rintro allowed s reachable rfl b hb
  have sound := reachable.rows_sound.2.1 b hb
  refine ⟨sound.symbol, sound.takenAgain ?_⟩
  rw [sound.symbol]
  exact normal.own

/-- The row of the metal is taken again. -/
theorem metal_taken_again :
    Symbol.NormalForm "xau/usd" "XAUUSD" ∧ metalSession.cache.rows.length = 1 ∧
      ∀ b ∈ metalSession.cache.rows ++ metalSession.cache.pending,
        b.symbol = "XAUUSD" ∧ b.TakenAgain := by
  have reachable : Reachable (fun _ => True) metalSession :=
    .step metalArrival trivial (.start metalCache_created _)
  obtain ⟨normal, held⟩ := Symbol.held_bars_taken_again
    (show Symbol.normalize "xau/usd" = .ok "XAUUSD" by decide +kernel)
  exact ⟨normal, by decide +kernel, held reachable (by decide +kernel)⟩

/-- The cache of a symbol that is a slash and a tabulator. -/
def blankCache : BarCache :=
  ⟨.ofText [] "/data", ⟨"\t", .m1⟩, 10, 0, [], [], .blank, none, false⟩

theorem blankCache_created :
    BarCache.create (.ofText [] "/data") "/\t" .m1 10 0 = .ok blankCache := by
  decide +kernel

/-- A disk with a row of the metal for the minute at whose end the rails end. -/
def lateDisk : Disk :=
  (Disk.empty.set ["data"] .directory).set ["data", "XAUUSD_1m.csv"] (.file (encode
    ("symbol,tf,open_time_ms,close_time_ms,open,high,low,close,volume,tick_count\n" ++
      "XAUUSD,1m,9999999960000,10000000019999,1,1,1,1,0,0\n")))

/-- The normal form of that symbol is the tabulator, which has none; its cache takes a bar that
neither the gate nor the archive would take under its symbol.  And a load takes a row that closes
later than the gate allows. -/
theorem held_bars_refused :
    (Symbol.normalize "/\t" = .ok "\t" ∧ allBlank "\t" = true ∧
      Symbol.normalize "\t" = misused .blankSymbol ∧
      ∃ s : Session, Reachable (fun _ => True) s ∧
        ∃ b ∈ s.cache.pending, Bar.accept b.symbol b.tf b.ownJson = misused .blankSymbol ∧
          Archive.requireKey b.symbol b.tf.label b.openTime b.closeTime =
            misused .emptyKeySymbol) ∧
      ∃ s : Session, Reachable (fun _ => True) s ∧
        ∃ b ∈ s.cache.rows, Bar.accept b.symbol b.tf b.ownJson =
          violated (.timeTooLarge "close_time_ms" 10000000019999) := by
  have blank : Reachable (fun _ => True)
      ((Action.append metalArrival.incoming).after ⟨blankCache, sound Disk.empty 1⟩) :=
    .step _ trivial (.start blankCache_created _)
  have late : Reachable (fun _ => True) (Action.load.after ⟨metalCache, sound lateDisk 1⟩) :=
    .step _ trivial (.start metalCache_created _)
  refine ⟨⟨?_, ?_, ?_, _, blank, ?_⟩, _, late, ?_⟩ <;> decide +kernel

end MarketBook
