/-
Module: MarketBook.Proofs.MetaTexts
Purpose: Metadata that were written are read back as the same metadata.
Main exports:
  CacheMeta.Fits, CacheMeta.read_write
-/
import MarketBook.Cache.Meta
import MarketBook.Proofs.JsonRecords
import MarketBook.Proofs.JsonValues
import MarketBook.Proofs.Outcomes

namespace MarketBook.CacheMeta

open Json Outcome Text

/-- The numbers of metadata have 64 bits. -/
structure Fits (m : CacheMeta) : Prop where
  rows : m.rows < limit64
  lastCloseTime : isSigned64 m.lastCloseTime = true
  heartbeat : isSigned64 m.heartbeat = true
  watermark : isSigned64 m.watermark = true

variable {m : CacheMeta}

/-- The fields of metadata as they are written. -/
def fields (m : CacheMeta) : List (String × Json) :=
  [("version", .ofNat version),
    ("rows", .ofNat m.rows),
    ("last_close_time_ms", .int m.lastCloseTime),
    ("last_refresh_utc", .str m.lastRefresh),
    ("last_stream_heartbeat", .int m.heartbeat),
    ("last_published_open_time_ms", .int m.watermark)] ++
    (m.symbol.map fun s => ("symbol", Json.str s)).toList ++
    (m.tf.map fun tf => ("tf", Json.str tf.label)).toList

theorem fields_printable (fits : m.Fits) : ∀ f ∈ m.fields, Printable 0 f.2 := by
  intro f h
  simp only [fields, List.mem_append, List.mem_cons, List.not_mem_nil, or_false, Option.mem_toList,
    Option.map_eq_some_iff] at h
  rcases h with ((rfl | rfl | rfl | rfl | rfl | rfl) | ⟨s, -, rfl⟩) | ⟨tf, -, rfl⟩
  · exact .int ⟨by decide, by decide⟩
  · exact .int (isInteger64_ofNat fits.rows)
  · exact .int (isInteger64_of_signed fits.lastCloseTime)
  · exact .str _
  · exact .int (isInteger64_of_signed fits.heartbeat)
  · exact .int (isInteger64_of_signed fits.watermark)
  · exact .str _
  · exact .str _

theorem fields_distinct (m : CacheMeta) : (m.fields.map (·.1)).Nodup := by
  obtain ⟨rows, lastCloseTime, lastRefresh, heartbeat, watermark, symbol, tf⟩ := m
  cases symbol <;> cases tf <;> simp [fields]

/-- What is found at the keys that metadata are read from. -/
theorem fields_found (m : CacheMeta) :
    field? "version" m.fields = some (.ofNat version) ∧
      field? "rows" m.fields = some (.ofNat m.rows) ∧
      field? "last_close_time_ms" m.fields = some (.int m.lastCloseTime) ∧
      field? "last_refresh_utc" m.fields = some (.str m.lastRefresh) ∧
      field? "last_stream_heartbeat" m.fields = some (.int m.heartbeat) ∧
      field? "last_published_open_time_ms" m.fields = some (.int m.watermark) ∧
      field? "symbol" m.fields = m.symbol.map Json.str ∧
      field? "tf" m.fields = m.tf.map fun tf => .str tf.label := by
  obtain ⟨rows, lastCloseTime, lastRefresh, heartbeat, watermark, symbol, tf⟩ := m
  cases symbol <;> cases tf <;> simp [fields, field?]

/-- Metadata whose numbers fit are read back as they were written. -/
theorem read_write (fits : m.Fits) : read m.write = .ok m := by
  have parsed : Json.read? m.write = some (ofFields m.fields) := by
    rw [← ordered_of_scalars (fields_printable fits)]
    exact read?_pretty (.obj (fields_printable fits)) (by decide)
  obtain ⟨versionFound, rows, lastCloseTime, lastRefresh, heartbeat, watermark, symbol, tf⟩ :=
    fields_found m
  have at_key := get?_ofFields (fields_distinct m)
  have right : requireVersion (ofFields m.fields) = .ok () := by
    simp only [requireVersion, at_key, versionFound, Option.bind_some,
      asNat64?, asNatBelow?_ofNat (show version < limit64 by decide), if_true]
  have symbolRead : Json.optional? asText? (m.symbol.map Json.str) = some m.symbol := by
    cases m.symbol <;> rfl
  have tfRead : Json.optional? timeframeOfJson? (m.tf.map fun tf => .str tf.label) = some m.tf := by
    cases m.tf with
    | none => rfl
    | some tf =>
        simp only [Option.map_some, Json.optional?, timeframeOfJson?, asText?, Option.bind_some,
          Timeframe.read_label]
        rfl
  have content : ofFields? (ofFields m.fields) = some m := by
    simp only [ofFields?, fieldOr, at_key, rows, lastCloseTime, lastRefresh, heartbeat, watermark,
      symbol, tf, asNat64?, asNatBelow?_ofNat fits.rows, asInt64?_int fits.lastCloseTime,
      asInt64?_int fits.heartbeat, asInt64?_int fits.watermark, symbolRead, tfRead, asText?]
    rfl
  unfold read
  rw [parsed]
  refine check_eq_ok.2 ⟨right, ?_⟩
  rw [content]
  rfl

end MarketBook.CacheMeta
