import StatQuery.Proofs.Config.Table
import StatQuery.Proofs.Config.Written
import StatQuery.Proofs.Toml.Canonical

/-!
# Written configurations read back

The table of a written configuration has a value at every path that a configuration is read from, and
each of them is the configuration's own (`described_table`). Nothing is left to a default, so the text
reads back as the configuration it was written from (`ofText?_write`).
-/

namespace StatQuery

open Datum Toml Toml.Writer

/-! ### Numbers -/

theorem Datum.port_integer (n : UInt16) : port (.integer n.toNat) = .ok n := by
  have hrange : (0 : Int) ≤ n.toNat ∧ (n.toNat : Int) < twoTo 16 :=
    ⟨Int.natCast_nonneg _, Int.ofNat_lt.2 n.toNat_lt⟩
  rw [port, unsigned, if_pos hrange, Int.toNat_natCast]
  exact congrArg Except.ok UInt16.ofNat_toNat

theorem Datum.milliseconds_integer (n : UInt64) : milliseconds (.integer n.toNat) = .ok n := by
  have hrange : (0 : Int) ≤ n.toNat ∧ (n.toNat : Int) < twoTo 64 :=
    ⟨Int.natCast_nonneg _, Int.ofNat_lt.2 n.toNat_lt⟩
  rw [milliseconds, unsigned, if_pos hrange, Int.toNat_natCast]
  exact congrArg Except.ok UInt64.ofNat_toNat

/-! ### The table -/

theorem Toml.Writer.Setting.canonical_value (setting : Setting) : setting.value.Canonical := by
  cases setting <;> trivial

theorem Toml.Writer.canonical_settingsTable (settings : List (String × Setting)) :
    (Toml.table (settingsTable settings)).Canonical := by
  refine canonical_ofList fun entry hmem => ?_
  obtain ⟨setting, -, rfl⟩ := List.mem_map.1 hmem
  exact setting.2.canonical_value

theorem Toml.Writer.get?_settingsTable (name : String) (settings : List (String × Setting)) :
    Entries.get? name (settingsTable settings) =
      (Entries.get? name settings.reverse).map Setting.value := by
  rw [settingsTable, Entries.get?_ofList, ← List.map_reverse, Entries.get?_map]

namespace Config

theorem canonical_serviceTables (services : Dict ServiceEntry) :
    (Toml.table (serviceTables services)).Canonical := by
  refine ⟨ascending_serviceTables services, canonicalEntries_iff.2 fun entry hmem => ?_⟩
  obtain ⟨service, -, rfl⟩ := List.mem_map.1 hmem
  exact canonical_settingsTable _

theorem canonical_table (config : Config) : (Toml.table config.table).Canonical := by
  refine canonical_ofList fun entry hmem => ?_
  simp only [List.mem_cons, List.not_mem_nil, or_false] at hmem
  rcases hmem with rfl | rfl | rfl | rfl
  · exact canonical_settingsTable _
  · exact canonical_settingsTable _
  · exact canonical_settingsTable _
  · exact canonical_serviceTables config.services

/-- The table that one service is written as. -/
def entryTable (entry : ServiceEntry) : Toml.Table := settingsTable (serviceSection "" entry).settings

theorem get?_serviceTables (services : Dict ServiceEntry) (name : String) :
    Entries.get? name (serviceTables services) =
      (services.get? name).map fun entry => .table (entryTable entry) :=
  Entries.get?_map (fun entry => Toml.table (entryTable entry)) name services.entries

/-- What there is under the name of a section. -/
theorem get?_table (config : Config) (name : String) :
    Entries.get? name config.table =
      if name = "services" then some (.table (serviceTables config.services))
      else if name = "statistics" then some (.table (settingsTable [("enabled", .flag config.enabled),
        ("provider_timeout_ms", .number config.providerTimeoutMs.toNat)]))
      else if name = "telemetry" then
        some (.table (settingsTable [("log_level", .text config.logLevel)]))
      else if name = "bind" then
        some (.table (settingsTable [("stats_endpoint", .text config.statsEndpoint)]))
      else none := by
  rw [table, Entries.get?_ofList]
  simp only [List.reverse_cons, List.reverse_nil, List.nil_append, List.cons_append,
    Entries.get?_cons, Entries.get?_nil, eq_comm]

theorem find?_services (config : Config) (name : String) (path : List String) :
    config.table.find? ("services" :: name :: path) =
      (config.services.get? name).bind fun entry => (entryTable entry).find? path := by
  rw [Table.find?, find?_cons_table, get?_table, if_pos rfl, Option.bind_some, find?_cons_table,
    get?_serviceTables, Option.bind_map]
  rfl

theorem isTable_of_find?_key {config : Config} {name : String} {value : Toml}
    (h : config.table.find? [name] = some value) : value.isTable = true := by
  rw [Table.find?, find?_key, get?_table] at h
  repeat'
    split at h
  all_goals
    cases h
  all_goals
    rfl

theorem sectioned_table (config : Config) : Sectioned config.table where
  sections _ _ _ hvalue := isTable_of_find?_key hvalue
  services name value hvalue := by
    rw [find?_services] at hvalue
    obtain ⟨entry, -, hentry⟩ := Option.bind_eq_some_iff.1 hvalue
    cases hentry
    rfl

theorem datum?_section {config : Config} {name : String} {settings : List (String × Setting)}
    (h : Entries.get? name config.table = some (.table (settingsTable settings))) (field : String) :
    config.table.datum? [name, field] =
      ((Entries.get? field settings.reverse).map Setting.value).map datum := by
  rw [Table.datum?, Table.find?, find?_cons_table, h, Option.bind_some, find?_key,
    get?_settingsTable]

theorem described_entryTable (entry : ServiceEntry) :
    entry.Described fun field => (entryTable entry).datum? [field] := by
  have hdatum : ∀ field, (entryTable entry).datum? [field] =
      ((Entries.get? field (serviceSection "" entry).settings.reverse).map Setting.value).map datum := by
    intro field
    rw [Table.datum?, Table.find?, find?_key, entryTable, get?_settingsTable]
  constructor
  all_goals
    rw [hdatum]
  · rfl
  · rfl
  · rfl
  · rfl
  · exact port_integer entry.controlPort

/-- Every value of a written configuration is mentioned. -/
theorem described_table (config : Config) : config.Described config.table.datum? where
  statsEndpoint := by
    rw [datum?_section (get?_table config "bind")]
    rfl
  logLevel := by
    rw [datum?_section (get?_table config "telemetry")]
    rfl
  enabled := by
    rw [datum?_section (get?_table config "statistics")]
    rfl
  providerTimeoutMs := by
    rw [datum?_section (get?_table config "statistics")]
    exact milliseconds_integer config.providerTimeoutMs
  services name := by
    rw [Table.datum?, find?_services]
    cases config.services.get? name <;> rfl
  entry name entry hentry := by
    have hfind : ∀ field, config.table.datum? ["services", name, field] =
        (entryTable entry).datum? [field] := by
      intro field
      rw [Table.datum?, find?_services, hentry]
      rfl
    rw [funext hfind]
    exact described_entryTable entry

/-- A configuration has a text unless its limit is too large for one, and reads back from it. -/
theorem ofText?_write (config : Config) :
    match config.write with
    | .ok text => config.providerTimeoutMs.toNat ≤ 0x7fffffffffffffff ∧ ofText? text = some config
    | .error error => 0x7fffffffffffffff < config.providerTimeoutMs.toNat ∧ error = .unwritable ∧
        ∃ detail, error.message = "Invalid configuration: " ++ detail := by
  have hmax : maxNumber = 0x7fffffffffffffff := rfl
  by_cases hlimit : config.providerTimeoutMs.toNat ≤ maxNumber
  · obtain ⟨text, htext⟩ : ∃ text, config.text? = some text := ⟨_, if_pos hlimit⟩
    have hread : ofText? text = some config := by
      have htable := (ofTable_eq_ok_iff (canonical_table config) (sectioned_table config)).2
        (described_table config)
      rw [ofText?, parse?_of_text? htext, Option.bind_eq_bind, Option.bind_some, htable]
      rfl
    rw [write, htext]
    exact ⟨hmax ▸ hlimit, hread⟩
  · have hnone : config.text? = none := if_neg hlimit
    rw [write, hnone]
    exact ⟨Nat.lt_of_not_le (hmax ▸ hlimit), rfl,
      "cannot serialize config: out-of-range value for u64 type", by decide⟩

end Config

end StatQuery
