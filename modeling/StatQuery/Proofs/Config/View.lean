import StatQuery.Proofs.Config.RoundTrip

/-!
# Configurations as values

A configuration and the descriptions of its services are also shown as values. As data these are the
tables that are written of them (`datum_toJson`), so they read back in the same way (`ofJson_toJson`).
Unlike a text, a value has room for every limit.
-/

namespace StatQuery

open Toml.Writer

theorem Json.datumMembers_eq_map (members : List (String × Json)) :
    datumMembers members = members.map fun member => (member.1, member.2.datum) := by
  induction members with
  | nil => rfl
  | cons member rest ih =>
    obtain ⟨name, value⟩ := member
    rw [datumMembers, ih, List.map_cons]

/-- Members in key order are data in key order. -/
theorem Json.datumMembers_ofList (members : List (String × Json)) :
    datumMembers (Entries.ofList members) =
      Entries.ofList (members.map fun member => (member.1, member.2.datum)) := by
  rw [datumMembers_eq_map]
  exact Entries.map_ofList (fun _ value => value.datum) members

theorem Toml.datumEntries_ofList (entries : List (String × Toml)) :
    datumEntries (Entries.ofList entries) =
      Entries.ofList (entries.map fun entry => (entry.1, entry.2.datum)) := by
  rw [datumEntries_eq_map]
  exact Entries.map_ofList (fun _ value => value.datum) entries

theorem Json.datum_ofMembers (members : List (String × Json)) :
    (ofMembers members).datum =
      .map (Entries.ofList (members.map fun member => (member.1, member.2.datum))) := by
  rw [ofMembers, datum, datumMembers_ofList]

theorem Toml.datum_settingsTable (settings : List (String × Setting)) :
    (Toml.table (settingsTable settings)).datum =
      .map (Entries.ofList (settings.map fun setting => (setting.1, setting.2.value.datum))) := by
  rw [Toml.datum, settingsTable, datumEntries_ofList, List.map_map]
  rfl

namespace ServiceEntry

/-- A description is shown as it is written. -/
theorem datum_toJson (entry : ServiceEntry) :
    entry.toJson.datum = (Toml.table (Config.entryTable entry)).datum := by
  rw [toJson, Json.datum_ofMembers, Config.entryTable, Toml.datum_settingsTable]
  rfl

theorem ofJson_toJson (entry : ServiceEntry) : ofJson entry.toJson = .ok entry := by
  have hascending : Entries.Ascending (Toml.datumEntries (Config.entryTable entry)) :=
    Toml.ascending_datumEntries (Entries.ascending_ofList _)
  rw [ofJson, datum_toJson, Toml.datum, ofDatum_map_eq_ok_iff hascending]
  simp only [Toml.get?_datumEntries_eq]
  exact Config.described_entryTable entry

end ServiceEntry

namespace Config

theorem datum_services (services : Dict ServiceEntry) :
    (Json.ofDict (services.map ServiceEntry.toJson)).datum =
      (Toml.table (serviceTables services)).datum := by
  rw [Json.ofDict, Json.datum, Toml.datum, Json.datumMembers_eq_map, Toml.datumEntries_eq_map]
  simp only [Dict.map, serviceTables, List.map_map]
  refine congrArg Datum.map (List.map_congr_left fun entry _ => ?_)
  exact congrArg (Prod.mk entry.1) entry.2.datum_toJson

/-- A configuration is shown as it is written. -/
theorem datum_toJson (config : Config) : config.toJson.datum = (Toml.table config.table).datum := by
  have hvalues : config.toJson = .ofMembers _ := rfl
  rw [hvalues, Json.datum_ofMembers, Toml.datum, table, Toml.datumEntries_ofList]
  simp only [List.map_cons, List.map_nil, datum_services, Json.datum_ofMembers,
    Toml.datum_settingsTable]
  rfl

/-- What is shown of a configuration is all of it. -/
theorem ofJson_toJson (config : Config) : ofJson config.toJson = .ok config := by
  rw [ofJson, datum_toJson, Toml.datum]
  exact (ofTable_eq_ok_iff (canonical_table config) (sectioned_table config)).2
    (described_table config)

end Config

end StatQuery
