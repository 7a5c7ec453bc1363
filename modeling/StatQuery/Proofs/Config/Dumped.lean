import Mathlib
import StatQuery.Proofs.Config.Files
import StatQuery.Proofs.Config.Layers
import StatQuery.Proofs.Config.RoundTrip
import StatQuery.Proofs.Toml.Range

/-!
# A written configuration as the topmost layer

Whatever files a configuration was read from, it has a text, and with a file of that text on top they
yield the same configuration (`load_dumped`). The numbers of documents are not too large for a text
(`limit_le_maxNumber`). The text mentions every value at its path, where nothing below shows through, and
below there is no service that it does not mention (`isSome_services`), whether a section or a service was
written as a table or as an array there.
-/

namespace StatQuery

open Datum Toml Toml.Writer

namespace Config

variable {all : List (String × Datum)} {services : Dict ServiceEntry} {config : Config}

/-! ### What is read from a table -/

theorem readSection_preserves {P : Config → Prop} {record : Record Config} {name : String}
    {before after : Config}
    (hfields : ∀ datum, Entries.get? name all = some datum → ∀ field ∈ record.fields,
      ∀ part ∈ datum.parts, ∀ draft next, field.read part draft = .ok next → P draft → P next)
    (h : readSection record name all before = .ok after) (hbefore : P before) : P after := by
  rw [readSection] at h
  split at h
  · cases h
    exact hbefore
  · next datum hdatum =>
    split at h
    · next final hread =>
      cases h
      exact read_preserves (hfields datum hdatum) hread hbefore
    · cases h

/-- What every value keeps that is put into a configuration, the configuration has in the end. -/
theorem readOthers_preserves {P : Config → Prop}
    (hendpoint : ∀ draft s, P draft → P { draft with statsEndpoint := s })
    (hlevel : ∀ draft s, P draft → P { draft with logLevel := s })
    (henabled : ∀ draft b, P draft → P { draft with enabled := b })
    (hlimit : ∀ datum, Entries.get? "statistics" all = some datum → ∀ part ∈ datum.parts, ∀ draft n,
      milliseconds part = .ok n → P draft → P { draft with providerTimeoutMs := n })
    (h : readOthers all services = .ok config) (hdefault : P { default with services := services }) :
    P config := by
  obtain ⟨first, hfirst, hothers⟩ := bind_eq_ok_iff.1 h
  obtain ⟨second, hsecond, hlast⟩ := bind_eq_ok_iff.1 hothers
  have hbound : P first := by
    refine readSection_preserves (fun _ _ field hmem part _ draft next hread hdraft => ?_) hfirst hdefault
    obtain ⟨-, s, -, rfl⟩ := oneText_bind.cases hmem hread
    exact hendpoint draft s hdraft
  have hanswering : P second := by
    refine readSection_preserves (fun datum hdatum field hmem part hpart draft next hread hdraft => ?_)
      hsecond hbound
    rcases statistics_cases hmem hread with ⟨-, b, -, rfl⟩ | ⟨-, n, hn, rfl⟩
    · exact henabled draft b hdraft
    · exact hlimit datum hdatum part hpart draft n hn hdraft
  refine readSection_preserves (fun _ _ field hmem part _ draft next hread hdraft => ?_) hlast hanswering
  obtain ⟨-, s, -, rfl⟩ := oneText_telemetry.cases hmem hread
  exact hlevel draft s hdraft

theorem services_of_readOthers (h : readOthers all services = .ok config) :
    config.services = services :=
  readOthers_preserves (P := fun draft => draft.services = services) (fun _ _ hdraft => hdraft)
    (fun _ _ hdraft => hdraft) (fun _ _ hdraft => hdraft) (fun _ _ _ _ _ _ _ hdraft => hdraft) h rfl

/-- A limit other than none is that of a part of its section. -/
theorem limit_of_readOthers (h : readOthers all services = .ok config) :
    config.providerTimeoutMs = 0 ∨ ∃ datum, Entries.get? "statistics" all = some datum ∧
      ∃ part ∈ datum.parts, milliseconds part = .ok config.providerTimeoutMs := by
  refine readOthers_preserves (P := fun draft => draft.providerTimeoutMs = 0 ∨
    ∃ datum, Entries.get? "statistics" all = some datum ∧
      ∃ part ∈ datum.parts, milliseconds part = .ok draft.providerTimeoutMs)
    (fun _ _ hdraft => hdraft) (fun _ _ hdraft => hdraft) (fun _ _ hdraft => hdraft) ?_ h (Or.inl rfl)
  intro datum hdatum part hpart _ n hn _
  exact Or.inr ⟨datum, hdatum, part, hpart, hn⟩

/-! ### Numbers that can be written -/

/-- A part of a value as a datum is a value as a datum, with each property that is inherited. -/
theorem exists_of_mem_parts {P : Toml → Prop} (hP : Inherited P) {value : Toml} (hvalue : P value)
    {part : Datum} (h : part ∈ value.datum.parts) : ∃ inner, P inner ∧ part = inner.datum := by
  cases value with
  | array items =>
    rw [datum, datumItems_eq_map] at h
    obtain ⟨item, hmem, rfl⟩ := List.mem_map.1 h
    exact ⟨item, (hP.array_iff items).1 hvalue item hmem, rfl⟩
  | table entries =>
    rw [datum, datumEntries_eq_map, parts, List.map_map] at h
    obtain ⟨entry, hmem, rfl⟩ := List.mem_map.1 h
    exact ⟨entry.2, hP.of_mem hvalue hmem, rfl⟩
  | _ => cases h

theorem toNat_milliseconds_le {value : Toml} (hvalue : value.InRange) {n : UInt64}
    (h : milliseconds value.datum = .ok n) : n.toNat ≤ maxNumber := by
  cases value with
  | integer m =>
    obtain ⟨k, hk, rfl⟩ := exists_of_read_eq_ok h
    rw [datum, unsigned] at hk
    split at hk
    · cases hk
      have hlow : m.toNat < twoTo 63 := by
        have hpos := twoTo_pos 63
        have hhigh : m < twoTo 63 := hvalue.2
        omega
      have hmod : m.toNat.toUInt64.toNat ≤ m.toNat := by
        rw [Nat.toUInt64, UInt64.toNat_ofNat']
        exact Nat.mod_le _ _
      exact Nat.le_sub_one_of_lt (Nat.lt_of_le_of_lt hmod hlow)
    · cases hk
  | _ => cases h

variable {table : Toml.Table}

/-- The limit of a configuration that was read fits a text. -/
theorem limit_le_maxNumber (hrange : (Toml.table table).InRange) (h : ofTable table = .ok config) :
    config.providerTimeoutMs.toNat ≤ maxNumber := by
  obtain ⟨services, -, hothers⟩ := ofSections_eq_ok_iff.1 h
  rcases limit_of_readOthers hothers with hzero | ⟨datum, hdatum, part, hpart, hlimit⟩
  · rw [hzero]
    exact Nat.zero_le _
  · rw [get?_datumEntries] at hdatum
    obtain ⟨value, hvalue, rfl⟩ := Option.map_eq_some_iff.1 hdatum
    obtain ⟨inner, hinner, rfl⟩ :=
      exists_of_mem_parts inherited_inRange (inherited_inRange.get? hrange hvalue) hpart
    exact toNat_milliseconds_le hinner hlimit

/-! ### Services below -/

/-- A configuration has the services of its table. -/
theorem isSome_services (hcanonical : (Toml.table table).Canonical) (h : ofTable table = .ok config)
    (name : String) :
    (config.services.get? name).isSome = (table.find? ["services", name]).isSome := by
  obtain ⟨services, hservices, hothers⟩ := ofSections_eq_ok_iff.1 h
  rw [services_of_readOthers hothers, Table.find?, find?_cons_table]
  rw [ServicesRead, get?_datumEntries] at hservices
  cases hget : Entries.get? "services" table with
  | none =>
    rw [hget] at hservices
    subst hservices
    rfl
  | some value =>
    rw [hget, Option.map_some] at hservices
    cases value with
    | table inner =>
      have hinner := canonical_of_get? hcanonical.2 hget
      rw [datum] at hservices
      rw [(get?_readServices (ascending_datumEntries hinner.1) hservices name).1,
        get?_datumEntries, Option.isSome_map, Option.bind_some, find?_key]
    | _ => cases hservices

/-! ### The text on top -/

/-- Where an upper layer tells a value, nothing shows through. -/
theorem told_merge {α : Type} {decode : Datum → Except Mismatch α} (hrejects : Rejects decode)
    {overlay : Toml.Table} (hoverlay : (Toml.table overlay).Canonical) {path : List String}
    {before after : α} (h : Told decode (overlay.datum? path) before after)
    (hsome : (overlay.datum? path).isSome = true) (base : Toml.Table) :
    Told decode ((merge base overlay).datum? path) before after := by
  rw [Table.datum?, Option.isSome_map] at hsome
  obtain ⟨value, hvalue⟩ := Option.isSome_iff_exists.1 hsome
  have hleaf := isTable_of_told hrejects h hvalue
  rw [Table.datum?, find?_merge_of_some hoverlay hvalue, laidOver_of_not_table hleaf]
  rwa [Table.datum?, hvalue] at h

/-- The text mentions the values of the sections. -/
theorem isSome_section (config : Config) : ∀ path ∈ [["bind", "stats_endpoint"],
    ["telemetry", "log_level"], ["statistics", "enabled"], ["statistics", "provider_timeout_ms"]],
    (config.table.datum? path).isSome = true := by
  simp only [List.forall_mem_cons, List.not_mem_nil, false_implies, implies_true, and_true]
  refine ⟨?_, ?_, ?_, ?_⟩
  · rw [datum?_section (get?_table config "bind")]
    rfl
  · rw [datum?_section (get?_table config "telemetry")]
    rfl
  · rw [datum?_section (get?_table config "statistics")]
    rfl
  · rw [datum?_section (get?_table config "statistics")]
    rfl

/-- The text mentions the values of each service. -/
theorem isSome_field {config : Config} {name : String} {entry : ServiceEntry}
    (h : config.services.get? name = some entry) :
    ∀ field ∈ ["app_name", "description", "instance", "hosts_url", "control_port"],
      (config.table.datum? ["services", name, field]).isSome = true := by
  intro field hfield
  rw [Table.datum?, find?_services, h, Option.bind_some, Table.find?, find?_key, entryTable,
    get?_settingsTable]
  simp only [List.mem_cons, List.not_mem_nil, or_false] at hfield
  rcases hfield with rfl | rfl | rfl | rfl | rfl <;> rfl

variable {base : Toml.Table}

/-- With the text on top there are the services that it mentions, and no others. -/
theorem find?_service_merge (hbase : (Toml.table base).Canonical) (h : ofTable base = .ok config)
    (name : String) : (merge base config.table).find? ["services", name] =
      (config.services.get? name).map fun entry =>
        laidOver (base.find? ["services", name]) (.table (entryTable entry)) := by
  have hoverlay := find?_services config name []
  cases hentry : config.services.get? name with
  | some entry =>
    rw [hentry] at hoverlay
    exact find?_merge_of_some (canonical_table config) hoverlay base
  | none =>
    have hcuts : ¬ (Toml.table config.table).Cuts ["services", name] :=
      not_cuts_concat (not_cuts_key config.table "services")
        ((sectioned_table config).sections "services" (by simp)) name
    have hhides : ¬ Hides config.table ["services", name] := by
      rintro (⟨value, hvalue⟩ | hcut)
      · rw [hoverlay, hentry] at hvalue
        cases hvalue
      · exact hcuts hcut
    have hbelow := isSome_services hbase h name
    rw [hentry] at hbelow
    rw [find?_merge_of_not_hides (canonical_table config) hhides]
    exact Option.isNone_iff_eq_none.1 (Option.isSome_eq_false_iff.1 hbelow.symm)

theorem sectioned_merge (hbase : (Toml.table base).Canonical) (h : ofTable base = .ok config) :
    Sectioned (merge base config.table) where
  sections name hname value hvalue := by
    have hsome : ∃ found, config.table.find? [name] = some found := by
      simp only [Table.find?, find?_key, get?_table]
      simp only [List.mem_cons, List.not_mem_nil, or_false] at hname
      rcases hname with rfl | rfl | rfl | rfl <;> exact ⟨_, rfl⟩
    obtain ⟨found, hfound⟩ := hsome
    rw [find?_merge_of_some (canonical_table config) hfound] at hvalue
    cases hvalue
    rw [isTable_laidOver]
    exact isTable_of_find?_key hfound
  services name value hvalue := by
    rw [find?_service_merge hbase h] at hvalue
    obtain ⟨entry, -, rfl⟩ := Option.map_eq_some_iff.1 hvalue
    exact isTable_laidOver _ _

theorem described_merge (hbase : (Toml.table base).Canonical) (h : ofTable base = .ok config) :
    config.Described (merge base config.table).datum? := by
  have hcanonical := canonical_table config
  have hdescribed := described_table config
  have hsome := isSome_section config
  constructor
  · exact told_merge rejects_text hcanonical hdescribed.statsEndpoint (hsome _ (by simp)) base
  · exact told_merge rejects_text hcanonical hdescribed.logLevel (hsome _ (by simp)) base
  · exact told_merge rejects_flag hcanonical hdescribed.enabled (hsome _ (by simp)) base
  · exact told_merge rejects_milliseconds hcanonical hdescribed.providerTimeoutMs (hsome _ (by simp)) base
  · intro name
    rw [Table.datum?, find?_service_merge hbase h, Option.isSome_map, Option.isSome_map]
  · intro name entry hentry
    have htold := hdescribed.entry name entry hentry
    have hfield := isSome_field hentry
    constructor
    · exact told_merge rejects_text hcanonical htold.appName (hfield _ (by simp)) base
    · exact told_merge rejects_text hcanonical htold.description (hfield _ (by simp)) base
    · exact told_merge rejects_text hcanonical htold.instanceName (hfield _ (by simp)) base
    · exact told_merge rejects_text hcanonical htold.hostsUrl (hfield _ (by simp)) base
    · exact told_merge rejects_port hcanonical htold.controlPort (hfield _ (by simp)) base

/-- A configuration is that of its table with its own text on top. -/
theorem ofTable_merge_table (hbase : (Toml.table base).Canonical) (h : ofTable base = .ok config) :
    ofTable (merge base config.table) = .ok config :=
  (ofTable_eq_ok_iff (canonical_merge _ _ hbase (canonical_table config)) (sectioned_merge hbase h)).2
    (described_merge hbase h)

/-! ### Files -/

/-- The files of a configuration with its text on top yield the configuration again. -/
theorem load_dumped {files : List File} (h : load files = .ok config) :
    ∃ text, config.write = .ok text ∧
      ∀ path, load (files ++ [⟨path, .bytes (Utf8.encode text)⟩]) = .ok config := by
  obtain ⟨base, hmerge, hconfig⟩ := load_eq_ok_iff.1 h
  have hbase := inherited_mergeFiles inherited_canonical canonical_empty hmerge
  have hrange := inherited_mergeFiles inherited_inRange inherited_inRange.empty hmerge
  have hlimit := limit_le_maxNumber hrange hconfig
  obtain ⟨text, htext⟩ : ∃ text, config.text? = some text := ⟨_, if_pos hlimit⟩
  refine ⟨text, by rw [write, htext], fun path => ?_⟩
  have htable := table_of_parse? (parse?_of_text? htext) path
  refine load_eq_ok_iff.2 ⟨merge base config.table, ?_, ofTable_merge_table hbase hconfig⟩
  rw [mergeFiles_append, hmerge]
  change mergeFiles base [_] = _
  rw [mergeFiles, htable]
  rfl

/-- Below the text, a section and a service are arrays, and the array of the service took the place of a
table with a name that is not known. -/
theorem load_dumped_arrays :
    let files : List File := [
      ⟨"lower.toml", .bytes (Utf8.encode "statistics = [false]\n[services.a]\nweight = true\n")⟩,
      ⟨"upper.toml", .bytes (Utf8.encode "[services]\na = ['video']\n")⟩]
    let config : Config := { default with
      enabled := false
      services := .ofList [("a", { ServiceEntry.blank with appName := "video" })] }
    load files = .ok config ∧ ∃ text, config.write = .ok text ∧
      load (files ++ [⟨"dump.toml", .bytes (Utf8.encode text)⟩]) = .ok config := by
  intro files config
  have hlower : parse? "statistics = [false]\n[services.a]\nweight = true\n" =
      some [("services", .table [("a", .table [("weight", .boolean true)])]),
        ("statistics", .array [.boolean false])] := by
    cbv
  have hupper : parse? "[services]\na = ['video']\n" =
      some [("services", .table [("a", .array [.string "video"])])] := by
    cbv
  have hmerge : mergeFiles [] files = .ok [("services", .table [("a", .array [.string "video"])]),
      ("statistics", .array [.boolean false])] := by
    rw [mergeFiles, table_of_parse? hlower]
    dsimp only
    rw [mergeFiles, table_of_parse? hupper]
    rfl
  have hfiles : load files = .ok config := load_eq_ok_iff.2 ⟨_, hmerge, rfl⟩
  obtain ⟨text, htext, hdumped⟩ := load_dumped hfiles
  exact ⟨hfiles, text, htext, hdumped "dump.toml"⟩

end Config

end StatQuery
