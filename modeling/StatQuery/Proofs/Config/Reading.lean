import StatQuery.Config.Reading
import StatQuery.Proofs.Datum

/-!
# What a configuration is told

`Config.Described` says of a configuration that each of its values is the one found at its path, or else
its default, and `Config.Legible` that there is a value to be read at each of these paths. Here the
records of the sections and the services are read from their members; what they come to together is a
matter of the whole table.
-/

namespace StatQuery

open Datum

/-! ### Records -/

/-- Reads the port of a service. -/
def Datum.port (datum : Datum) : Except Mismatch UInt16 := do
  return (← datum.unsigned 16).toUInt16

/-- Reads a limit in milliseconds. -/
def Datum.milliseconds (datum : Datum) : Except Mismatch UInt64 := do
  return (← datum.unsigned 64).toUInt64

namespace ServiceEntry

/-- The values of a service that each name tells. -/
structure Described (found : String → Option Datum) (entry : ServiceEntry) : Prop where
  appName : Told text (found "app_name") "" entry.appName
  description : Told text (found "description") "" entry.description
  instanceName : Told text (found "instance") "" entry.instanceName
  hostsUrl : Told text (found "hosts_url") "" entry.hostsUrl
  controlPort : Told port (found "control_port") 0 entry.controlPort

theorem Described.unique {found : String → Option Datum} {a b : ServiceEntry}
    (ha : a.Described found) (hb : b.Described found) : a = b := by
  cases a
  cases b
  rw [ServiceEntry.mk.injEq]
  exact ⟨ha.appName.unique hb.appName, ha.description.unique hb.description,
    ha.instanceName.unique hb.instanceName, ha.hostsUrl.unique hb.hostsUrl,
    ha.controlPort.unique hb.controlPort⟩

/-- What reading one of the fields does. -/
theorem read_cases {field : Datum.Field ServiceEntry} (h : field ∈ record.fields) {datum : Datum}
    {draft next : ServiceEntry} (hread : field.read datum draft = .ok next) :
    (field.name = "app_name" ∧ ∃ s, datum.text = .ok s ∧ next = { draft with appName := s }) ∨
      (field.name = "description" ∧
        ∃ s, datum.text = .ok s ∧ next = { draft with description := s }) ∨
      (field.name = "instance" ∧ ∃ s, datum.text = .ok s ∧ next = { draft with instanceName := s }) ∨
      (field.name = "hosts_url" ∧ ∃ s, datum.text = .ok s ∧ next = { draft with hostsUrl := s }) ∨
      (field.name = "control_port" ∧
        ∃ n, datum.port = .ok n ∧ next = { draft with controlPort := n }) := by
  simp only [record, List.mem_cons, List.not_mem_nil, or_false] at h
  rcases h with rfl | rfl | rfl | rfl | rfl
  · exact Or.inl ⟨rfl, exists_of_read_eq_ok hread⟩
  · exact Or.inr (Or.inl ⟨rfl, exists_of_read_eq_ok hread⟩)
  · exact Or.inr (Or.inr (Or.inl ⟨rfl, exists_of_read_eq_ok hread⟩))
  · exact Or.inr (Or.inr (Or.inr (Or.inl ⟨rfl, exists_of_read_eq_ok hread⟩)))
  · obtain ⟨n, hn, rfl⟩ := exists_of_read_eq_ok hread
    refine Or.inr (Or.inr (Or.inr (Or.inr ⟨rfl, n.toUInt16, ?_, rfl⟩)))
    rw [port, hn]
    rfl

/-- A field whose value can be read is read over any draft. -/
theorem exists_read {found : String → Option Datum} {entry : ServiceEntry} (h : entry.Described found)
    {field : Datum.Field ServiceEntry} (hmem : field ∈ record.fields) {datum : Datum}
    (hfound : found field.name = some datum) (draft : ServiceEntry) :
    ∃ next, field.read datum draft = .ok next := by
  simp only [record, List.mem_cons, List.not_mem_nil, or_false] at hmem
  rcases hmem with rfl | rfl | rfl | rfl | rfl
  · exact exists_read_eq_ok (h.appName.exists_ok hfound) _
  · exact exists_read_eq_ok (h.description.exists_ok hfound) _
  · exact exists_read_eq_ok (h.instanceName.exists_ok hfound) _
  · exact exists_read_eq_ok (h.hostsUrl.exists_ok hfound) _
  · obtain ⟨n, hn, -⟩ := exists_of_read_eq_ok (h.controlPort.exists_ok hfound)
    exact exists_read_eq_ok hn _

variable {members : List (String × Datum)}

theorem described_of_readMembers (hascending : Entries.Ascending members) {entry : ServiceEntry}
    (h : record.readMembers members .blank = .ok entry) :
    entry.Described fun name => Entries.get? name members := by
  have hdistinct := hascending.nodup_keys
  have htold : ∀ {α : Type} (name : String) (decode : Datum → Except Mismatch α)
      (part : ServiceEntry → α), Tracks record name decode part →
      Told decode (Entries.get? name members) (part .blank) (part entry) :=
    fun _ _ _ htracks => htracks.told hdistinct h
  refine ⟨htold _ text appName ⟨by simp [record], ?_⟩,
    htold _ text description ⟨by simp [record], ?_⟩,
    htold _ text instanceName ⟨by simp [record], ?_⟩,
    htold _ text hostsUrl ⟨by simp [record], ?_⟩,
    htold _ port controlPort ⟨by simp [record], ?_⟩⟩
  all_goals
    intro field hmem datum draft next hread
    rcases read_cases hmem hread with ⟨hname, value, hvalue, rfl⟩ | ⟨hname, value, hvalue, rfl⟩ |
      ⟨hname, value, hvalue, rfl⟩ | ⟨hname, value, hvalue, rfl⟩ | ⟨hname, value, hvalue, rfl⟩ <;>
      simp [hname, hvalue]

/-- A description is read from a map exactly if the map tells it. -/
theorem ofDatum_map_eq_ok_iff (hascending : Entries.Ascending members) {entry : ServiceEntry} :
    ofDatum (.map members) = .ok entry ↔ entry.Described fun name => Entries.get? name members := by
  constructor
  · exact described_of_readMembers hascending
  · intro hdescribed
    obtain ⟨final, hfinal⟩ := exists_readMembers_of_get? hascending
      (fun field hmem datum hget => exists_read hdescribed hmem hget) .blank
    have heq := (described_of_readMembers hascending hfinal).unique hdescribed
    rw [← heq]
    exact hfinal

end ServiceEntry

namespace Config

/-- The values of a configuration that each path tells. -/
structure Described (found : List String → Option Datum) (config : Config) : Prop where
  statsEndpoint : Told text (found ["bind", "stats_endpoint"]) default.statsEndpoint config.statsEndpoint
  logLevel : Told text (found ["telemetry", "log_level"]) default.logLevel config.logLevel
  enabled : Told flag (found ["statistics", "enabled"]) default.enabled config.enabled
  providerTimeoutMs : Told milliseconds (found ["statistics", "provider_timeout_ms"])
    default.providerTimeoutMs config.providerTimeoutMs
  services : ∀ name, (config.services.get? name).isSome = (found ["services", name]).isSome
  entry : ∀ name entry, config.services.get? name = some entry →
    entry.Described fun field => found ["services", name, field]

/-- Every value that a configuration takes from some path can be read. -/
structure Legible (found : List String → Option Datum) : Prop where
  statsEndpoint : ∃ s, Told text (found ["bind", "stats_endpoint"]) default.statsEndpoint s
  logLevel : ∃ s, Told text (found ["telemetry", "log_level"]) default.logLevel s
  enabled : ∃ b, Told flag (found ["statistics", "enabled"]) default.enabled b
  providerTimeoutMs : ∃ n, Told milliseconds (found ["statistics", "provider_timeout_ms"])
    default.providerTimeoutMs n
  entry : ∀ name, (found ["services", name]).isSome = true →
    ∃ entry : ServiceEntry, entry.Described fun field => found ["services", name, field]

theorem Described.legible {found : List String → Option Datum} {config : Config}
    (h : config.Described found) : Legible found where
  statsEndpoint := ⟨_, h.statsEndpoint⟩
  logLevel := ⟨_, h.logLevel⟩
  enabled := ⟨_, h.enabled⟩
  providerTimeoutMs := ⟨_, h.providerTimeoutMs⟩
  entry name hsome := by
    obtain ⟨entry, hentry⟩ := Option.isSome_iff_exists.1 ((h.services name).trans hsome)
    exact ⟨entry, h.entry name entry hentry⟩

theorem Described.unique {found : List String → Option Datum} {a b : Config}
    (ha : a.Described found) (hb : b.Described found) : a = b := by
  have hservices : a.services = b.services := by
    refine Dict.ext_get? fun name => ?_
    have hsome := (ha.services name).trans (hb.services name).symm
    cases hleft : a.services.get? name with
    | none =>
      rw [hleft] at hsome
      exact (Option.isNone_iff_eq_none.1 (Option.isSome_eq_false_iff.1 hsome.symm)).symm
    | some entry =>
      rw [hleft] at hsome
      obtain ⟨other, hright⟩ := Option.isSome_iff_exists.1 hsome.symm
      rw [hright, (ha.entry name entry hleft).unique (hb.entry name other hright)]
  cases a
  cases b
  rw [Config.mk.injEq]
  exact ⟨ha.statsEndpoint.unique hb.statsEndpoint, ha.logLevel.unique hb.logLevel,
    ha.enabled.unique hb.enabled, ha.providerTimeoutMs.unique hb.providerTimeoutMs, hservices⟩

/-! ### Sections -/

/-- The record has one field, a text of this name. -/
def OneText (record : Record Config) (name : String) (put : Config → String → Config) : Prop :=
  record.fields = [⟨name, fun datum config => do return put config (← datum.text)⟩]

theorem oneText_bind :
    OneText bindRecord "stats_endpoint" fun config s => { config with statsEndpoint := s } := rfl

theorem oneText_telemetry :
    OneText telemetryRecord "log_level" fun config s => { config with logLevel := s } := rfl

variable {α : Type} {members : List (String × Datum)} {config next : Config}
variable {record : Record Config} {name : String} {put : Config → String → Config}

theorem OneText.cases (h : OneText record name put) {field : Datum.Field Config}
    (hmem : field ∈ record.fields) {datum : Datum} {draft next : Config}
    (hread : field.read datum draft = .ok next) :
    field.name = name ∧ ∃ s, datum.text = .ok s ∧ next = put draft s := by
  rw [OneText] at h
  rw [h] at hmem
  obtain rfl := List.mem_singleton.1 hmem
  exact ⟨rfl, exists_of_read_eq_ok hread⟩

theorem OneText.told (h : OneText record name put) (hascending : Entries.Ascending members)
    (hread : record.readMembers members config = .ok next) (part : Config → String)
    (hpart : ∀ draft s, part (put draft s) = s) :
    Told text (Entries.get? name members) (part config) (part next) := by
  have htracks : Tracks record name text part := by
    constructor
    · rw [OneText] at h
      rw [h]
      exact ⟨_, List.mem_singleton_self _, rfl⟩
    · intro field hmem datum draft next hfield
      obtain ⟨hname, s, hs, rfl⟩ := h.cases hmem hfield
      rw [if_pos hname, hs, hpart]
  exact htracks.told hascending.nodup_keys hread

theorem OneText.keeps (h : OneText record name put)
    (hread : record.readMembers members config = .ok next)
    (part : Config → α) (hpart : ∀ draft s, part (put draft s) = part draft) :
    part next = part config := by
  refine readMembers_keeps part (fun field hmem datum draft next hfield => ?_) hread
  obtain ⟨-, s, -, rfl⟩ := h.cases hmem hfield
  exact hpart draft s

theorem OneText.exists_read (h : OneText record name put) (hascending : Entries.Ascending members)
    {before after : String}
    (htold : Told text (Entries.get? name members) before after) (config : Config) :
    ∃ next, record.readMembers members config = .ok next := by
  refine exists_readMembers_of_get? hascending (fun field hmem datum hget draft => ?_) config
  rw [OneText] at h
  rw [h] at hmem
  obtain rfl := List.mem_singleton.1 hmem
  exact exists_read_eq_ok (htold.exists_ok hget) _

theorem statistics_cases {field : Datum.Field Config} (h : field ∈ statisticsRecord.fields) {datum : Datum}
    {draft next : Config} (hread : field.read datum draft = .ok next) :
    (field.name = "enabled" ∧ ∃ b, datum.flag = .ok b ∧ next = { draft with enabled := b }) ∨
      (field.name = "provider_timeout_ms" ∧
        ∃ n, datum.milliseconds = .ok n ∧ next = { draft with providerTimeoutMs := n }) := by
  simp only [statisticsRecord, List.mem_cons, List.not_mem_nil, or_false] at h
  rcases h with rfl | rfl
  · exact Or.inl ⟨rfl, exists_of_read_eq_ok hread⟩
  · obtain ⟨n, hn, rfl⟩ := exists_of_read_eq_ok hread
    refine Or.inr ⟨rfl, n.toUInt64, ?_, rfl⟩
    rw [milliseconds, hn]
    rfl

theorem statistics_told (hascending : Entries.Ascending members)
    (h : statisticsRecord.readMembers members config = .ok next) :
    Told flag (Entries.get? "enabled" members) config.enabled next.enabled ∧
      Told milliseconds (Entries.get? "provider_timeout_ms" members) config.providerTimeoutMs
        next.providerTimeoutMs := by
  have hflag : Tracks statisticsRecord "enabled" flag enabled := by
    refine ⟨by simp [statisticsRecord], fun field hmem datum draft next hread => ?_⟩
    rcases statistics_cases hmem hread with ⟨hname, b, hb, rfl⟩ | ⟨hname, n, hn, rfl⟩
    · simp [hname, hb]
    · simp [hname]
  have hlimit : Tracks statisticsRecord "provider_timeout_ms" milliseconds providerTimeoutMs := by
    refine ⟨by simp [statisticsRecord], fun field hmem datum draft next hread => ?_⟩
    rcases statistics_cases hmem hread with ⟨hname, b, hb, rfl⟩ | ⟨hname, n, hn, rfl⟩
    · simp [hname]
    · simp [hname, hn]
  exact ⟨hflag.told hascending.nodup_keys h, hlimit.told hascending.nodup_keys h⟩

theorem statistics_keeps (h : statisticsRecord.readMembers members config = .ok next)
    (part : Config → α) (henabled : ∀ (draft : Config) b, part { draft with enabled := b } = part draft)
    (hlimit : ∀ (draft : Config) n, part { draft with providerTimeoutMs := n } = part draft) :
    part next = part config := by
  refine readMembers_keeps part (fun field hmem datum draft next hread => ?_) h
  rcases statistics_cases hmem hread with ⟨-, b, -, rfl⟩ | ⟨-, n, -, rfl⟩
  · exact henabled draft b
  · exact hlimit draft n

theorem exists_statistics (hascending : Entries.Ascending members) {before after : Bool}
    (hflag : Told flag (Entries.get? "enabled" members) before after) {first last : UInt64}
    (hlimit : Told milliseconds (Entries.get? "provider_timeout_ms" members) first last)
    (config : Config) : ∃ next, statisticsRecord.readMembers members config = .ok next := by
  refine exists_readMembers_of_get? hascending (fun field hmem datum hget draft => ?_) config
  simp only [statisticsRecord, List.mem_cons, List.not_mem_nil, or_false] at hmem
  rcases hmem with rfl | rfl
  · exact exists_read_eq_ok (hflag.exists_ok hget) _
  · obtain ⟨n, hn, -⟩ := exists_of_read_eq_ok (hlimit.exists_ok hget)
    exact exists_read_eq_ok hn _

/-! ### Services -/

variable {entries : List (String × ServiceEntry)}

theorem readEntries_cons {name : String} {datum : Datum}
    (h : readEntries ((name, datum) :: members) = .ok entries) :
    ∃ entry rest, ServiceEntry.ofDatum datum = .ok entry ∧ readEntries members = .ok rest ∧
      entries = (name, entry) :: rest := by
  rw [readEntries] at h
  split at h
  · cases h
  · next entry hentry =>
    cases hrest : readEntries members with
    | error fault =>
      rw [hrest] at h
      cases h
    | ok rest =>
      rw [hrest] at h
      cases h
      exact ⟨entry, rest, hentry, rfl, rfl⟩

theorem map_fst_readEntries (h : readEntries members = .ok entries) :
    entries.map (·.1) = members.map (·.1) := by
  induction members generalizing entries with
  | nil =>
    cases h
    rfl
  | cons member members ih =>
    obtain ⟨entry, rest, -, hrest, rfl⟩ := readEntries_cons h
    rw [List.map_cons, List.map_cons, ih hrest]

/-- Each service is read from the member of its name. -/
theorem ofDatum_of_readEntries (h : readEntries members = .ok entries) {name : String}
    {entry : ServiceEntry} (hget : Entries.get? name entries = some entry) :
    ∃ datum, Entries.get? name members = some datum ∧ ServiceEntry.ofDatum datum = .ok entry := by
  induction members generalizing entries with
  | nil =>
    cases h
    cases hget
  | cons member members ih =>
    obtain ⟨key, datum⟩ := member
    obtain ⟨first, rest, hfirst, hrest, rfl⟩ := readEntries_cons h
    rw [Entries.get?_cons] at hget ⊢
    split at hget
    · next hkey =>
      cases hget
      exact ⟨datum, if_pos hkey, hfirst⟩
    · next hkey =>
      rw [if_neg hkey]
      exact ih hrest hget

theorem exists_readEntries
    (h : ∀ member ∈ members, ∃ entry, ServiceEntry.ofDatum member.2 = .ok entry) :
    ∃ entries, readEntries members = .ok entries := by
  induction members with
  | nil => exact ⟨[], rfl⟩
  | cons member members ih =>
    obtain ⟨⟨entry, hentry⟩, hothers⟩ := List.forall_mem_cons.1 h
    obtain ⟨entries, hentries⟩ := ih hothers
    refine ⟨(member.1, entry) :: entries, ?_⟩
    rw [readEntries, hentry, hentries]
    rfl

theorem get?_readServices (hascending : Entries.Ascending members) {services : Dict ServiceEntry}
    (h : readServices (.map members) = .ok services) (name : String) :
    (services.get? name).isSome = (Entries.get? name members).isSome ∧
      ∀ entry, services.get? name = some entry →
        ∃ datum, Entries.get? name members = some datum ∧ ServiceEntry.ofDatum datum = .ok entry := by
  rw [readServices] at h
  cases hentries : readEntries members with
  | error fault =>
    rw [hentries] at h
    cases h
  | ok entries =>
    rw [hentries] at h
    cases h
    have hkeys := map_fst_readEntries hentries
    have hlist : Entries.Ascending entries := by
      rw [Entries.ascending_iff_pairwise_keys, hkeys]
      exact Entries.ascending_iff_pairwise_keys.1 hascending
    have hget : (Dict.ofList entries).get? name = Entries.get? name entries :=
      congrArg (Entries.get? name) (Entries.ofList_of_ascending hlist)
    rw [hget]
    refine ⟨?_, fun entry hentry => ofDatum_of_readEntries hentries hentry⟩
    rw [Bool.eq_iff_iff, ← Entries.mem_map_fst_iff, ← Entries.mem_map_fst_iff, hkeys]

end Config

end StatQuery
