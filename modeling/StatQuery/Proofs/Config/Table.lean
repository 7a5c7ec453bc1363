import StatQuery.Config.Layers
import StatQuery.Proofs.Config.Reading
import StatQuery.Proofs.Toml.Layering

/-!
# The configuration of a table

Where the sections of a table and its services are tables themselves, a configuration comes of it exactly
if each of its values is the one at its path, or else its default (`ofTable_eq_ok_iff`), and some
configuration does as soon as the values at these paths can be read (`exists_ofTable`).
-/

namespace StatQuery

open Datum

namespace Toml

theorem datumEntries_eq_map (entries : Table) :
    datumEntries entries = entries.map fun entry => (entry.1, entry.2.datum) := by
  induction entries with
  | nil => rw [datumEntries, List.map_nil]
  | cons entry rest ih =>
    obtain ⟨key, value⟩ := entry
    rw [datumEntries, ih, List.map_cons]

theorem datumItems_eq_map (items : List Toml) : datumItems items = items.map datum := by
  induction items with
  | nil => rw [datumItems, List.map_nil]
  | cons item rest ih => rw [datumItems, ih, List.map_cons]

theorem get?_datumEntries (key : String) (entries : Table) :
    Entries.get? key (datumEntries entries) = (Entries.get? key entries).map datum := by
  rw [datumEntries_eq_map, Entries.get?_map]

theorem ascending_datumEntries {entries : Table} (h : Entries.Ascending entries) :
    Entries.Ascending (datumEntries entries) := by
  rw [datumEntries_eq_map]
  exact h.map

/-- What a path of keys leads to, from a table, as a datum. -/
def Table.datum? (entries : Table) (path : List String) : Option Datum :=
  (entries.find? path).map datum

theorem get?_datumEntries_eq (key : String) (entries : Table) :
    Entries.get? key (datumEntries entries) = entries.datum? [key] := by
  rw [get?_datumEntries, Table.datum?, Table.find?, find?_key]

variable {entries : Table}

/-- The members of a table inside another, or none if there is nothing in its place. -/
theorem exists_members (hcanonical : (table entries).Canonical) (path : List String)
    (htable : ∀ value, entries.find? path = some value → value.isTable = true) :
    ∃ members, Entries.Ascending members ∧
      (∀ key, Entries.get? key members = entries.datum? (path ++ [key])) ∧
      (entries.datum? path = none ∧ members = [] ∨ entries.datum? path = some (.map members)) := by
  have hfind : ∀ key, entries.find? (path ++ [key]) = (entries.find? path).bind (Toml.find? [key]) :=
    fun key => find?_append path [key] (table entries)
  simp only [Table.datum?, hfind]
  cases hvalue : entries.find? path with
  | none => exact ⟨[], List.Pairwise.nil, fun _ => rfl, Or.inl ⟨rfl, rfl⟩⟩
  | some value =>
    have hleaf := htable value hvalue
    have hinner := canonical_of_find? hcanonical hvalue
    cases value with
    | table inner =>
      refine ⟨datumEntries inner, ascending_datumEntries hinner.1, fun key => ?_, Or.inr ?_⟩
      · rw [get?_datumEntries, Option.bind_some, find?_key]
      · rw [Option.map_some, datum]
    | _ => cases hleaf

end Toml

namespace Config

open Toml

/-- The sections and the services of a table are tables, as far as they are there. -/
structure Sectioned (table : Toml.Table) : Prop where
  sections : ∀ name ∈ ["bind", "telemetry", "statistics", "services"], ∀ value,
    table.find? [name] = some value → value.isTable = true
  services : ∀ name value, table.find? ["services", name] = some value → value.isTable = true

/-! ### Services -/

variable {table : Toml.Table} {services : Dict ServiceEntry}

/-- A service is what the table in its place tells. -/
theorem ofDatum_eq_ok_iff (hcanonical : (Toml.table table).Canonical) {path : List String}
    (htable : ∀ value, table.find? path = some value → value.isTable = true) {datum : Datum}
    (hdatum : table.datum? path = some datum) {entry : ServiceEntry} :
    ServiceEntry.ofDatum datum = .ok entry ↔
      entry.Described fun field => table.datum? (path ++ [field]) := by
  obtain ⟨members, hascending, hget, hnone | hsome⟩ := exists_members hcanonical path htable
  · rw [hnone.1] at hdatum
    cases hdatum
  · rw [hsome] at hdatum
    cases hdatum
    rw [ServiceEntry.ofDatum_map_eq_ok_iff hascending, funext hget]

/-- The services of a configuration are these. -/
def ServicesRead (all : List (String × Datum)) (services : Dict ServiceEntry) : Prop :=
  match Entries.get? "services" all with
  | none => services = .empty
  | some datum => readServices datum = .ok services

theorem ServicesRead.told (hcanonical : (Toml.table table).Canonical) (hsectioned : Sectioned table)
    (h : ServicesRead (datumEntries table) services) (name : String) :
    (services.get? name).isSome = (table.datum? ["services", name]).isSome ∧
      ∀ entry, services.get? name = some entry →
        entry.Described fun field => table.datum? ["services", name, field] := by
  obtain ⟨members, hascending, hget, hall⟩ :=
    exists_members hcanonical ["services"] (hsectioned.sections "services" (by simp))
  have hname : Entries.get? name members = table.datum? ["services", name] := hget name
  rw [ServicesRead, get?_datumEntries_eq] at h
  rw [← hname]
  rcases hall with ⟨hnone, rfl⟩ | hsome
  · rw [hnone] at h
    subst h
    exact ⟨rfl, fun entry hentry => by cases hentry⟩
  · rw [hsome] at h
    obtain ⟨hdomain, hread⟩ := get?_readServices hascending h name
    refine ⟨hdomain, fun entry hentry => ?_⟩
    obtain ⟨datum, hdatum, hentry⟩ := hread entry hentry
    rw [hname] at hdatum
    exact (ofDatum_eq_ok_iff hcanonical (hsectioned.services name) hdatum).1 hentry

theorem exists_servicesRead (hcanonical : (Toml.table table).Canonical) (hsectioned : Sectioned table)
    (h : ∀ name, (table.datum? ["services", name]).isSome = true →
      ∃ entry : ServiceEntry, entry.Described fun field => table.datum? ["services", name, field]) :
    ∃ services, ServicesRead (datumEntries table) services := by
  obtain ⟨members, hascending, hget, hall⟩ :=
    exists_members hcanonical ["services"] (hsectioned.sections "services" (by simp))
  simp only [ServicesRead, get?_datumEntries_eq]
  rcases hall with ⟨hnone, -⟩ | hsome
  · rw [hnone]
    exact ⟨_, rfl⟩
  · rw [hsome]
    have hmembers : ∀ member ∈ members, ∃ entry, ServiceEntry.ofDatum member.2 = .ok entry := by
      intro member hmem
      have hdatum : table.datum? ["services", member.1] = some member.2 :=
        (hget member.1).symm.trans (Entries.get?_of_mem hascending hmem)
      obtain ⟨entry, hentry⟩ := h member.1 (by rw [hdatum]; rfl)
      exact ⟨entry, (ofDatum_eq_ok_iff hcanonical (hsectioned.services member.1) hdatum).2 hentry⟩
    obtain ⟨entries, hentries⟩ := exists_readEntries hmembers
    refine ⟨.ofList entries, ?_⟩
    dsimp only
    rw [readServices, hentries]
    rfl

/-! ### Whole configurations -/

theorem readSection_eq_ok_iff {name : String} {members : List (String × Datum)}
    (h : table.datum? [name] = none ∧ members = [] ∨ table.datum? [name] = some (.map members))
    (record : Record Config) (config next : Config) :
    readSection record name (datumEntries table) config = .ok next ↔
      record.readMembers members config = .ok next := by
  rw [readSection, get?_datumEntries_eq]
  rcases h with ⟨hnone, rfl⟩ | hsome
  · rw [hnone, Record.readMembers]
  · rw [hsome]
    dsimp only
    rw [Record.read]
    cases record.readMembers members config with
    | ok final => rfl
    | error fault => simp

/-- Reads what remains once the services have been read. -/
def readOthers (all : List (String × Datum)) (services : Dict ServiceEntry) :
    Except Fault Config := do
  let config ← readSection bindRecord "bind" all { default with services := services }
  let config ← readSection statisticsRecord "statistics" all config
  readSection telemetryRecord "telemetry" all config

theorem bind_eq_ok_iff {α β : Type} {x : Except Fault α} {f : α → Except Fault β} {b : β} :
    (x >>= f) = .ok b ↔ ∃ a, x = .ok a ∧ f a = .ok b := by
  cases x <;> simp [bind, Except.bind]

variable {config : Config}

theorem ofSections_eq_ok_iff {all : List (String × Datum)} :
    ofSections all = .ok config ↔
      ∃ services, ServicesRead all services ∧ readOthers all services = .ok config := by
  unfold ofSections ServicesRead
  cases Entries.get? "services" all with
  | none =>
    change readOthers all .empty = .ok config ↔ _
    simp
  | some datum =>
    dsimp only
    cases readServices datum with
    | ok services =>
      change readOthers all services = .ok config ↔ _
      simp
    | error fault =>
      change Except.error _ = Except.ok config ↔ _
      simp

theorem described_of_ofTable (hcanonical : (Toml.table table).Canonical) (hsectioned : Sectioned table)
    (h : ofTable table = .ok config) : config.Described table.datum? := by
  obtain ⟨bind, hbind, hbindGet, hbindAll⟩ :=
    exists_members hcanonical ["bind"] (hsectioned.sections "bind" (by simp))
  obtain ⟨statistics, hstatistics, hstatisticsGet, hstatisticsAll⟩ :=
    exists_members hcanonical ["statistics"] (hsectioned.sections "statistics" (by simp))
  obtain ⟨telemetry, htelemetry, htelemetryGet, htelemetryAll⟩ :=
    exists_members hcanonical ["telemetry"] (hsectioned.sections "telemetry" (by simp))
  obtain ⟨services, hservices, hothers⟩ := ofSections_eq_ok_iff.1 h
  obtain ⟨first, hfirst, hothers⟩ := bind_eq_ok_iff.1 hothers
  obtain ⟨second, hsecond, hlast⟩ := bind_eq_ok_iff.1 hothers
  rw [readSection_eq_ok_iff hbindAll] at hfirst
  rw [readSection_eq_ok_iff hstatisticsAll] at hsecond
  rw [readSection_eq_ok_iff htelemetryAll] at hlast
  have hendpoint : config.statsEndpoint = first.statsEndpoint :=
    (oneText_telemetry.keeps hlast statsEndpoint fun _ _ => rfl).trans
      (statistics_keeps hsecond statsEndpoint (fun _ _ => rfl) fun _ _ => rfl)
  have hlevel : second.logLevel = default.logLevel :=
    (statistics_keeps hsecond logLevel (fun _ _ => rfl) fun _ _ => rfl).trans
      (oneText_bind.keeps hfirst logLevel fun _ _ => rfl)
  have henabled : config.enabled = second.enabled := oneText_telemetry.keeps hlast enabled fun _ _ => rfl
  have hlimit : config.providerTimeoutMs = second.providerTimeoutMs :=
    oneText_telemetry.keeps hlast providerTimeoutMs fun _ _ => rfl
  have hentries : config.services = services :=
    ((oneText_telemetry.keeps hlast Config.services fun _ _ => rfl).trans
      (statistics_keeps hsecond Config.services (fun _ _ => rfl) fun _ _ => rfl)).trans
      (oneText_bind.keeps hfirst Config.services fun _ _ => rfl)
  have hbindTold := oneText_bind.told hbind hfirst statsEndpoint fun _ _ => rfl
  have hstatisticsTold := statistics_told hstatistics hsecond
  have htelemetryTold := oneText_telemetry.told htelemetry hlast logLevel fun _ _ => rfl
  rw [oneText_bind.keeps hfirst enabled fun _ _ => rfl, oneText_bind.keeps hfirst providerTimeoutMs fun _ _ => rfl,
    hstatisticsGet, hstatisticsGet] at hstatisticsTold
  rw [hbindGet] at hbindTold
  rw [hlevel, htelemetryGet] at htelemetryTold
  exact {
    statsEndpoint := hendpoint ▸ hbindTold
    logLevel := htelemetryTold
    enabled := henabled ▸ hstatisticsTold.1
    providerTimeoutMs := hlimit ▸ hstatisticsTold.2
    services := fun name => hentries ▸ (hservices.told hcanonical hsectioned name).1
    entry := fun name => hentries ▸ (hservices.told hcanonical hsectioned name).2 }

/-- Nothing but an illegible value keeps a table from being a configuration. -/
theorem exists_ofTable (hcanonical : (Toml.table table).Canonical) (hsectioned : Sectioned table)
    (h : Legible table.datum?) : ∃ config, ofTable table = .ok config := by
  obtain ⟨bind, hbind, hbindGet, hbindAll⟩ :=
    exists_members hcanonical ["bind"] (hsectioned.sections "bind" (by simp))
  obtain ⟨statistics, hstatistics, hstatisticsGet, hstatisticsAll⟩ :=
    exists_members hcanonical ["statistics"] (hsectioned.sections "statistics" (by simp))
  obtain ⟨telemetry, htelemetry, htelemetryGet, htelemetryAll⟩ :=
    exists_members hcanonical ["telemetry"] (hsectioned.sections "telemetry" (by simp))
  obtain ⟨services, hservices⟩ := exists_servicesRead hcanonical hsectioned h.entry
  obtain ⟨endpoint, hendpoint⟩ := h.statsEndpoint
  obtain ⟨level, hlevel⟩ := h.logLevel
  obtain ⟨enabled, henabled⟩ := h.enabled
  obtain ⟨limit, hlimit⟩ := h.providerTimeoutMs
  obtain ⟨first, hfirst⟩ :=
    oneText_bind.exists_read hbind (hbindGet _ ▸ hendpoint) { default with services := services }
  obtain ⟨second, hsecond⟩ :=
    exists_statistics hstatistics (hstatisticsGet _ ▸ henabled) (hstatisticsGet _ ▸ hlimit) first
  obtain ⟨config, hconfig⟩ := oneText_telemetry.exists_read htelemetry (htelemetryGet _ ▸ hlevel) second
  refine ⟨config, ofSections_eq_ok_iff.2 ⟨services, hservices, ?_⟩⟩
  refine bind_eq_ok_iff.2 ⟨first, (readSection_eq_ok_iff hbindAll _ _ _).2 hfirst, ?_⟩
  refine bind_eq_ok_iff.2 ⟨second, (readSection_eq_ok_iff hstatisticsAll _ _ _).2 hsecond, ?_⟩
  exact (readSection_eq_ok_iff htelemetryAll _ _ _).2 hconfig

theorem ofTable_eq_ok_iff (hcanonical : (Toml.table table).Canonical)
    (hsectioned : Sectioned table) : ofTable table = .ok config ↔ config.Described table.datum? := by
  constructor
  · exact described_of_ofTable hcanonical hsectioned
  · intro hdescribed
    obtain ⟨found, hfound⟩ := exists_ofTable hcanonical hsectioned hdescribed.legible
    have heq := (described_of_ofTable hcanonical hsectioned hfound).unique hdescribed
    rw [← heq]
    exact hfound

end Config

end StatQuery
