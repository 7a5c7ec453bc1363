import StatQuery.Proofs.Config.Layers

/-!
# Which tables are configurations

Whether a record can be read from a value depends on the value only, not on what the record was before
(`Record.Plain.exists_read_iff`), so a table is a configuration exactly if each of its sections and services
can be read for itself (`exists_ofTable_iff`). Sections and services may be arrays here. Laying one such
table over another keeps all of that: a known name that both mention leads to a value above, which then
counts as it stands (`acceptable_merge`).
-/

namespace StatQuery

open Datum Toml

namespace Datum

variable {σ α : Type}

/-! ### Records -/

/-- Whether the field can be read does not depend on the draft, and it cannot be read from a map. -/
structure Field.Plain (field : Field σ) : Prop where
  steady : ∀ datum draft next, field.read datum draft = .ok next →
    ∀ other, ∃ final, field.read datum other = .ok final
  rejects : ∀ members draft next, field.read (.map members) draft ≠ .ok next

/-- Every field of the record is plain. -/
def Record.Plain (record : Record σ) : Prop := ∀ field ∈ record.fields, field.Plain

/-- The field can be read from the datum. -/
def Field.Reads (field : Field σ) (datum : Datum) : Prop :=
  ∃ draft next, field.read datum draft = .ok next

/-- The record can be read from the datum. -/
def Record.Reads (record : Record σ) (datum : Datum) : Prop :=
  ∃ draft next, record.read draft datum = .ok next

theorem plain_of_decode {decode : Datum → Except Mismatch α} (hrejects : Config.Rejects decode)
    (name : String) (put : σ → α → σ) :
    Field.Plain ⟨name, fun datum draft => do return put draft (← decode datum)⟩ where
  steady datum draft next hread other := by
    obtain ⟨value, hvalue, -⟩ := exists_of_read_eq_ok hread
    exact exists_read_eq_ok hvalue _
  rejects members draft next hread := by
    obtain ⟨value, hvalue, -⟩ := exists_of_read_eq_ok hread
    exact hrejects members value hvalue

theorem Field.Plain.exists_read_iff {field : Field σ} (h : field.Plain) (datum : Datum) (draft : σ) :
    (∃ next, field.read datum draft = .ok next) ↔ field.Reads datum := by
  constructor
  · rintro ⟨next, hread⟩
    exact ⟨draft, next, hread⟩
  · rintro ⟨other, next, hread⟩
    exact h.steady datum other next hread draft

variable {record : Record σ} {members : List (String × Datum)}

namespace Record.Plain

theorem exists_readMembers_iff (h : record.Plain) (draft : σ) :
    (∃ next, record.readMembers members draft = .ok next) ↔ ∀ member ∈ members, ∀ field,
      record.fields.find? (·.name = member.1) = some field → field.Reads member.2 := by
  induction members generalizing draft with
  | nil => simp [Record.readMembers]
  | cons member members ih =>
    rw [List.forall_mem_cons, Record.readMembers]
    cases hfield : record.fields.find? (·.name = member.1) with
    | none => simpa using ih draft
    | some field =>
      have hiff := (h field (List.mem_of_find?_eq_some hfield)).exists_read_iff member.2 draft
      dsimp only
      cases hread : field.read member.2 draft with
      | error mismatch =>
        rw [hread] at hiff
        simp [← hiff]
      | ok next =>
        rw [hread] at hiff
        simpa [← hiff] using ih next

theorem exists_readItems_iff {fields : List (Field σ)} (h : ∀ field ∈ fields, field.Plain)
    {items : List Datum} (draft : σ) :
    (∃ next, readItems fields items draft = .ok (next, 0)) ↔
      items.length ≤ fields.length ∧ ∀ pair ∈ fields.zip items, pair.1.Reads pair.2 := by
  induction fields generalizing items draft with
  | nil => simp [readItems]
  | cons field fields ih =>
    obtain ⟨hfield, hothers⟩ := List.forall_mem_cons.1 h
    cases items with
    | nil => simp [readItems]
    | cons item items =>
      have hiff := hfield.exists_read_iff item draft
      rw [readItems, List.zip_cons_cons, List.forall_mem_cons]
      cases hread : field.read item draft with
      | error mismatch =>
        rw [hread] at hiff
        simp [← hiff]
      | ok next =>
        rw [hread] at hiff
        simpa [← hiff] using ih hothers next

theorem exists_read_sequence_iff (h : record.Plain) (items : List Datum) (draft : σ) :
    (∃ next, record.read draft (.sequence items) = .ok next) ↔
      items.length ≤ record.fields.length ∧ ∀ pair ∈ record.fields.zip items, pair.1.Reads pair.2 := by
  rw [← exists_readItems_iff h draft, Record.read]
  cases readItems record.fields items draft with
  | error mismatch => simp
  | ok result =>
    obtain ⟨next, left⟩ := result
    cases left <;> simp

/-- Whether the record can be read does not depend on the draft. -/
theorem exists_read_iff (h : record.Plain) (datum : Datum) (draft : σ) :
    (∃ next, record.read draft datum = .ok next) ↔ record.Reads datum := by
  have hsteady : ∀ first second : σ, (∃ next, record.read first datum = .ok next) →
      ∃ next, record.read second datum = .ok next := by
    intro first second
    cases datum with
    | map members =>
      exact fun hread => (h.exists_readMembers_iff _).2 ((h.exists_readMembers_iff _).1 hread)
    | sequence items =>
      exact fun hread => (h.exists_read_sequence_iff _ _).2 ((h.exists_read_sequence_iff _ _).1 hread)
    | _ =>
      rintro ⟨next, hread⟩
      cases hread
  constructor
  · exact fun hread => ⟨draft, hread⟩
  · rintro ⟨other, hread⟩
    exact hsteady other draft hread

/-- A record can be read from a map if each known name leads to a value for its field. -/
theorem reads_map_iff [Nonempty σ] (h : record.Plain) (hascending : Entries.Ascending members) :
    record.Reads (.map members) ↔ ∀ name datum, Entries.get? name members = some datum →
      ∀ field, record.fields.find? (·.name = name) = some field → field.Reads datum := by
  constructor
  · rintro ⟨draft, hread⟩ name datum hget
    exact (h.exists_readMembers_iff draft).1 hread (name, datum) (Entries.mem_of_get? hget)
  · intro hall
    obtain ⟨draft⟩ := ‹Nonempty σ›
    refine ⟨draft, (h.exists_readMembers_iff draft).2 fun member hmem => ?_⟩
    exact hall member.1 member.2 (Entries.get?_of_mem hascending hmem)

end Record.Plain

end Datum

namespace Config

/-! ### The records of a configuration -/

theorem rejects_unsigned (bits : Nat) : Rejects (unsigned bits) := by
  intro members value h
  cases h

theorem plain_bindRecord : bindRecord.Plain :=
  List.forall_mem_singleton.2 (plain_of_decode rejects_text _ _)

theorem plain_telemetryRecord : telemetryRecord.Plain :=
  List.forall_mem_singleton.2 (plain_of_decode rejects_text _ _)

theorem plain_statisticsRecord : statisticsRecord.Plain := by
  refine List.forall_mem_cons.2 ⟨plain_of_decode rejects_flag _ _, List.forall_mem_singleton.2 ?_⟩
  exact plain_of_decode (rejects_unsigned 64) _ fun (config : Config) n =>
    { config with providerTimeoutMs := n.toUInt64 }

theorem plain_serviceRecord : ServiceEntry.record.Plain := by
  intro field hmem
  simp only [ServiceEntry.record, List.mem_cons, List.not_mem_nil, or_false] at hmem
  rcases hmem with rfl | rfl | rfl | rfl | rfl
  · exact plain_of_decode rejects_text _ _
  · exact plain_of_decode rejects_text _ _
  · exact plain_of_decode rejects_text _ _
  · exact plain_of_decode rejects_text _ _
  · exact plain_of_decode (rejects_unsigned 16) _ fun (entry : ServiceEntry) n =>
      { entry with controlPort := n.toUInt16 }

/-! ### One table over another -/

section Layers

variable {σ : Type} {record : Record σ}

theorem isTable_of_reads {field : Datum.Field σ} (h : field.Plain) {value : Toml}
    (hreads : field.Reads value.datum) : value.isTable = false := by
  cases value with
  | table entries =>
    obtain ⟨draft, next, hread⟩ := hreads
    rw [datum] at hread
    exact absurd hread (h.rejects _ draft next)
  | _ => rfl

variable [Nonempty σ]

theorem reads_merge (hplain : record.Plain) {base overlay : Toml.Table}
    (hbase : (Toml.table base).Canonical) (hoverlay : (Toml.table overlay).Canonical)
    (hlower : record.Reads (Toml.table base).datum) (hupper : record.Reads (Toml.table overlay).datum) :
    record.Reads (Toml.table (merge base overlay)).datum := by
  have hmerged := canonical_merge base overlay hbase hoverlay
  rw [datum] at hlower hupper ⊢
  rw [hplain.reads_map_iff (ascending_datumEntries hbase.1)] at hlower
  rw [hplain.reads_map_iff (ascending_datumEntries hoverlay.1)] at hupper
  rw [hplain.reads_map_iff (ascending_datumEntries hmerged.1)]
  intro name datum hget field hfield
  rw [get?_datumEntries, get?_merge hoverlay.1] at hget
  cases hvalue : Entries.get? name overlay with
  | none =>
    rw [hvalue] at hget
    exact hlower name datum (by rw [get?_datumEntries]; exact hget) field hfield
  | some value =>
    have hreads := hupper name value.datum (by rw [get?_datumEntries, hvalue]; rfl) field hfield
    have hleaf := isTable_of_reads (hplain field (List.mem_of_find?_eq_some hfield)) hreads
    rw [hvalue, Option.map_some, Option.some_or, laidOver_of_not_table hleaf] at hget
    cases hget
    exact hreads

/-- If a record can be read from both values, it can be read from one laid over the other. -/
theorem reads_laidOver (hplain : record.Plain) {below : Option Toml} {value : Toml}
    (hcanonical : value.Canonical) (hreads : record.Reads value.datum)
    (hbelow : ∀ lower, below = some lower → lower.Canonical ∧ record.Reads lower.datum) :
    record.Reads (laidOver below value).datum := by
  cases value with
  | table incoming =>
    unfold laidOver
    dsimp only
    split
    · next existing =>
      obtain ⟨hexisting, hlower⟩ := hbelow _ rfl
      exact reads_merge hplain hexisting hcanonical hlower hreads
    · exact hreads
  | _ => exact hreads

/-- The record can be read from what the table has under a name. -/
def Readable (record : Record σ) (table : Toml.Table) (name : String) : Prop :=
  ∀ value, Entries.get? name table = some value → record.Reads value.datum

theorem Readable.merge (hplain : record.Plain) {base overlay : Toml.Table}
    (hbase : (Toml.table base).Canonical) (hoverlay : (Toml.table overlay).Canonical) {name : String}
    (hlower : Readable record base name) (hupper : Readable record overlay name) :
    Readable record (merge base overlay) name := by
  intro value hvalue
  rw [get?_merge hoverlay.1] at hvalue
  cases hover : Entries.get? name overlay with
  | none =>
    rw [hover] at hvalue
    exact hlower value hvalue
  | some upper =>
    rw [hover] at hvalue
    cases hvalue
    refine reads_laidOver hplain (canonical_of_get? hoverlay.2 hover) (hupper upper hover) ?_
    intro lower hget
    exact ⟨canonical_of_get? hbase.2 hget, hlower lower hget⟩

end Layers

/-! ### Whole configurations -/

/-- The sections and services of a table can be read each. -/
structure Acceptable (table : Toml.Table) : Prop where
  bind : Readable bindRecord table "bind"
  statistics : Readable statisticsRecord table "statistics"
  telemetry : Readable telemetryRecord table "telemetry"
  services : ∀ value, Entries.get? "services" table = some value → ∃ entries, value = .table entries ∧
    ∀ name, Readable ServiceEntry.record entries name

theorem exists_readSection_iff {record : Record Config} (hplain : record.Plain) {table : Toml.Table}
    {name : String} (config : Config) :
    (∃ next, readSection record name (datumEntries table) config = .ok next) ↔
      Readable record table name := by
  rw [readSection, get?_datumEntries, Readable]
  cases hvalue : Entries.get? name table with
  | none => simp
  | some value =>
    have hiff := hplain.exists_read_iff value.datum config
    dsimp only [Option.map_some]
    cases hread : record.read config value.datum <;> rw [hread] at hiff <;> simp [← hiff]

theorem exists_readOthers_iff {table : Toml.Table} (services : Dict ServiceEntry) :
    (∃ config, readOthers (datumEntries table) services = .ok config) ↔
      Readable bindRecord table "bind" ∧ Readable statisticsRecord table "statistics" ∧
        Readable telemetryRecord table "telemetry" := by
  constructor
  · rintro ⟨config, hconfig⟩
    obtain ⟨first, hfirst, hothers⟩ := bind_eq_ok_iff.1 hconfig
    obtain ⟨second, hsecond, hlast⟩ := bind_eq_ok_iff.1 hothers
    exact ⟨(exists_readSection_iff plain_bindRecord _).1 ⟨_, hfirst⟩,
      (exists_readSection_iff plain_statisticsRecord _).1 ⟨_, hsecond⟩,
      (exists_readSection_iff plain_telemetryRecord _).1 ⟨_, hlast⟩⟩
  · rintro ⟨hbind, hstatistics, htelemetry⟩
    obtain ⟨first, hfirst⟩ := (exists_readSection_iff plain_bindRecord
      { default with services := services }).2 hbind
    obtain ⟨second, hsecond⟩ := (exists_readSection_iff plain_statisticsRecord first).2 hstatistics
    obtain ⟨config, hconfig⟩ := (exists_readSection_iff plain_telemetryRecord second).2 htelemetry
    exact ⟨config, bind_eq_ok_iff.2 ⟨first, hfirst, bind_eq_ok_iff.2 ⟨second, hsecond, hconfig⟩⟩⟩

theorem exists_readServices_iff {entries : Toml.Table} (hascending : Entries.Ascending entries) :
    (∃ services, readServices (.map (datumEntries entries)) = .ok services) ↔
      ∀ name, Readable ServiceEntry.record entries name := by
  constructor
  · rintro ⟨services, hservices⟩ name value hvalue
    have hdatum : Entries.get? name (datumEntries entries) = some value.datum := by
      rw [get?_datumEntries, hvalue, Option.map_some]
    obtain ⟨hdomain, hread⟩ := get?_readServices (ascending_datumEntries hascending) hservices name
    rw [hdatum] at hdomain hread
    obtain ⟨entry, hentry⟩ := Option.isSome_iff_exists.1 hdomain
    obtain ⟨datum, heq, hentry⟩ := hread entry hentry
    cases heq
    exact ⟨.blank, entry, hentry⟩
  · intro hall
    have hmembers : ∀ member ∈ datumEntries entries, ∃ entry, ServiceEntry.ofDatum member.2 = .ok entry := by
      intro member hmem
      rw [datumEntries_eq_map] at hmem
      obtain ⟨entry, hentry, rfl⟩ := List.mem_map.1 hmem
      have hreads := hall entry.1 entry.2 (Entries.get?_of_mem hascending hentry)
      exact (plain_serviceRecord.exists_read_iff _ .blank).2 hreads
    obtain ⟨all, hread⟩ := exists_readEntries hmembers
    exact ⟨.ofList all, by rw [readServices, hread]; rfl⟩

theorem exists_servicesRead_iff {table : Toml.Table} (hcanonical : (Toml.table table).Canonical) :
    (∃ services, ServicesRead (datumEntries table) services) ↔
      ∀ value, Entries.get? "services" table = some value → ∃ entries, value = .table entries ∧
        ∀ name, Readable ServiceEntry.record entries name := by
  simp only [ServicesRead, get?_datumEntries]
  cases hvalue : Entries.get? "services" table with
  | none => simp
  | some value =>
    have hinner := canonical_of_get? hcanonical.2 hvalue
    cases value with
    | table entries =>
      rw [Option.map_some, datum]
      simpa using exists_readServices_iff hinner.1
    | _ => simp [datum, readServices]

/-- A table is a configuration exactly if its sections and services can be read each. -/
theorem exists_ofTable_iff {table : Toml.Table} (hcanonical : (Toml.table table).Canonical) :
    (∃ config, ofTable table = .ok config) ↔ Acceptable table := by
  constructor
  · rintro ⟨config, hconfig⟩
    obtain ⟨services, hservices, hothers⟩ := ofSections_eq_ok_iff.1 hconfig
    obtain ⟨hbind, hstatistics, htelemetry⟩ := (exists_readOthers_iff services).1 ⟨config, hothers⟩
    exact ⟨hbind, hstatistics, htelemetry, (exists_servicesRead_iff hcanonical).1 ⟨services, hservices⟩⟩
  · rintro ⟨hbind, hstatistics, htelemetry, hservices⟩
    obtain ⟨services, hread⟩ := (exists_servicesRead_iff hcanonical).2 hservices
    obtain ⟨config, hconfig⟩ := (exists_readOthers_iff services).2 ⟨hbind, hstatistics, htelemetry⟩
    exact ⟨config, ofSections_eq_ok_iff.2 ⟨services, hread, hconfig⟩⟩

theorem acceptable_empty : Acceptable [] := by
  constructor <;> intro value hvalue <;> cases hvalue

/-- Two tables that are configurations are one when laid over each other. -/
theorem acceptable_merge {base overlay : Toml.Table} (hbase : (Toml.table base).Canonical)
    (hoverlay : (Toml.table overlay).Canonical) (hlower : Acceptable base) (hupper : Acceptable overlay) :
    Acceptable (merge base overlay) where
  bind := hlower.bind.merge plain_bindRecord hbase hoverlay hupper.bind
  statistics := hlower.statistics.merge plain_statisticsRecord hbase hoverlay hupper.statistics
  telemetry := hlower.telemetry.merge plain_telemetryRecord hbase hoverlay hupper.telemetry
  services value hvalue := by
    rw [get?_merge hoverlay.1] at hvalue
    cases hover : Entries.get? "services" overlay with
    | none =>
      rw [hover] at hvalue
      exact hlower.services value hvalue
    | some upper =>
      rw [hover] at hvalue
      cases hvalue
      obtain ⟨incoming, rfl, hincoming⟩ := hupper.services upper hover
      have hincomingCanonical := canonical_of_get? hoverlay.2 hover
      cases hunder : Entries.get? "services" base with
      | none => exact ⟨incoming, laidOver_none _, hincoming⟩
      | some lower =>
        obtain ⟨existing, rfl, hexisting⟩ := hlower.services lower hunder
        have hexistingCanonical := canonical_of_get? hbase.2 hunder
        refine ⟨_, rfl, fun name => ?_⟩
        exact (hexisting name).merge plain_serviceRecord hexistingCanonical hincomingCanonical
          (hincoming name)

/-- So are any number of them. -/
theorem acceptable_foldl_merge {layers : List Toml.Table} {base : Toml.Table}
    (hbase : (Toml.table base).Canonical) (hlayers : ∀ layer ∈ layers, (Toml.table layer).Canonical)
    (hlower : Acceptable base) (h : ∀ layer ∈ layers, Acceptable layer) :
    Acceptable (layers.foldl merge base) := by
  induction layers generalizing base with
  | nil => exact hlower
  | cons layer rest ih =>
    obtain ⟨hcanonical, hrest⟩ := List.forall_mem_cons.1 hlayers
    obtain ⟨haccepted, hothers⟩ := List.forall_mem_cons.1 h
    exact ih (canonical_merge base layer hbase hcanonical) hrest
      (acceptable_merge hbase hcanonical hlower haccepted) hothers

end Config

end StatQuery
