import StatQuery.Config.Text
import StatQuery.Proofs.Toml.Building

/-!
# The table of a written configuration

The text of a configuration is that of its sections, and their statements build one table
(`Config.table`), in which every value of the configuration has its place.
-/

namespace StatQuery

open Toml Toml.Writer

namespace Config

/-- The tables of the services, under their names. -/
def serviceTables (services : Dict ServiceEntry) : Toml.Table :=
  services.entries.map fun entry =>
    (entry.1, .table (settingsTable (serviceSection entry.1 entry.2).settings))

/-- The table that a written configuration stands for. -/
def table (config : Config) : Toml.Table := Entries.ofList [
  ("bind", .table (settingsTable [("stats_endpoint", .text config.statsEndpoint)])),
  ("telemetry", .table (settingsTable [("log_level", .text config.logLevel)])),
  ("statistics", .table (settingsTable [("enabled", .flag config.enabled),
    ("provider_timeout_ms", .number config.providerTimeoutMs.toNat)])),
  ("services", .table (serviceTables config.services))]

/-! ### What can be written -/

theorem writable_serviceSection (name : String) (entry : ServiceEntry) :
    (serviceSection name entry).Writable where
  named := by simp [serviceSection]
  short := by simp [serviceSection, Scan.maxKeys]
  settings := by
    have hport : entry.controlPort.toNat < twoTo 63 :=
      Nat.lt_trans entry.controlPort.toNat_lt (by decide)
    simp [serviceSection, Setting.Writable, hport]

theorem writable_serviceSections (services : Dict ServiceEntry) :
    ∀ s ∈ serviceSections services, s.Writable := by
  rw [serviceSections]
  split
  · intro s hmem
    obtain rfl := List.mem_singleton.1 hmem
    exact ⟨by simp, by simp [Scan.maxKeys], by simp⟩
  · intro s hmem
    obtain ⟨entry, -, rfl⟩ := List.mem_map.1 hmem
    exact writable_serviceSection entry.1 entry.2

theorem writable_sections {config : Config} (h : config.providerTimeoutMs.toNat ≤ maxNumber) :
    ∀ s ∈ config.sections, s.Writable := by
  have hlimit : config.providerTimeoutMs.toNat < twoTo 63 :=
    Nat.lt_of_le_of_lt h (Nat.sub_lt (twoTo_pos 63) (by decide))
  rw [sections]
  refine List.forall_mem_cons.2 ⟨⟨by simp, by simp [Scan.maxKeys], by simp [Setting.Writable]⟩, ?_⟩
  refine List.forall_mem_cons.2 ⟨⟨by simp, by simp [Scan.maxKeys], by simp [Setting.Writable]⟩, ?_⟩
  refine List.forall_mem_cons.2 ⟨⟨by simp, by simp [Scan.maxKeys], ?_⟩,
    writable_serviceSections config.services⟩
  simp [Setting.Writable, hlimit]

/-! ### What is built -/

theorem ascending_serviceTables (services : Dict ServiceEntry) :
    Entries.Ascending (serviceTables services) :=
  List.Pairwise.map _ (fun _ _ hlt => hlt) services.ascending

/-- The settings of each service under its name. -/
def serviceSettings (services : Dict ServiceEntry) : List (String × List (String × Setting)) :=
  services.entries.map fun entry => (entry.1, (serviceSection entry.1 entry.2).settings)

theorem close_serviceSettings (services : Dict ServiceEntry) :
    Node.closeEntries (Entries.ofList (sectionNodes (serviceSettings services))) =
      serviceTables services := by
  have hclosed : (sectionNodes (serviceSettings services)).map (fun entry => (entry.1, entry.2.close)) =
      serviceTables services := by
    simp only [sectionNodes, serviceSettings, serviceTables, List.map_map, Function.comp_def,
      close_settingNodes]
  rw [Node.closeEntries_ofList, hclosed,
    Entries.ofList_of_ascending (ascending_serviceTables services)]

/-- The sections on the services add one table. -/
theorem build_services (services : Dict ServiceEntry) {nodes : Node.Nodes}
    (hfresh : Entries.get? "services" nodes = none) (current : List String) :
    ∃ node last, node.close = .table (serviceTables services) ∧
      ((serviceSections services).flatMap Section.statements).foldlM Draft.step ⟨nodes, current⟩ =
        some ⟨Entries.insert "services" node nodes, last⟩ := by
  rw [serviceSections]
  split
  · next hempty =>
    have hentries : services.entries = [] := List.isEmpty_iff.1 hempty
    have hbuild := @build_section "services" [] List.nodup_nil nodes hfresh current
    refine ⟨_, _, ?_, by rw [List.flatMap_singleton, hbuild]⟩
    rw [close_settingNodes, serviceTables, hentries]
    rfl
  · next hsome =>
    have hnonempty : serviceSettings services ≠ [] := fun hnil =>
      hsome (List.isEmpty_iff.2 (List.map_eq_nil_iff.1 hnil))
    have hnames : ((serviceSettings services).map (·.1)).Nodup := by
      rw [serviceSettings, List.map_map]
      exact services.ascending.nodup_keys
    have hdistinct : ∀ entry ∈ serviceSettings services, (entry.2.map (·.1)).Nodup := by
      intro entry hmem
      obtain ⟨service, -, rfl⟩ := List.mem_map.1 hmem
      change ["app_name", "description", "instance", "hosts_url", "control_port"].Nodup
      decide
    obtain ⟨last, hbuild⟩ := build_sections hnonempty hnames hdistinct hfresh current
    refine ⟨.table .passed (Entries.ofList (sectionNodes (serviceSettings services))), last, ?_, ?_⟩
    · rw [Node.close, close_serviceSettings]
    · rw [← hbuild, serviceSettings, List.map_map]
      rfl

theorem build?_sections (config : Config) :
    build? (config.sections.flatMap Section.statements) = some config.table := by
  have hbind : ([("stats_endpoint", Setting.text config.statsEndpoint)].map (·.1)).Nodup := by simp
  have htelemetry : ([("log_level", Setting.text config.logLevel)].map (·.1)).Nodup := by simp
  have hstatistics : ([("enabled", Setting.flag config.enabled),
      ("provider_timeout_ms", .number config.providerTimeoutMs.toNat)].map (·.1)).Nodup := by simp
  have hsecond : ∀ a : Node, Entries.get? "telemetry" (Entries.insert "bind" a []) = none := by
    simp [Entries.get?_insert]
  have hthird : ∀ a b : Node, Entries.get? "statistics"
      (Entries.insert "telemetry" b (Entries.insert "bind" a [])) = none := by
    simp [Entries.get?_insert]
  have hfourth : ∀ a b c : Node, Entries.get? "services" (Entries.insert "statistics" c
      (Entries.insert "telemetry" b (Entries.insert "bind" a []))) = none := by
    simp [Entries.get?_insert]
  obtain ⟨node, last, hclose, hservices⟩ :=
    build_services config.services (hfourth _ _ _) ["statistics"]
  rw [build?, sections, Draft.empty, foldlM_sections (build_section hbind rfl []),
    foldlM_sections (build_section htelemetry (hsecond _) _),
    foldlM_sections (build_section hstatistics (hthird _ _) _), hservices, Option.map_some]
  simp only [Node.closeEntries_insert, close_settingNodes, hclose, Node.closeEntries, table,
    Entries.ofList, List.foldl_cons, List.foldl_nil]

/-- A written configuration is a document of its table. -/
theorem parse?_of_text? {config : Config} {text : String} (h : config.text? = some text) :
    parse? text = some config.table := by
  rw [text?] at h
  split at h
  · next hlimit =>
    cases h
    have hcomment : ∀ c ∈ " Tally Configuration".toList, Scan.isPlain c = true :=
      List.all_eq_true.1 (by decide)
    have hreads : Scan.Reads _ _ :=
      Scan.reads_comment hcomment (Scan.reads_lineEnd (Or.inr rfl) (by simp)
        (Scan.lineEnd_newline _) (Scan.reads_blocks (writable_sections hlimit)))
    have hform : dropByteOrderMark
        ("# Tally Configuration\n\n" ++ String.ofList (blocks config.sections)).toList =
          '#' :: " Tally Configuration".toList ++ '\n' :: '\n' :: blocks config.sections := by
      rw [String.toList_append, @String.toList_ofList (blocks config.sections)]
      rfl
    rw [parse?, hform, Scan.statements_of_reads hreads]
    exact build?_sections config
  · cases h

end Config

end StatQuery
