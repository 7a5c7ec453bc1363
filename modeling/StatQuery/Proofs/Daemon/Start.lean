import StatQuery.Daemon.Start
import StatQuery.Proofs.Config.View
import StatQuery.Proofs.Daemon.CacheReport
import StatQuery.Proofs.Daemon.InfoReport
import StatQuery.Proofs.Session.Interference

/-!
# What a daemon starts with

Registering one service after another leaves each of them under its name and the daemon's own provider
under its handle, unless a service has that very handle (`exists_registerServices`,
`registerServices_of_taken`). So a fresh daemon says of itself what its configuration says
(`start_reflects`).
-/

namespace StatQuery

/-! ### Registering services -/

namespace Registry

theorem register_of_contains_false {registry : Registry} {handle : String}
    (h : registry.contains handle = false) (provider : Provider) :
    registry.register handle provider = .ok (registry.insert handle provider) := by
  rw [register, h]
  rfl

/-- Services under names of their own and under no name that is taken are all registered. -/
theorem exists_registerServices {entries : List (String × ServiceEntry)} {registry : Registry}
    (hdistinct : (entries.map (·.1)).Nodup)
    (hfree : ∀ entry ∈ entries, registry.contains entry.1 = false) :
    ∃ started, registry.registerServices entries = .ok started ∧ ∀ handle, started.get? handle =
      ((Entries.get? handle entries).map Provider.service).or (registry.get? handle) := by
  induction entries generalizing registry with
  | nil => exact ⟨registry, rfl, fun _ => rfl⟩
  | cons head rest ih =>
    obtain ⟨name, entry⟩ := head
    rw [List.map_cons, List.nodup_cons] at hdistinct
    have hnext : ∀ other ∈ rest,
        (registry.insert name (.service entry)).contains other.1 = false := by
      intro other hmem
      have hmapped : other.1 ∈ rest.map (·.1) := List.mem_map_of_mem hmem
      have hne : name ≠ other.1 := fun heq => hdistinct.1 (heq ▸ hmapped)
      rw [Dict.contains, Dict.get?_insert, if_neg hne]
      exact hfree other (List.mem_cons_of_mem _ hmem)
    obtain ⟨started, hstarted, hget⟩ := ih hdistinct.2 hnext
    refine ⟨started, ?_, fun handle => ?_⟩
    · rw [registerServices, register_of_contains_false (hfree (name, entry) List.mem_cons_self)]
      exact hstarted
    · rw [hget, Dict.get?_insert, Entries.get?_cons]
      by_cases hname : name = handle
      · subst hname
        have hlater : Entries.get? name rest = none :=
          Option.not_isSome_iff_eq_none.1 fun hsome =>
            hdistinct.1 (Entries.mem_map_fst_iff.2 hsome)
        rw [hlater, if_pos rfl, if_pos rfl]
        rfl
      · rw [if_neg hname, if_neg hname]

/-- A service under a name that is taken is refused. -/
theorem registerServices_of_taken {entries : List (String × ServiceEntry)} {registry : Registry}
    {taken : String} (htaken : registry.contains taken = true)
    (hdistinct : (entries.map (·.1)).Nodup) (hmem : taken ∈ entries.map (·.1))
    (hfree : ∀ entry ∈ entries, entry.1 ≠ taken → registry.contains entry.1 = false) :
    registry.registerServices entries = .error ⟨taken, .duplicateHandle taken⟩ := by
  induction entries generalizing registry with
  | nil => cases hmem
  | cons head rest ih =>
    obtain ⟨name, entry⟩ := head
    rw [List.map_cons, List.nodup_cons] at hdistinct
    rw [registerServices]
    by_cases hname : name = taken
    · subst hname
      rw [register, if_pos htaken]
    · rw [register_of_contains_false (hfree (name, entry) List.mem_cons_self hname)]
      refine ih ?_ hdistinct.2 ?_ ?_
      · rw [Dict.contains, Dict.get?_insert, if_neg hname]
        exact htaken
      · rw [List.map_cons, List.mem_cons] at hmem
        exact hmem.resolve_left fun heq => hname heq.symm
      · intro other hother hne
        have hmapped : other.1 ∈ rest.map (·.1) := List.mem_map_of_mem hother
        have hdiffers : name ≠ other.1 := fun heq => hdistinct.1 (heq ▸ hmapped)
        rw [Dict.contains, Dict.get?_insert, if_neg hdiffers]
        exact hfree other (List.mem_cons_of_mem _ hother) hne

end Registry

/-! ### Providers that a daemon starts with -/

namespace Provider

/-- The provider describes a service, or reports on a daemon whose registry is there. -/
inductive Initial : Provider → Prop
  | service (entry : ServiceEntry) : Initial (.service entry)
  | daemon (started : Duration) : Initial (.daemon started false)

variable {provider : Provider}

theorem Initial.cacheAccess (h : provider.Initial) (world : World) :
    provider.cacheAccess world = .absent := by
  cases h <;> rfl

theorem Initial.contained_info (h : provider.Initial) (world : World) :
    (provider.info world).Contained := by
  cases h <;> trivial

theorem Initial.exists_yields (h : provider.Initial) (world : World) (limit : Option Duration) :
    ∃ value, (provider.info world).Yields limit (.ok value) := by
  cases h with
  | service entry => exact ⟨_, Call.yields_answer.2 rfl⟩
  | daemon started => exact ⟨_, Call.yields_answer.2 rfl⟩

end Provider

namespace Daemon

variable {daemon : Daemon} {config : Config} {clock : Duration} {handle : String}

/-! ### Starting -/

/-- The registry before any service is registered. -/
def ownRegistry (clock : Duration) : Registry := Dict.empty.insert daemonHandle (.daemon clock false)

/-- What a daemon has under a handle when it starts. -/
def initialProvider (config : Config) (clock : Duration) (handle : String) : Option Provider :=
  ((config.services.get? handle).map Provider.service).or ((ownRegistry clock).get? handle)

theorem get?_ownRegistry (clock : Duration) (handle : String) : (ownRegistry clock).get? handle =
    if daemonHandle = handle then some (.daemon clock false) else none := by
  rw [ownRegistry, Dict.get?_insert, Dict.get?_empty]

theorem contains_ownRegistry_of_ne (hne : daemonHandle ≠ handle) :
    (ownRegistry clock).contains handle = false := by
  rw [Dict.contains, get?_ownRegistry, if_neg hne]
  rfl

theorem start_of_contains (h : config.services.contains daemonHandle = true) (clock : Duration) :
    start config clock = .error ⟨daemonHandle, .duplicateHandle daemonHandle⟩ := by
  have hrefused : Registry.registerServices (ownRegistry clock) config.services.entries =
      .error ⟨daemonHandle, .duplicateHandle daemonHandle⟩ :=
    Registry.registerServices_of_taken rfl config.services.ascending.nodup_keys
      (Dict.mem_keys_iff.2 h) fun entry _ hne => contains_ownRegistry_of_ne hne.symm
  rw [ownRegistry] at hrefused
  simp only [start, hrefused]

/-- A daemon as it has started with a configuration. -/
structure Fresh (config : Config) (clock : Duration) (daemon : Daemon) : Prop where
  configView : daemon.configView = config.toDict
  registry : ∀ handle, daemon.registry.get? handle = initialProvider config clock handle

theorem exists_fresh (h : config.services.contains daemonHandle = false) (clock : Duration) :
    ∃ daemon, start config clock = .ok daemon ∧ Fresh config clock daemon := by
  have hfree : ∀ entry ∈ config.services.entries, (ownRegistry clock).contains entry.1 = false := by
    intro entry hmem
    refine contains_ownRegistry_of_ne fun heq => ?_
    have hkey : entry.1 ∈ config.services.keys := List.mem_map_of_mem hmem
    rw [← heq, Dict.mem_keys_iff, h] at hkey
    cases hkey
  obtain ⟨registry, hregistry, hget⟩ :=
    Registry.exists_registerServices config.services.ascending.nodup_keys hfree
  rw [ownRegistry] at hregistry
  refine ⟨{ idle config.providerLimit config.toDict with registry := registry, clock := clock },
    ?_, rfl, hget⟩
  simp only [start, hregistry]

/-! ### What a fresh daemon answers -/

theorem Fresh.initial (h : Fresh config clock daemon) {provider : Provider}
    (hget : daemon.registry.get? handle = some provider) : provider.Initial := by
  rw [h.registry, initialProvider, get?_ownRegistry] at hget
  cases hservice : config.services.get? handle with
  | some entry =>
    rw [hservice] at hget
    cases hget
    exact .service entry
  | none =>
    rw [hservice] at hget
    by_cases hown : daemonHandle = handle
    · rw [if_pos hown] at hget
      cases hget
      exact .daemon clock
    · rw [if_neg hown] at hget
      cases hget

theorem Fresh.contains_iff (h : Fresh config clock daemon) :
    daemon.registry.contains handle = true ↔
      handle = daemonHandle ∨ config.services.contains handle = true := by
  rw [Dict.contains, h.registry, initialProvider, get?_ownRegistry, Dict.contains]
  cases config.services.get? handle with
  | some entry => simp
  | none =>
    by_cases hown : handle = daemonHandle
    · simp [hown]
    · simp [hown, Ne.symm hown]

/-- A service is described as it was configured. -/
theorem Fresh.info_reply (h : Fresh config clock daemon) {entry : ServiceEntry}
    (hservice : config.services.get? handle = some entry) (hne : handle ≠ allHandles)
    (now : Duration) (version : UInt32) :
    (daemon.atClock now).dispatch ⟨version, .info, some handle⟩ =
      .ok (.success (Dict.empty.insert handle entry.toJson)) := by
  have hget : (daemon.atClock now).registry.get? handle = some (.service entry) := by
    rw [atClock, h.registry, initialProvider, hservice]
    rfl
  have houtcome : (daemon.atClock now).infoOutcome (.service entry) = .ok (.ok entry.toJson) :=
    infoOutcome_eq_ok_iff.2 (Call.yields_answer.2 rfl)
  rw [dispatch, outcome_info rfl rfl hne, singleInfo, lookup_eq_ok_iff.2 hget]
  simp only [houtcome]
  rfl

theorem errors_report_eq_none {outcomes : Dict (Except ProviderError Json)}
    (h : ∀ handle, (report outcomes).note? handle = none) : (report outcomes).errors = none := by
  have hempty : (outcomes.filterMap outcomeNote?).isEmpty = true := by
    refine Dict.isEmpty_iff.2 fun handle => ?_
    rw [← h handle, report, Response.note?_partialSuccess]
  rw [report, Response.partialSuccess, if_pos hempty]

/-- Every provider of a fresh daemon answers. -/
theorem Fresh.all_reply (h : Fresh config clock daemon) {request : Request}
    (hrequest : request.WantsAllInfo) (now : Duration) :
    ∃ reply, (daemon.atClock now).dispatch request = .ok reply ∧ reply.ok = true ∧
      reply.errors = none ∧ ∀ handle, (∃ value, reply.value? handle = some value) ↔
        daemon.registry.contains handle = true := by
  have hcontained : (daemon.atClock now).InfoContained := by
    intro handle provider hget
    exact (h.initial hget).contained_info _
  obtain ⟨outcomes, houtcomes⟩ := exists_infoOutcomes hcontained
  have htells := tellsInfo_report houtcomes
  refine ⟨report outcomes, ?_, rfl, ?_, fun handle => ?_⟩
  · rw [dispatch_of_wantsAllInfo hrequest, allInfo_of_traverse houtcomes]
  · refine errors_report_eq_none fun handle => Option.eq_none_iff_forall_ne_some.2 fun note hnote => ?_
    obtain ⟨provider, error, hget, hfails, -⟩ := (htells.note_iff handle note).1 hnote
    obtain ⟨value, hvalue⟩ := (h.initial hget).exists_yields (daemon.atClock now).world
      (daemon.atClock now).limit
    cases hvalue.unique hfails
  · rw [Dict.contains_iff]
    constructor
    · rintro ⟨value, hvalue⟩
      obtain ⟨provider, hget, -⟩ := (htells.value_iff handle value).1 hvalue
      exact ⟨provider, hget⟩
    · rintro ⟨provider, hget⟩
      obtain ⟨value, hvalue⟩ := (h.initial hget).exists_yields (daemon.atClock now).world
        (daemon.atClock now).limit
      exact ⟨value, (htells.value_iff handle value).2 ⟨provider, hget, hvalue⟩⟩

/-- Nothing is reported of providers without a cache. -/
theorem cacheReport_of_absent {targets : Dict Provider}
    (h : ∀ handle provider, targets.get? handle = some provider →
      provider.cacheAccess daemon.world = .absent) :
    daemon.cacheReport targets = .ok (.success .empty) := by
  have hnone : ∀ handle provider, targets.get? handle = some provider →
      daemon.cacheOutcome provider = .ok none :=
    fun handle provider hget => cacheOutcome_eq_none_iff.2 (h handle provider hget)
  obtain ⟨seen, hseen⟩ : ∃ seen, targets.traverse daemon.cacheOutcome = .ok seen :=
    Dict.exists_traverse fun handle provider hget => ⟨none, hnone handle provider hget⟩
  have hempty : seen.filterMap id = .empty := by
    refine Dict.ext_get? fun handle => ?_
    rw [Dict.get?_filterMap, Dict.get?_empty]
    refine Option.bind_eq_none_iff.2 fun outcome houtcome => ?_
    obtain ⟨provider, hget, hcall⟩ := (Dict.get?_traverse_eq_some hseen).1 houtcome
    exact (Except.ok.inj ((hnone handle provider hget).symm.trans hcall)).symm
  rw [cacheReport_of_traverse hseen, cacheOutcomes, hempty]
  rfl

/-- No provider of a fresh daemon has a cache. -/
theorem Fresh.cacheStats_reply (h : Fresh config clock daemon) {request : Request}
    (haction : request.action = .cacheStats)
    (hhandle : ∀ handle, request.handle = some handle →
      handle = allHandles ∨ daemon.registry.contains handle = true) (now : Duration) :
    (daemon.atClock now).dispatch request = .ok (.success .empty) := by
  have hasked : ∃ handle, request.AsksCache handle ∧ daemon.registry.contains handle = true := by
    have hown : daemon.registry.contains daemonHandle = true := h.contains_iff.2 (.inl rfl)
    cases hrequest : request.handle with
    | none => exact ⟨daemonHandle, ⟨haction, .inl hrequest⟩, hown⟩
    | some handle =>
      rcases hhandle handle hrequest with rfl | hregistered
      · exact ⟨daemonHandle, ⟨haction, .inr (.inl hrequest)⟩, hown⟩
      · exact ⟨handle, ⟨haction, .inr (.inr hrequest)⟩, hregistered⟩
  rcases cacheStats_cases haction daemon.registry with ⟨hnone, -⟩ | ⟨targets, htargets, hreport⟩
  · obtain ⟨handle, hasks, hregistered⟩ := hasked
    rw [Dict.contains, hnone handle hasks] at hregistered
    cases hregistered
  · have hempty : (daemon.atClock now).cacheReport targets = .ok (.success .empty) :=
      cacheReport_of_absent fun handle provider hget =>
        (h.initial ((htargets handle provider).1 hget).1).cacheAccess _
    refine dispatch_of_cacheStats haction ?_
    rw [hreport (daemon.atClock now) rfl, hempty]
    rfl

/-- Whatever happens to a daemon, it says the same about its configuration. -/
theorem configView_runAt (session : Session) (steps : List (Duration × Session.Step)) :
    (session.runAt steps).2.daemon.configView = session.daemon.configView := by
  induction steps generalizing session with
  | nil => rfl
  | cons timed rest ih => exact (ih _).trans (Session.configView_step _ timed.2)

/-- A daemon shows what it was configured to be. -/
structure Reflects (daemon : Daemon) (config : Config) : Prop where
  ascending : daemon.registry.keys.Pairwise (· < ·)
  handles : ∀ handle, handle ∈ daemon.registry.keys ↔
    handle = daemonHandle ∨ config.services.contains handle = true
  /-- Each service is described as it was configured, unless its name means all of them. -/
  info : ∀ handle entry, config.services.get? handle = some entry → handle ≠ allHandles →
    ∀ now version, ∃ value, (daemon.atClock now).dispatch ⟨version, .info, some handle⟩ =
      .ok (.success (Dict.empty.insert handle value)) ∧ ServiceEntry.ofJson value = .ok entry
  /-- Every provider answers. -/
  all : ∀ request : Request, request.WantsAllInfo → ∀ now,
    ∃ reply, (daemon.atClock now).dispatch request = .ok reply ∧ reply.ok = true ∧
      reply.errors = none ∧
      ∀ handle, (∃ value, reply.value? handle = some value) ↔ handle ∈ daemon.registry.keys
  /-- None has a cache. -/
  cacheStats : ∀ request : Request, request.action = .cacheStats →
    (∀ handle, request.handle = some handle → handle = allHandles ∨ handle ∈ daemon.registry.keys) →
    ∀ now, (daemon.atClock now).dispatch request = .ok (.success .empty)
  /-- The configuration is told in full, also after other providers have come and gone. -/
  config : ∀ steps version handle, ∃ data,
    ((Session.ofDaemon daemon).runAt steps).2.daemon.dispatch ⟨version, .config, handle⟩ =
      .ok (.success data) ∧ Config.ofJson (.ofDict data) = .ok config

theorem Fresh.reflects (h : Fresh config clock daemon) : daemon.Reflects config where
  ascending := daemon.registry.pairwise_keys
  handles handle := by
    rw [Dict.mem_keys_iff, h.contains_iff]
  info handle entry hservice hne now version :=
    ⟨entry.toJson, h.info_reply hservice hne now version, entry.ofJson_toJson⟩
  all request hrequest now := by
    simp only [Dict.mem_keys_iff]
    exact h.all_reply hrequest now
  cacheStats request haction hhandle now := by
    simp only [Dict.mem_keys_iff] at hhandle
    exact h.cacheStats_reply haction hhandle now
  config steps version handle := by
    refine ⟨config.toDict, ?_, config.ofJson_toJson⟩
    rw [dispatch, outcome, configView_runAt, Session.ofDaemon, h.configView]
    rfl

/-- A daemon starts unless one of its services has its own handle, and then shows what it was configured
to be. -/
theorem start_reflects (config : Config) (clock : Duration) :
    config.services.contains daemonHandle = true ∧
        start config clock = .error ⟨daemonHandle, .duplicateHandle daemonHandle⟩ ∨
      config.services.contains daemonHandle = false ∧
        ∃ daemon, start config clock = .ok daemon ∧ daemon.Reflects config := by
  cases htaken : config.services.contains daemonHandle with
  | true => exact .inl ⟨rfl, start_of_contains htaken clock⟩
  | false =>
    obtain ⟨daemon, hstart, hfresh⟩ := exists_fresh htaken clock
    exact .inr ⟨rfl, daemon, hstart, hfresh.reflects⟩

end Daemon

end StatQuery
