import StatQuery.Proofs.Daemon.Outcome

/-!
# The report on all providers

The reply to a request for everything tells handle by handle what asking the provider under it alone
would yield (`dispatch_wantsAllInfo`). Since the outcomes determine the reply, a provider shows under
its own handle only, and of the clock nothing shows but the up-time of the daemon itself.
-/

namespace StatQuery

/-- The request asks for the information of every provider. -/
def Request.WantsAllInfo (request : Request) : Prop :=
  request.action = .allServices ∨ request.action = .info ∧ request.handle = some allHandles

/-- The provider reports on a daemon. -/
def Provider.ReportsDaemon : Provider → Prop
  | .daemon _ _ => True
  | _ => False

namespace Daemon

variable {daemon : Daemon} {request : Request} {handle : String} {provider : Provider}

/-- No provider's information crashes when it is cleaned up. -/
def InfoContained (daemon : Daemon) : Prop :=
  ∀ handle provider, daemon.registry.get? handle = some provider →
    (provider.info daemon.world).Contained

/-- A reply tells of each registered provider what it yields when it is asked alone. -/
structure TellsInfo (daemon : Daemon) (reply : Response) : Prop where
  ok : reply.ok = true
  data_isSome : reply.data.isSome = true
  value_iff : ∀ handle value, reply.value? handle = some value ↔
    ∃ provider, daemon.registry.get? handle = some provider ∧
      (provider.info daemon.world).Yields daemon.limit (.ok value)
  note_iff : ∀ handle note, reply.note? handle = some note ↔
    ∃ provider error, daemon.registry.get? handle = some provider ∧
      (provider.info daemon.world).Yields daemon.limit (.error error) ∧ error.message = note
  /-- The handles with a value and those with a note are all that are registered. -/
  registered_iff : ∀ handle, daemon.registry.contains handle = true ↔
    reply.value? handle ≠ none ∨ reply.note? handle ≠ none
  /-- No handle has both. -/
  disjoint : ∀ handle, reply.value? handle = none ∨ reply.note? handle = none

/-- The outcomes of all providers. -/
theorem exists_infoOutcomes (h : daemon.InfoContained) :
    ∃ outcomes, daemon.registry.traverse daemon.infoOutcome = .ok outcomes := by
  refine Dict.exists_traverse fun handle provider hget => ?_
  exact (h handle provider hget).exists_guarded daemon.limit

theorem tellsInfo_report {outcomes : Dict (Except ProviderError Json)}
    (h : daemon.registry.traverse daemon.infoOutcome = .ok outcomes) :
    daemon.TellsInfo (report outcomes) where
  ok := rfl
  data_isSome := rfl
  value_iff handle value := by
    rw [value?_report_eq_some, infoOutcomes_get? h]
  note_iff handle note := by
    rw [note?_report_eq_some]
    constructor
    · rintro ⟨error, herror, rfl⟩
      obtain ⟨provider, hget, hyields⟩ := (infoOutcomes_get? h).1 herror
      exact ⟨provider, error, hget, hyields, rfl⟩
    · rintro ⟨provider, error, hget, hyields, rfl⟩
      exact ⟨error, (infoOutcomes_get? h).2 ⟨provider, hget, hyields⟩, rfl⟩
  registered_iff handle := by
    have hnone : (report outcomes).value? handle = none ∧ (report outcomes).note? handle = none ↔
        daemon.registry.get? handle = none :=
      value?_report_eq_none_and_note?_report_eq_none.trans (Dict.get?_traverse_eq_none h)
    constructor
    · intro hregistered
      by_cases hvalue : (report outcomes).value? handle = none
      · refine Or.inr fun hnote => ?_
        rw [Dict.contains, hnone.1 ⟨hvalue, hnote⟩] at hregistered
        cases hregistered
      · exact Or.inl hvalue
    · intro htold
      cases hget : daemon.registry.get? handle with
      | some provider =>
        rw [Dict.contains, hget]
        rfl
      | none =>
        obtain ⟨hvalue, hnote⟩ := hnone.2 hget
        rcases htold with h | h
        · exact absurd hvalue h
        · exact absurd hnote h
  disjoint handle := by
    cases hvalue : (report outcomes).value? handle with
    | none => exact Or.inl rfl
    | some value => exact Or.inr (note?_report_eq_none_of_value? hvalue)

theorem allInfo_of_traverse {outcomes : Dict (Except ProviderError Json)}
    (h : daemon.registry.traverse daemon.infoOutcome = .ok outcomes) :
    daemon.allInfo = .ok (report outcomes) := by
  rw [allInfo_eq, h]
  rfl

theorem dispatch_of_wantsAllInfo (hrequest : request.WantsAllInfo) :
    daemon.dispatch request = daemon.allInfo := by
  have houtcome : daemon.outcome request = daemon.allInfo.map .ok := by
    rcases hrequest with haction | ⟨haction, hhandle⟩
    · exact outcome_allServices haction
    · exact outcome_info_all haction hhandle
  rw [dispatch, houtcome]
  cases daemon.allInfo <;> rfl

/-- Replies that tell of the same providers agree. -/
theorem TellsInfo.value?_eq {other : Daemon} {reply reply' : Response} (h : daemon.TellsInfo reply)
    (h' : other.TellsInfo reply') (hworld : other.world = daemon.world)
    (hlimit : other.limit = daemon.limit)
    (hget : other.registry.get? handle = daemon.registry.get? handle) :
    reply'.value? handle = reply.value? handle := by
  apply Option.ext
  intro value
  rw [h.value_iff, h'.value_iff, hworld, hlimit, hget]

theorem TellsInfo.note?_eq {other : Daemon} {reply reply' : Response} (h : daemon.TellsInfo reply)
    (h' : other.TellsInfo reply') (hworld : other.world = daemon.world)
    (hlimit : other.limit = daemon.limit)
    (hget : other.registry.get? handle = daemon.registry.get? handle) :
    reply'.note? handle = reply.note? handle := by
  apply Option.ext
  intro note
  rw [h.note_iff, h'.note_iff, hworld, hlimit, hget]

/-! ### Another provider -/

/-- The daemon with another provider under a handle. -/
def replace (daemon : Daemon) (handle : String) (provider : Provider) : Daemon :=
  { daemon with registry := daemon.registry.insert handle provider }

/-- The providers see nothing of the change if the handle had a provider before. -/
theorem world_replace (provider : Provider) (h : daemon.registry.contains handle = true) :
    (daemon.replace handle provider).world = daemon.world := by
  -- Of the registry, providers see the number of entries only.
  have hsize : (daemon.registry.insert handle provider).size = daemon.registry.size :=
    Dict.size_insert_of_contains provider h
  unfold world replace
  rw [hsize]

theorem get?_replace_of_ne {other : String} (hne : handle ≠ other) :
    (daemon.replace other provider).registry.get? handle = daemon.registry.get? handle := by
  unfold replace
  rw [Dict.get?_insert, if_neg hne.symm]

theorem infoContained_replace (h : daemon.InfoContained)
    (hregistered : daemon.registry.contains handle = true)
    (hprovider : (provider.info daemon.world).Contained) :
    (daemon.replace handle provider).InfoContained := by
  intro other found hfound
  rw [world_replace provider hregistered]
  by_cases hother : other = handle
  · subst hother
    rw [replace, Dict.get?_insert, if_pos rfl] at hfound
    cases hfound
    exact hprovider
  · rw [get?_replace_of_ne hother] at hfound
    exact h other found hfound

/-! ### Another moment -/

/-- The daemon at another moment. -/
def atClock (daemon : Daemon) (clock : Duration) : Daemon := { daemon with clock := clock }

theorem world_atClock (daemon : Daemon) (clock : Duration) :
    (daemon.atClock clock).world = { daemon.world with clock := clock } := rfl

theorem setUptime_ofMembers (seconds : Nat) (members : List (String × Json)) :
    Response.setUptime seconds (.ofMembers members) = .ofMembers (members.map fun member =>
      (member.1, if member.1 = "uptime_secs" then .natural seconds else member.2)) :=
  congrArg Json.object (Entries.map_ofList
    (fun name value => if name = "uptime_secs" then .natural seconds else value) members)

theorem setUptime_daemonInfo (world : World) (clock running running' : Duration) :
    Response.setUptime 0 (Provider.daemonInfo { world with clock := clock } running') =
      Response.setUptime 0 (Provider.daemonInfo world running) := by
  unfold Provider.daemonInfo
  rw [setUptime_ofMembers, setUptime_ofMembers]
  simp

/-- Only the provider of a daemon looks at the clock. -/
theorem info_atClock (clock : Duration)
    (hprovider : ¬ provider.ReportsDaemon) :
    provider.info (daemon.atClock clock).world = provider.info daemon.world := by
  cases provider with
  | daemon started orphan => exact absurd trivial hprovider
  | _ => rfl

theorem infoOutcome_atClock_of_not (clock : Duration)
    (hprovider : ¬ provider.ReportsDaemon) :
    (daemon.atClock clock).infoOutcome provider = daemon.infoOutcome provider := by
  unfold infoOutcome
  rw [info_atClock clock hprovider]
  rfl

theorem infoOutcome_daemon (daemon : Daemon) (started : Duration) :
    daemon.infoOutcome (.daemon started false) = .ok (.ok (Provider.daemonInfo daemon.world
      ⟨daemon.world.clock.nanoseconds - started.nanoseconds⟩)) :=
  infoOutcome_eq_ok_iff.2 (Call.yields_answer.2 rfl)

/-- At another moment a provider yields the same, but for the up-time that it reports. -/
theorem infoOutcome_atClock (daemon : Daemon) (clock : Duration) (provider : Provider) :
    ((daemon.atClock clock).infoOutcome provider).map (·.map (Response.setUptime 0)) =
      (daemon.infoOutcome provider).map (·.map (Response.setUptime 0)) := by
  cases provider with
  | daemon started orphan =>
    cases orphan with
    | true => rfl
    | false =>
      rw [infoOutcome_daemon, infoOutcome_daemon, world_atClock]
      simp only [Except.map]
      rw [setUptime_daemonInfo]
  | _ => rw [infoOutcome_atClock_of_not clock id]

theorem infoContained_atClock (h : daemon.InfoContained) (clock : Duration) :
    (daemon.atClock clock).InfoContained := by
  intro handle provider hget
  have hcontained := h handle provider hget
  cases provider with
  | daemon started orphan => cases orphan <;> trivial
  | _ => exact hcontained

theorem atStart_report (outcomes : Dict (Except ProviderError Json)) :
    (report outcomes).atStart = report (outcomes.map (·.map (Response.setUptime 0))) :=
  mapValues_report (Response.setUptime 0) outcomes

/-- Up to the up-time, the report is the same at every moment. -/
theorem atStart_report_atClock {clock : Duration} {outcomes later : Dict (Except ProviderError Json)}
    (h : daemon.registry.traverse daemon.infoOutcome = .ok outcomes)
    (hlater : daemon.registry.traverse (daemon.atClock clock).infoOutcome = .ok later) :
    (report later).atStart = (report outcomes).atStart := by
  have heq : later.map (·.map (Response.setUptime 0)) = outcomes.map (·.map (Response.setUptime 0)) := by
    refine Dict.ext_get? fun handle => ?_
    rw [Dict.get?_map, Dict.get?_map]
    cases hget : daemon.registry.get? handle with
    | none =>
      rw [(Dict.get?_traverse_eq_none h).2 hget, (Dict.get?_traverse_eq_none hlater).2 hget]
    | some provider =>
      obtain ⟨outcome, houtcome⟩ := Dict.exists_of_traverse_ok h hget
      obtain ⟨outcome', houtcome'⟩ := Dict.exists_of_traverse_ok hlater hget
      rw [(Dict.get?_traverse_eq_some h).2 ⟨provider, hget, houtcome⟩,
        (Dict.get?_traverse_eq_some hlater).2 ⟨provider, hget, houtcome'⟩]
      have hclock := infoOutcome_atClock daemon clock provider
      rw [houtcome, houtcome'] at hclock
      exact congrArg some (Except.ok.inj hclock)
  rw [atStart_report, atStart_report, heq]

theorem infoContained_sole (h : (provider.info (sole handle provider).world).Contained) :
    (sole handle provider).InfoContained := by
  intro other found hfound
  rw [sole, Dict.get?_insert, Dict.get?_empty] at hfound
  split at hfound
  · cases hfound
    exact h
  · cases hfound

/-- A provider that crashes during the call. -/
def crashingCall : Provider := .scripted (.crashed ⟨0⟩ (.message "boom")) .absent

/-- The request for everything is answered handle by handle with what each provider yields when it
is asked alone. Another clock shows in the up-time of the daemon only, and another provider under
its own handle only. -/
theorem dispatch_wantsAllInfo (daemon : Daemon) (h : daemon.InfoContained) (request : Request)
    (hrequest : request.WantsAllInfo) :
    ∃ reply, daemon.dispatch request = .ok reply ∧ daemon.TellsInfo reply ∧
      (∀ clock, ∃ later, (daemon.atClock clock).dispatch request = .ok later ∧
        (daemon.atClock clock).TellsInfo later ∧ later.atStart = reply.atStart ∧
        ∀ handle provider, daemon.registry.get? handle = some provider →
          ¬ provider.ReportsDaemon → later.value? handle = reply.value? handle) ∧
      ∀ other provider, daemon.registry.contains other = true →
        (provider.info daemon.world).Contained →
        ∃ changed, (daemon.replace other provider).dispatch request = .ok changed ∧
          ∀ handle, handle ≠ other → changed.value? handle = reply.value? handle ∧
            changed.note? handle = reply.note? handle := by
  obtain ⟨outcomes, houtcomes⟩ := exists_infoOutcomes h
  have htells := tellsInfo_report houtcomes
  refine ⟨report outcomes, ?_, htells, ?_, ?_⟩
  · rw [dispatch_of_wantsAllInfo hrequest, allInfo_of_traverse houtcomes]
  · intro clock
    obtain ⟨later, hlater⟩ := exists_infoOutcomes (infoContained_atClock h clock)
    have htells' := tellsInfo_report hlater
    refine ⟨report later, ?_, htells', atStart_report_atClock houtcomes hlater, ?_⟩
    · rw [dispatch_of_wantsAllInfo hrequest, allInfo_of_traverse hlater]
    · intro handle provider hget hprovider
      apply Option.ext
      intro value
      rw [htells'.value_iff, htells.value_iff]
      refine exists_congr fun found => and_congr_right fun hfound => ?_
      cases hget.symm.trans hfound
      rw [info_atClock clock hprovider]
      rfl
  · intro other provider hregistered hprovider
    obtain ⟨changed, hchanged⟩ := exists_infoOutcomes (infoContained_replace h hregistered hprovider)
    have htells' := tellsInfo_report hchanged
    refine ⟨report changed, ?_, ?_⟩
    · rw [dispatch_of_wantsAllInfo hrequest, allInfo_of_traverse hchanged]
    · intro handle hne
      have hworld := world_replace provider hregistered
      have hget : (daemon.replace other provider).registry.get? handle =
          daemon.registry.get? handle := get?_replace_of_ne hne
      exact ⟨htells.value?_eq htells' hworld rfl hget, htells.note?_eq htells' hworld rfl hget⟩

/-- A provider that crashes is noted under its handle. -/
theorem dispatch_crashingCall :
    ∃ reply, (sole "x" crashingCall).dispatch (.ofAction .info (some allHandles)) = .ok reply ∧
      reply.ok = true ∧ reply.note? "x" = some "panicked: boom" := by
  have hcontained : (sole "x" crashingCall).InfoContained := infoContained_sole trivial
  obtain ⟨reply, hreply, htells, -, -⟩ := dispatch_wantsAllInfo (sole "x" crashingCall) hcontained
    (.ofAction .info (some allHandles)) (Or.inr ⟨rfl, rfl⟩)
  refine ⟨reply, hreply, htells.ok, (htells.note_iff "x" "panicked: boom").2 ?_⟩
  exact ⟨crashingCall, .crashed "boom", rfl, .crashed (.message "boom") nofun, rfl⟩

end Daemon

end StatQuery
