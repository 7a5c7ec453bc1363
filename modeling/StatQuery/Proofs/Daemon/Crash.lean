import StatQuery.Proofs.Daemon.Outcome

/-!
# Crashes that end a query

A query ends in a crash exactly if a crash gets past the guard around one of the providers that the
request asks (`escapes_of_outcome`, `not_escapes_of_outcome`).
-/

namespace StatQuery

namespace Request

/-- The request asks the provider under a handle for its information. -/
def AsksInfo (request : Request) (handle : String) : Prop :=
  request.action = .allServices ∨
    request.action = .info ∧ (request.handle = some allHandles ∨ request.handle = some handle)

/-- The request asks the provider under a handle for its cache. -/
def AsksCache (request : Request) (handle : String) : Prop :=
  request.action = .cacheStats ∧
    (request.handle = none ∨ request.handle = some allHandles ∨ request.handle = some handle)

end Request

namespace Daemon

variable {daemon : Daemon} {request : Request}

/-- A request for counters is refused, as none of the providers that it asks is registered, or it is
answered with a report on those that are. Which of the two depends on the registry alone. -/
theorem cacheStats_cases (haction : request.action = .cacheStats) (registry : Registry) :
    ((∀ handle, request.AsksCache handle → registry.get? handle = none) ∧
      ∃ error, ∀ daemon : Daemon, daemon.registry = registry →
        daemon.cacheStats request = .ok (.error error)) ∨
    ∃ targets : Dict Provider,
      (∀ handle provider, targets.get? handle = some provider ↔
        registry.get? handle = some provider ∧ request.AsksCache handle) ∧
      ∀ daemon : Daemon, daemon.registry = registry →
        daemon.cacheStats request = (daemon.cacheReport targets).map .ok := by
  by_cases hall : request.handle = none ∨ request.handle = some allHandles
  · refine .inr ⟨registry, fun handle provider => ?_, ?_⟩
    · exact (and_iff_left ⟨haction, hall.imp_right Or.inl⟩).symm
    · rintro daemon rfl
      exact cacheStats_all hall
  · rw [not_or] at hall
    obtain ⟨handle, hhandle⟩ := Option.ne_none_iff_exists'.1 hall.1
    have hne : handle ≠ allHandles := fun heq => hall.2 (heq ▸ hhandle)
    have hasks : ∀ other, request.AsksCache other ↔ handle = other := by
      intro other
      simp [Request.AsksCache, haction, hhandle, hne]
    cases hget : registry.get? handle with
    | none =>
      refine .inl ⟨fun other hother => ?_, .unknownHandle handle, ?_⟩
      · rw [← (hasks other).1 hother, hget]
      · rintro daemon rfl
        exact cacheStats_unknown hhandle hne hget
    | some provider =>
      refine .inr ⟨Dict.empty.insert handle provider, fun other found => ?_, ?_⟩
      · rw [Dict.get?_insert, Dict.get?_empty, hasks]
        by_cases hother : handle = other
        · subst hother
          simp [hget]
        · simp [hother]
      · rintro daemon rfl
        exact cacheStats_one hhandle hne hget

/-- A crash gets past the guard around a provider that the request asks. -/
inductive Escapes (daemon : Daemon) (request : Request) (crash : Crash) : Prop
  | info {handle : String} {provider : Provider} (hasks : request.AsksInfo handle)
      (hget : daemon.registry.get? handle = some provider)
      (hcrash : (provider.info daemon.world).Escapes daemon.limit crash)
  | cache {handle : String} {provider : Provider} {call : Call CacheStats}
      (hasks : request.AsksCache handle) (hget : daemon.registry.get? handle = some provider)
      (hcall : provider.cacheAccess daemon.world = .present call)
      (hcrash : call.Escapes daemon.limit crash)

theorem escapes_of_allInfo {crash : Crash} (hasks : ∀ handle, request.AsksInfo handle)
    (h : daemon.allInfo = .error crash) : daemon.Escapes request crash := by
  rw [allInfo_eq, map_eq_error_iff] at h
  obtain ⟨handle, provider, hget, hcrash⟩ := Dict.exists_of_traverse_error h
  exact .info (hasks handle) hget (infoOutcome_eq_error_iff.1 hcrash)

theorem escapes_of_singleInfo {handle : String} {crash : Crash} (hasks : request.AsksInfo handle)
    (h : daemon.singleInfo handle = .error crash) : daemon.Escapes request crash := by
  unfold singleInfo at h
  split at h
  · cases h
  · next hlookup =>
    split at h
    · next hcrash =>
      cases h
      exact .info hasks (lookup_eq_ok_iff.1 hlookup) (infoOutcome_eq_error_iff.1 hcrash)
    · cases h
    · cases h

theorem escapes_of_cacheReport {targets : Dict Provider} {crash : Crash}
    (hasks : ∀ handle provider, targets.get? handle = some provider →
      request.AsksCache handle ∧ daemon.registry.get? handle = some provider)
    (h : daemon.cacheReport targets = .error crash) : daemon.Escapes request crash := by
  rw [cacheReport_eq, map_eq_error_iff] at h
  obtain ⟨handle, provider, htarget, hcrash⟩ := Dict.exists_of_traverse_error h
  obtain ⟨hask, hget⟩ := hasks handle provider htarget
  obtain ⟨call, hcall, hescapes⟩ := cacheOutcome_eq_error_iff.1 hcrash
  exact .cache hask hget hcall hescapes

theorem escapes_of_cacheStats {crash : Crash} (haction : request.action = .cacheStats)
    (h : daemon.cacheStats request = .error crash) : daemon.Escapes request crash := by
  unfold cacheStats at h
  split at h
  · next htargets =>
    have hall := targetsAll_iff.1 htargets
    refine escapes_of_cacheReport (fun handle provider hget => ?_) (map_eq_error_iff.1 h)
    exact ⟨⟨haction, hall.imp_right Or.inl⟩, hget⟩
  · next htargets =>
    dsimp only at h
    split at h
    · cases h
    · next provider hlookup =>
      -- The only target is the provider that was looked up.
      refine escapes_of_cacheReport (fun handle target htarget => ?_) (map_eq_error_iff.1 h)
      rw [Dict.get?_insert, Dict.get?_empty] at htarget
      split at htarget
      · next hhandle =>
        cases htarget
        subst hhandle
        refine ⟨⟨haction, ?_⟩, lookup_eq_ok_iff.1 hlookup⟩
        cases hsome : request.handle with
        | none => exact Or.inl rfl
        | some handle => exact Or.inr (Or.inr rfl)
      · cases htarget

/-- A query ends in a crash only if one gets past the guard around an asked provider. -/
theorem escapes_of_outcome {crash : Crash} (h : daemon.outcome request = .error crash) :
    daemon.Escapes request crash := by
  unfold outcome at h
  split at h
  · next haction => exact escapes_of_allInfo (fun _ => Or.inl haction) (map_eq_error_iff.1 h)
  · next haction =>
    split at h
    · cases h
    · next handle hhandle =>
      split at h
      · next hall =>
        rw [hall] at hhandle
        exact escapes_of_allInfo (fun _ => Or.inr ⟨haction, Or.inl hhandle⟩) (map_eq_error_iff.1 h)
      · exact escapes_of_singleInfo (Or.inr ⟨haction, Or.inr hhandle⟩) h
  · next haction => exact escapes_of_cacheStats haction h
  · cases h
  · cases h

/-! ### Answered queries -/

theorem not_escapes_of_allInfo {reply : Response} (h : daemon.allInfo = .ok reply) {handle : String}
    {provider : Provider} (hget : daemon.registry.get? handle = some provider) (crash : Crash) :
    ¬ (provider.info daemon.world).Escapes daemon.limit crash := by
  intro hcrash
  rw [allInfo_eq] at h
  obtain ⟨outcomes, houtcomes, -⟩ := map_eq_ok_iff.1 h
  obtain ⟨outcome, houtcome⟩ := Dict.exists_of_traverse_ok houtcomes hget
  rw [infoOutcome_eq_error_iff.2 hcrash] at houtcome
  cases houtcome

theorem not_escapes_of_singleInfo {handle : String} {result : Except QueryError Response}
    (h : daemon.singleInfo handle = .ok result) {provider : Provider}
    (hget : daemon.registry.get? handle = some provider) (crash : Crash) :
    ¬ (provider.info daemon.world).Escapes daemon.limit crash := by
  intro hcrash
  simp only [singleInfo, lookup_eq_ok_iff.2 hget, infoOutcome_eq_error_iff.2 hcrash] at h
  cases h

theorem not_escapes_of_cacheReport {targets : Dict Provider} {reply : Response}
    (h : daemon.cacheReport targets = .ok reply) {handle : String} {provider : Provider}
    {call : Call CacheStats} (hget : targets.get? handle = some provider)
    (hcall : provider.cacheAccess daemon.world = .present call) (crash : Crash) :
    ¬ call.Escapes daemon.limit crash := by
  intro hcrash
  rw [cacheReport_eq] at h
  obtain ⟨outcomes, houtcomes, -⟩ := map_eq_ok_iff.1 h
  obtain ⟨outcome, houtcome⟩ := Dict.exists_of_traverse_ok houtcomes hget
  rw [cacheOutcome_eq_error_iff.2 ⟨call, hcall, hcrash⟩] at houtcome
  cases houtcome

/-- No crash gets past the guard around a provider that an answered query asks. -/
theorem not_escapes_of_outcome {result : Except QueryError Response}
    (h : daemon.outcome request = .ok result) (crash : Crash) : ¬ daemon.Escapes request crash := by
  intro hescapes
  cases hescapes with
  | info hasks hget hcrash =>
    rcases hasks with haction | ⟨haction, hhandle | hhandle⟩
    · rw [outcome_allServices haction] at h
      obtain ⟨reply, hreply, -⟩ := map_eq_ok_iff.1 h
      exact not_escapes_of_allInfo hreply hget crash hcrash
    · rw [outcome_info_all haction hhandle] at h
      obtain ⟨reply, hreply, -⟩ := map_eq_ok_iff.1 h
      exact not_escapes_of_allInfo hreply hget crash hcrash
    · next handle _ =>
      -- The handle that means all may also be that of a provider.
      by_cases hall : handle = allHandles
      · subst hall
        rw [outcome_info_all haction hhandle] at h
        obtain ⟨reply, hreply, -⟩ := map_eq_ok_iff.1 h
        exact not_escapes_of_allInfo hreply hget crash hcrash
      · rw [outcome_info haction hhandle hall] at h
        exact not_escapes_of_singleInfo h hget crash hcrash
  | @cache handle provider call hasks hget hcall hcrash =>
    obtain ⟨haction, hhandle⟩ := hasks
    rw [outcome_cacheStats haction] at h
    by_cases hall : request.handle = none ∨ request.handle = some allHandles
    · rw [cacheStats_all hall] at h
      obtain ⟨reply, hreply, -⟩ := map_eq_ok_iff.1 h
      exact not_escapes_of_cacheReport hreply hget hcall crash hcrash
    · have hone : request.handle = some handle := by
        rcases hhandle with hnone | hsome | hone
        · exact absurd (Or.inl hnone) hall
        · exact absurd (Or.inr hsome) hall
        · exact hone
      have hne : handle ≠ allHandles := fun heq => hall (Or.inr (heq ▸ hone))
      rw [cacheStats_one hone hne hget] at h
      obtain ⟨reply, hreply, -⟩ := map_eq_ok_iff.1 h
      have htarget : (Dict.empty.insert handle provider).get? handle = some provider := by
        rw [Dict.get?_insert, if_pos rfl]
      exact not_escapes_of_cacheReport hreply htarget hcall crash hcrash

theorem dispatch_of_not_escapes (h : ¬ ∃ crash, daemon.Escapes request crash) :
    ∃ reply, daemon.dispatch request = .ok reply := by
  cases hdispatch : daemon.dispatch request with
  | ok reply => exact ⟨reply, rfl⟩
  | error crash => exact absurd ⟨crash, escapes_of_outcome (map_eq_error_iff.1 hdispatch)⟩ h

end Daemon

end StatQuery
