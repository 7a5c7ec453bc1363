import StatQuery.Proofs.Daemon.Reply
import StatQuery.Proofs.Daemon.SingleInfo

/-!
# Which requests fail

A request fails for one of four reasons (`Daemon.FailsWith`), which exclude one another, and is
answered in every other case (`outcome_eq_failure_iff`). Only the last of them has to do with what a
provider does: for the others no provider is asked, so they are the same for all daemons with the same
handles.
-/

namespace StatQuery.Daemon

variable {daemon : Daemon} {request : Request} {error : QueryError}

/-- Why a request fails. -/
inductive FailsWith (daemon : Daemon) (request : Request) : QueryError → Prop
  | action {name : String} (haction : request.action = .other name) :
      FailsWith daemon request (.unknownAction name)
  | noHandle (haction : request.action = .info) (hhandle : request.handle = none) :
      FailsWith daemon request (.protocol (.missingField "handle"))
  | handle {handle : String} (haction : request.action = .info ∨ request.action = .cacheStats)
      (hhandle : request.handle = some handle) (hne : handle ≠ allHandles)
      (hget : daemon.registry.get? handle = none) : FailsWith daemon request (.unknownHandle handle)
  | provider {handle : String} {provider : Provider} {source : ProviderError}
      (haction : request.action = .info) (hhandle : request.handle = some handle)
      (hne : handle ≠ allHandles) (hget : daemon.registry.get? handle = some provider)
      (hyields : (provider.info daemon.world).Yields daemon.limit (.error source)) :
      FailsWith daemon request (.providerFailure handle source)

/-! ### Failures and outcomes -/

theorem FailsWith.outcome (h : daemon.FailsWith request error) :
    daemon.outcome request = .ok (.error error) := by
  cases h with
  | action haction => rw [Daemon.outcome, haction]
  | noHandle haction hhandle => rw [Daemon.outcome, haction, hhandle]
  | handle haction hhandle hne hget =>
    rcases haction with haction | haction
    · rw [outcome_info haction hhandle hne, singleInfo_unregistered hget]
    · rw [outcome_cacheStats haction, cacheStats_unknown hhandle hne hget]
  | provider haction hhandle hne hget hyields =>
    have houtcome := infoOutcome_eq_ok_iff.2 hyields
    rw [outcome_info haction hhandle hne, singleInfo_registered hget houtcome]

theorem failsWith_of_singleInfo {handle : String} (haction : request.action = .info)
    (hhandle : request.handle = some handle) (hne : handle ≠ allHandles)
    (h : daemon.singleInfo handle = .ok (.error error)) : daemon.FailsWith request error := by
  unfold singleInfo at h
  split at h
  · next hlookup =>
    obtain ⟨hget, rfl⟩ := lookup_eq_error_iff.1 hlookup
    cases h
    exact .handle (.inl haction) hhandle hne hget
  · next provider hlookup =>
    split at h
    · cases h
    · next source hsource =>
      cases h
      exact .provider haction hhandle hne (lookup_eq_ok_iff.1 hlookup) (infoOutcome_eq_ok_iff.1 hsource)
    · cases h

/-- A report is no failure. -/
theorem map_ok_ne_error {x : Except Crash Response} :
    x.map (.ok : Response → Except QueryError Response) ≠ .ok (.error error) := by
  intro h
  obtain ⟨reply, -, hreply⟩ := map_eq_ok_iff.1 h
  cases hreply

theorem failsWith_of_cacheStats (haction : request.action = .cacheStats)
    (h : daemon.cacheStats request = .ok (.error error)) : daemon.FailsWith request error := by
  by_cases hall : request.handle = none ∨ request.handle = some allHandles
  · rw [cacheStats_all hall] at h
    exact absurd h map_ok_ne_error
  · rw [not_or] at hall
    obtain ⟨handle, hhandle⟩ := Option.ne_none_iff_exists'.1 hall.1
    have hne : handle ≠ allHandles := fun heq => hall.2 (heq ▸ hhandle)
    cases hget : daemon.registry.get? handle with
    | none =>
      rw [cacheStats_unknown hhandle hne hget] at h
      cases h
      exact .handle (.inr haction) hhandle hne hget
    | some provider =>
      rw [cacheStats_one hhandle hne hget] at h
      exact absurd h map_ok_ne_error

/-- A request comes to an error exactly if that is why it fails. -/
theorem outcome_eq_failure_iff :
    daemon.outcome request = .ok (.error error) ↔ daemon.FailsWith request error := by
  constructor
  · intro h
    cases haction : request.action with
    | allServices =>
      rw [outcome_allServices haction] at h
      exact absurd h map_ok_ne_error
    | info =>
      cases hhandle : request.handle with
      | none =>
        rw [outcome, haction, hhandle] at h
        cases h
        exact .noHandle haction hhandle
      | some handle =>
        by_cases hne : handle = allHandles
        · rw [outcome_info_all haction (hne ▸ hhandle)] at h
          exact absurd h map_ok_ne_error
        · rw [outcome_info haction hhandle hne] at h
          exact failsWith_of_singleInfo haction hhandle hne h
    | cacheStats =>
      rw [outcome_cacheStats haction] at h
      exact failsWith_of_cacheStats haction h
    | config =>
      rw [outcome, haction] at h
      cases h
    | other name =>
      rw [outcome, haction] at h
      cases h
      exact .action haction
  · exact FailsWith.outcome

theorem FailsWith.dispatch (h : daemon.FailsWith request error) :
    daemon.dispatch request = .ok error.response := by
  rw [Daemon.dispatch, h.outcome]
  rfl

/-- Whatever else a request comes to is a success. -/
theorem ok_of_outcome {reply : Response} (h : daemon.outcome request = .ok (.ok reply)) :
    reply.ok = true ∧ reply.error = none := by
  have hcomes := outcome_comes h
  generalize hresult : (Except.ok reply : Except QueryError Response) = result at hcomes
  cases hcomes with
  | report outcomes =>
    cases hresult
    exact ⟨rfl, rfl⟩
  | success data =>
    cases hresult
    exact ⟨rfl, rfl⟩
  | failure error => cases hresult

/-- An answered request fails for a reason, or it succeeds and has none to fail. -/
theorem failsWith_or_ok {reply : Response} (h : daemon.dispatch request = .ok reply) :
    (∃ error, daemon.FailsWith request error ∧ reply = error.response) ∨
      ((∀ error, ¬ daemon.FailsWith request error) ∧ reply.ok = true ∧ reply.error = none) := by
  obtain ⟨result, hresult, rfl⟩ := map_eq_ok_iff.1 h
  cases result with
  | error error => exact .inl ⟨error, outcome_eq_failure_iff.1 hresult, rfl⟩
  | ok reply =>
    refine .inr ⟨fun error hfails => ?_, ok_of_outcome hresult⟩
    rw [hfails.outcome] at hresult
    cases hresult

/-! ### What has no influence -/

theorem outcome_version (daemon : Daemon) (request : Request) (version : UInt32) :
    daemon.outcome { request with version := version } = daemon.outcome request := rfl

theorem outcome_handle (h : request.action = .allServices ∨ request.action = .config)
    (handle : Option String) :
    daemon.outcome { request with handle := handle } = daemon.outcome request := by
  rcases h with h | h <;> simp only [outcome, h]

/-- The same handles are registered, whatever the providers under them. -/
def SameHandles (daemon other : Daemon) : Prop :=
  ∀ handle, daemon.registry.contains handle = other.registry.contains handle

theorem SameHandles.get?_eq_none {other : Daemon} (h : daemon.SameHandles other) {handle : String}
    (hget : daemon.registry.get? handle = none) : other.registry.get? handle = none := by
  have hsame := h handle
  rw [Dict.contains, Dict.contains, hget] at hsame
  exact Option.isNone_iff_eq_none.1 (Option.isSome_eq_false_iff.1 hsame.symm)

/-- A failure for which no provider is to blame is one of every daemon with the same handles. -/
theorem FailsWith.of_sameHandles {other : Daemon} (h : daemon.FailsWith request error)
    (hcode : error.code ≠ "ProviderFailure") (hsame : daemon.SameHandles other) :
    other.FailsWith request error := by
  cases h with
  | action haction => exact .action haction
  | noHandle haction hhandle => exact .noHandle haction hhandle
  | handle haction hhandle hne hget => exact .handle haction hhandle hne (hsame.get?_eq_none hget)
  | provider => exact absurd rfl hcode

/-! ### The verdict -/

/-- How a reply tells why the request failed, if it did. -/
structure Verdict (daemon : Daemon) (request : Request) (reply : Response) : Prop where
  unknownAction : reply.error = some "UnknownAction" ↔ ∃ name, request.action = .other name
  unknownAction_detail : ∀ name, request.action = .other name →
    reply = .failure "UnknownAction" s!"unknown action '{name}'"
  missingField : reply.error = some "MissingField" ↔
    request.action = .info ∧ request.handle = none
  unknownHandle : reply.error = some "UnknownHandle" ↔
    (request.action = .info ∨ request.action = .cacheStats) ∧ ∃ handle,
      request.handle = some handle ∧ handle ≠ allHandles ∧ daemon.registry.get? handle = none
  providerFailure : reply.error = some "ProviderFailure" ↔
    request.action = .info ∧ ∃ handle provider source, request.handle = some handle ∧
      handle ≠ allHandles ∧ daemon.registry.get? handle = some provider ∧
      (provider.info daemon.world).Yields daemon.limit (.error source)
  /-- No other code occurs. -/
  code : ∀ code, reply.error = some code →
    code ∈ ["UnknownAction", "MissingField", "UnknownHandle", "ProviderFailure"]
  ok : reply.ok = true ↔ reply.error = none

theorem FailsWith.code_mem (h : daemon.FailsWith request error) :
    error.code ∈ ["UnknownAction", "MissingField", "UnknownHandle", "ProviderFailure"] := by
  cases h <;> simp [QueryError.code, ProtocolError.code]

/-- A reply has the code of that with which the request fails. -/
theorem error_eq_some_iff {reply : Response} (h : daemon.dispatch request = .ok reply)
    {code : String} :
    reply.error = some code ↔ ∃ error, daemon.FailsWith request error ∧ error.code = code := by
  constructor
  · intro hcode
    rcases failsWith_or_ok h with ⟨error, hfails, rfl⟩ | ⟨-, -, hnone⟩
    · exact ⟨error, hfails, Option.some.inj hcode⟩
    · rw [hnone] at hcode
      cases hcode
  · rintro ⟨error, hfails, rfl⟩
    cases hfails.dispatch.symm.trans h
    rfl

theorem verdict_of_dispatch {reply : Response} (h : daemon.dispatch request = .ok reply) :
    daemon.Verdict request reply where
  unknownAction := by
    rw [error_eq_some_iff h]
    constructor
    · rintro ⟨error, hfails, hcode⟩
      cases hfails with
      | action haction => exact ⟨_, haction⟩
      | _ => simp [QueryError.code, ProtocolError.code] at hcode
    · rintro ⟨name, haction⟩
      exact ⟨_, .action haction, rfl⟩
  unknownAction_detail name haction := by
    have hfails : daemon.FailsWith request (.unknownAction name) := .action haction
    cases hfails.dispatch.symm.trans h
    rfl
  missingField := by
    rw [error_eq_some_iff h]
    constructor
    · rintro ⟨error, hfails, hcode⟩
      cases hfails with
      | noHandle haction hhandle => exact ⟨haction, hhandle⟩
      | _ => simp [QueryError.code] at hcode
    · rintro ⟨haction, hhandle⟩
      exact ⟨_, .noHandle haction hhandle, rfl⟩
  unknownHandle := by
    rw [error_eq_some_iff h]
    constructor
    · rintro ⟨error, hfails, hcode⟩
      cases hfails with
      | handle haction hhandle hne hget => exact ⟨haction, _, hhandle, hne, hget⟩
      | _ => simp [QueryError.code, ProtocolError.code] at hcode
    · rintro ⟨haction, handle, hhandle, hne, hget⟩
      exact ⟨_, .handle haction hhandle hne hget, rfl⟩
  providerFailure := by
    rw [error_eq_some_iff h]
    constructor
    · rintro ⟨error, hfails, hcode⟩
      cases hfails with
      | provider haction hhandle hne hget hyields =>
        exact ⟨haction, _, _, _, hhandle, hne, hget, hyields⟩
      | _ => simp [QueryError.code, ProtocolError.code] at hcode
    · rintro ⟨haction, handle, provider, source, hhandle, hne, hget, hyields⟩
      exact ⟨_, .provider haction hhandle hne hget hyields, rfl⟩
  code code hcode := by
    obtain ⟨error, hfails, rfl⟩ := (error_eq_some_iff h).1 hcode
    exact hfails.code_mem
  ok := by
    rcases failsWith_or_ok h with ⟨error, -, rfl⟩ | ⟨-, hok, hnone⟩
    · constructor
      · intro hok
        cases hok
      · intro hnone
        cases hnone
    · exact iff_of_true hok hnone

/-- Unless a crash escapes from a provider that is asked, a request fails for the reason that its reply
tells, and in no other case. Its version counts for nothing, and neither does its handle where every
provider or none is meant. A failure that no provider is to blame for does not depend on what the
providers do, for none of them is asked. -/
theorem dispatch_verdict (daemon : Daemon) (request : Request)
    (h : ∀ crash, ¬ daemon.Escapes request crash) :
    ∃ reply, daemon.dispatch request = .ok reply ∧ daemon.Verdict request reply ∧
      (∀ version, daemon.dispatch { request with version := version } = .ok reply) ∧
      (request.action = .allServices ∨ request.action = .config →
        ∀ handle, daemon.dispatch { request with handle := handle } = .ok reply) ∧
      (∀ code ∈ ["UnknownAction", "MissingField", "UnknownHandle"], reply.error = some code →
        ∀ other, daemon.SameHandles other → other.dispatch request = .ok reply) := by
  obtain ⟨reply, hreply⟩ := dispatch_of_not_escapes fun ⟨crash, hcrash⟩ => h crash hcrash
  refine ⟨reply, hreply, verdict_of_dispatch hreply, ?_, ?_, ?_⟩
  · intro version
    rw [dispatch, outcome_version]
    exact hreply
  · intro haction handle
    rw [dispatch, outcome_handle haction]
    exact hreply
  · intro code hmem hcode other hsame
    obtain ⟨error, hfails, rfl⟩ := (error_eq_some_iff hreply).1 hcode
    have hblameless : error.code ≠ "ProviderFailure" := fun heq => by
      rw [heq] at hmem
      exact absurd hmem (by decide)
    cases hfails.dispatch.symm.trans hreply
    exact (hfails.of_sameHandles hblameless hsame).dispatch

theorem sameHandles_sole (handle : String) (provider other : Provider) :
    (sole handle provider).SameHandles (sole handle other) := by
  intro key
  rw [sole, sole, Dict.contains, Dict.contains, Dict.get?_insert, Dict.get?_insert]
  split <;> rfl

/-- The handle `y` is not registered, and to say so the provider under `x` is not asked, which could not
be cleaned up after. -/
theorem dispatch_verdict_unasked :
    (∀ crash, ¬ (sole "x" crashingCleanup).Escapes (.ofAction .info (some "y")) crash) ∧
      ∃ reply, (sole "x" crashingCleanup).dispatch (.ofAction .info (some "y")) = .ok reply ∧
        reply.error = some "UnknownHandle" ∧
        (sole "x" crashingCall).dispatch (.ofAction .info (some "y")) = .ok reply := by
  have hescapes : ∀ crash,
      ¬ (sole "x" crashingCleanup).Escapes (.ofAction .info (some "y")) crash := by
    intro crash hcrash
    have hreply : (sole "x" crashingCleanup).outcome (.ofAction .info (some "y")) =
        .ok (.error (.unknownHandle "y")) := rfl
    exact not_escapes_of_outcome hreply crash hcrash
  obtain ⟨reply, hreply, hverdict, -, -, hsame⟩ :=
    dispatch_verdict (sole "x" crashingCleanup) (.ofAction .info (some "y")) hescapes
  have hcode : reply.error = some "UnknownHandle" :=
    hverdict.unknownHandle.2 ⟨.inl rfl, "y", rfl, by decide, rfl⟩
  exact ⟨hescapes, reply, hreply, hcode, hsame _ (by simp) hcode _ (sameHandles_sole _ _ _)⟩

end StatQuery.Daemon
