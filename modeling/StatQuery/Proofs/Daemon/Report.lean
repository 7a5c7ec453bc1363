import StatQuery.Daemon.Dispatch
import StatQuery.Proofs.Dict
import StatQuery.Proofs.Provider.Call

/-!
# Reports on several providers

A report tells for each handle what came of asking the provider under it: a value if there was one,
and otherwise a note. Both parts are read off the outcomes handle by handle (`value?_report_eq_some`,
`note?_report_eq_some`), so no outcome shows under another handle.
-/

namespace StatQuery

theorem map_eq_ok_iff {ε α β : Type} {f : α → β} {x : Except ε α} {b : β} :
    x.map f = .ok b ↔ ∃ a, x = .ok a ∧ f a = b := by
  cases x <;> simp [Except.map]

theorem map_eq_error_iff {ε α β : Type} {f : α → β} {x : Except ε α} {e : ε} :
    x.map f = .error e ↔ x = .error e := by
  cases x <;> simp [Except.map]

namespace Response

/-- What the data holds under a handle. -/
def value? (r : Response) (handle : String) : Option Json := r.data.bind (·.get? handle)

/-- The note under a handle. -/
def note? (r : Response) (handle : String) : Option String := r.errors.bind (·.get? handle)

/-- The reply with every value in its data replaced. -/
def mapValues (f : Json → Json) (r : Response) : Response :=
  { r with data := r.data.map fun data => data.map f }

theorem value?_partialSuccess (data : Dict Json) (errors : Dict String) (handle : String) :
    (partialSuccess data errors).value? handle = data.get? handle := rfl

theorem note?_partialSuccess (data : Dict Json) (errors : Dict String) (handle : String) :
    (partialSuccess data errors).note? handle = errors.get? handle := by
  unfold partialSuccess note?
  cases hempty : errors.isEmpty with
  | true => exact (Dict.isEmpty_iff.1 hempty handle).symm
  | false => rfl

theorem ext_report {data data' : Dict Json} {errors errors' : Dict String}
    (hdata : ∀ handle, data.get? handle = data'.get? handle)
    (herrors : ∀ handle, errors.get? handle = errors'.get? handle) :
    partialSuccess data errors = partialSuccess data' errors' := by
  rw [Dict.ext_get? hdata, Dict.ext_get? herrors]

end Response

namespace Daemon

variable {daemon : Daemon} {outcomes : Dict (Except ProviderError Json)} {handle : String}

theorem value?_report_eq_some {value : Json} :
    (report outcomes).value? handle = some value ↔ outcomes.get? handle = some (.ok value) := by
  rw [report, Response.value?_partialSuccess, Dict.get?_filterMap, Option.bind_eq_some_iff]
  constructor
  · rintro ⟨outcome, houtcome, hvalue⟩
    cases outcome with
    | error error => cases hvalue
    | ok seen => cases hvalue; exact houtcome
  · intro h
    exact ⟨.ok value, h, rfl⟩

theorem note?_report_eq_some {note : String} :
    (report outcomes).note? handle = some note ↔
      ∃ error, outcomes.get? handle = some (.error error) ∧ error.message = note := by
  rw [report, Response.note?_partialSuccess, Dict.get?_filterMap, Option.bind_eq_some_iff]
  constructor
  · rintro ⟨outcome, houtcome, hnote⟩
    cases outcome with
    | error error => cases hnote; exact ⟨error, houtcome, rfl⟩
    | ok seen => cases hnote
  · rintro ⟨error, h, rfl⟩
    exact ⟨.error error, h, rfl⟩

/-- Nothing stands under a handle exactly if it had no outcome. -/
theorem value?_report_eq_none_and_note?_report_eq_none :
    (report outcomes).value? handle = none ∧ (report outcomes).note? handle = none ↔
      outcomes.get? handle = none := by
  constructor
  · rintro ⟨hvalue, hnote⟩
    cases houtcome : outcomes.get? handle with
    | none => rfl
    | some outcome =>
      cases outcome with
      | error error => rw [note?_report_eq_some.2 ⟨error, houtcome, rfl⟩] at hnote; cases hnote
      | ok value => rw [value?_report_eq_some.2 houtcome] at hvalue; cases hvalue
  · intro h
    constructor
    · exact Option.eq_none_iff_forall_ne_some.2 fun value hvalue => by
        rw [value?_report_eq_some, h] at hvalue
        cases hvalue
    · exact Option.eq_none_iff_forall_ne_some.2 fun note hnote => by
        obtain ⟨error, herror, -⟩ := note?_report_eq_some.1 hnote
        rw [h] at herror
        cases herror

/-- A value and a note never stand under one handle. -/
theorem note?_report_eq_none_of_value? {value : Json}
    (h : (report outcomes).value? handle = some value) : (report outcomes).note? handle = none := by
  refine Option.eq_none_iff_forall_ne_some.2 fun note hnote => ?_
  obtain ⟨error, herror, -⟩ := note?_report_eq_some.1 hnote
  rw [value?_report_eq_some.1 h] at herror
  cases herror

theorem mapValues_report (f : Json → Json) (outcomes : Dict (Except ProviderError Json)) :
    (report outcomes).mapValues f = report (outcomes.map (·.map f)) := by
  refine Response.ext_report (fun handle => ?_) (fun handle => ?_)
  · rw [Dict.get?_map, Dict.get?_filterMap, Dict.get?_filterMap, Dict.get?_map]
    rcases outcomes.get? handle with _ | error | value <;> rfl
  · rw [Dict.get?_filterMap, Dict.get?_filterMap, Dict.get?_map]
    rcases outcomes.get? handle with _ | error | value <;> rfl

/-- The idle daemon with one provider. -/
def sole (handle : String) (provider : Provider) : Daemon :=
  { idle none .empty with registry := Dict.empty.insert handle provider }

/-! ### Outcomes -/

theorem infoOutcome_eq_ok_iff {provider : Provider} {outcome : Except ProviderError Json} :
    daemon.infoOutcome provider = .ok outcome ↔
      (provider.info daemon.world).Yields daemon.limit outcome := Call.guarded_eq_ok_iff

theorem infoOutcome_eq_error_iff {provider : Provider} {crash : Crash} :
    daemon.infoOutcome provider = .error crash ↔
      (provider.info daemon.world).Escapes daemon.limit crash := Call.guarded_eq_error_iff

/-- Why a provider with a cache has no counters: access to the cache crashes, or the call for its
counters yields an error. -/
inductive CacheFails (limit : Option Duration) : CacheAccess → ProviderError → Prop
  | access (crash : Crash) : CacheFails limit (.crashed crash) (.crashed crash.text)
  | call {call : Call CacheStats} {error : ProviderError} (h : call.Yields limit (.error error)) :
      CacheFails limit (.present call) error

theorem cacheOutcome_eq_none_iff {provider : Provider} :
    daemon.cacheOutcome provider = .ok none ↔ provider.cacheAccess daemon.world = .absent := by
  unfold cacheOutcome
  cases provider.cacheAccess daemon.world with
  | absent => simp
  | crashed crash => simp
  | present call =>
    constructor
    · intro h
      obtain ⟨seen, -, hseen⟩ := map_eq_ok_iff.1 h
      cases hseen
    · intro h
      cases h

theorem cacheOutcome_eq_stats_iff {provider : Provider} {stats : CacheStats} :
    daemon.cacheOutcome provider = .ok (some (.ok stats)) ↔
      ∃ call, provider.cacheAccess daemon.world = .present call ∧
        call.Yields daemon.limit (.ok stats) := by
  unfold cacheOutcome
  cases provider.cacheAccess daemon.world with
  | absent => simp
  | crashed crash => simp
  | present call =>
    constructor
    · intro h
      obtain ⟨seen, hseen, heq⟩ := map_eq_ok_iff.1 h
      cases heq
      exact ⟨call, rfl, Call.guarded_eq_ok_iff.1 hseen⟩
    · rintro ⟨other, hother, h⟩
      cases hother
      exact map_eq_ok_iff.2 ⟨_, h.guarded, rfl⟩

theorem cacheOutcome_eq_failure_iff {provider : Provider} {error : ProviderError} :
    daemon.cacheOutcome provider = .ok (some (.error error)) ↔
      CacheFails daemon.limit (provider.cacheAccess daemon.world) error := by
  unfold cacheOutcome
  cases provider.cacheAccess daemon.world with
  | absent =>
    constructor
    · intro h
      cases h
    · intro h
      cases h
  | crashed crash =>
    constructor
    · intro h
      cases h
      exact .access crash
    · intro h
      cases h
      rfl
  | present call =>
    constructor
    · intro h
      obtain ⟨seen, hseen, heq⟩ := map_eq_ok_iff.1 h
      cases heq
      exact .call (Call.guarded_eq_ok_iff.1 hseen)
    · intro h
      cases h with
      | call h => exact map_eq_ok_iff.2 ⟨_, h.guarded, rfl⟩

theorem cacheOutcome_eq_error_iff {provider : Provider} {crash : Crash} :
    daemon.cacheOutcome provider = .error crash ↔
      ∃ call, provider.cacheAccess daemon.world = .present call ∧ call.Escapes daemon.limit crash := by
  unfold cacheOutcome
  cases provider.cacheAccess daemon.world with
  | absent => simp
  | crashed other => simp
  | present call =>
    constructor
    · intro h
      exact ⟨call, rfl, Call.guarded_eq_error_iff.1 (map_eq_error_iff.1 h)⟩
    · rintro ⟨other, hother, h⟩
      cases hother
      exact map_eq_error_iff.2 h.guarded

/-! ### Look-ups and aggregates -/

theorem lookup_eq_ok_iff {registry : Registry} {handle : String} {provider : Provider} :
    registry.lookup handle = .ok provider ↔ registry.get? handle = some provider := by
  unfold Registry.lookup
  cases registry.get? handle <;> simp

theorem lookup_eq_error_iff {registry : Registry} {handle : String} {error : RegistryError} :
    registry.lookup handle = .error error ↔
      registry.get? handle = none ∧ error = .unknownHandle handle := by
  unfold Registry.lookup
  cases registry.get? handle with
  | none => simp [eq_comm]
  | some provider => simp

theorem allInfo_eq (daemon : Daemon) :
    daemon.allInfo = (daemon.registry.traverse daemon.infoOutcome).map report := by
  unfold allInfo
  cases daemon.registry.traverse daemon.infoOutcome <;> rfl

theorem cacheReport_eq (daemon : Daemon) (targets : Dict Provider) :
    daemon.cacheReport targets = (targets.traverse daemon.cacheOutcome).map fun outcomes =>
      report ((outcomes.filterMap id).map fun outcome => outcome.map CacheStats.toJson) := by
  unfold cacheReport
  cases targets.traverse daemon.cacheOutcome <;> rfl

theorem infoOutcomes_get? {outcomes : Dict (Except ProviderError Json)}
    (h : daemon.registry.traverse daemon.infoOutcome = .ok outcomes)
    {outcome : Except ProviderError Json} :
    outcomes.get? handle = some outcome ↔ ∃ provider, daemon.registry.get? handle = some provider ∧
      (provider.info daemon.world).Yields daemon.limit outcome := by
  simp only [Dict.get?_traverse_eq_some h, infoOutcome_eq_ok_iff]

end Daemon

end StatQuery
