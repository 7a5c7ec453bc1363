import StatQuery.Proofs.Daemon.Outcome

/-!
# The report on caches

A registered provider shows in the reply with its counters if it has a cache that answers, with a
note if it has one that does not, and not at all if it has none (`TellsCache`). The reply on one
handle is that part of the reply on all that is on the handle (`dispatch_cacheStats`).
-/

namespace StatQuery

namespace CacheStats

/-- The counter with a name. -/
def counter? (stats : CacheStats) (name : String) : Option UInt64 :=
  if name = "hits" then some stats.hits
  else if name = "misses" then some stats.misses
  else if name = "evictions" then some stats.evictions
  else if name = "size" then some stats.size
  else if name = "capacity" then stats.capacity
  else none

/-- The value holds each of the counters as it is, and nothing else. -/
def ShownBy (stats : CacheStats) (value : Json) : Prop :=
  ∃ members, value = .object members ∧ Entries.Ascending members ∧
    ∀ name, Entries.get? name members = (stats.counter? name).map fun count => .natural count.toNat

theorem get?_members (stats : CacheStats) (name : String) :
    Entries.get? name (Entries.ofList stats.members) =
      (stats.counter? name).map fun count => .natural count.toNat := by
  unfold members counter?
  cases stats.capacity with
  | none =>
    simp only [Entries.ofList, List.append_nil, List.foldl_cons, List.foldl_nil, Entries.get?_insert,
      Entries.get?_nil]
    grind
  | some capacity =>
    simp only [Entries.ofList, List.cons_append, List.nil_append, List.foldl_cons, List.foldl_nil,
      Entries.get?_insert, Entries.get?_nil]
    grind

theorem shownBy_toJson (stats : CacheStats) : stats.ShownBy stats.toJson :=
  ⟨_, rfl, Entries.ascending_ofList _, stats.get?_members⟩

/-- The counters fix the value that shows them. -/
theorem ShownBy.eq_toJson {stats : CacheStats} {value : Json} (h : stats.ShownBy value) :
    value = stats.toJson := by
  obtain ⟨members, rfl, hascending, hget⟩ := h
  have hentries := Entries.ext_get? hascending (Entries.ascending_ofList stats.members) fun name =>
    (hget name).trans (stats.get?_members name).symm
  rw [hentries]
  rfl

end CacheStats

namespace Response

/-- The part of a reply that is on one handle; notes are left out if none remains. -/
def restrict (r : Response) (handle : String) : Response :=
  { r with
    data := r.data.map (·.restrict handle)
    errors := (r.errors.map (·.restrict handle)).filter fun errors => !errors.isEmpty }

theorem restrict_partialSuccess (data : Dict Json) (errors : Dict String) (handle : String) :
    (partialSuccess data errors).restrict handle =
      partialSuccess (data.restrict handle) (errors.restrict handle) := by
  unfold partialSuccess restrict
  cases hempty : errors.isEmpty with
  | true =>
    -- No note was there before, so none is left out only now.
    have hrestrict : (errors.restrict handle).isEmpty = true := by
      refine Dict.isEmpty_iff.2 fun key => ?_
      rw [Dict.get?_restrict, Dict.isEmpty_iff.1 hempty key, ite_self]
    rw [hrestrict]
    rfl
  | false =>
    cases hrestrict : (errors.restrict handle).isEmpty <;> simp [success, hrestrict]

end Response

namespace Daemon

variable {daemon : Daemon} {request : Request} {handle : String} {provider : Provider}

/-- No cache's counters crash when they are cleaned up. -/
def CacheContained (daemon : Daemon) : Prop :=
  ∀ handle provider call, daemon.registry.get? handle = some provider →
    provider.cacheAccess daemon.world = .present call → call.Contained

/-- A reply tells the counters of each registered provider that has a cache, or why there are none. -/
structure TellsCache (daemon : Daemon) (reply : Response) : Prop where
  ok : reply.ok = true
  data_isSome : reply.data.isSome = true
  value_iff : ∀ handle value, reply.value? handle = some value ↔
    ∃ provider call stats, daemon.registry.get? handle = some provider ∧
      provider.cacheAccess daemon.world = .present call ∧ call.Yields daemon.limit (.ok stats) ∧
      stats.ShownBy value
  note_iff : ∀ handle note, reply.note? handle = some note ↔
    ∃ provider error, daemon.registry.get? handle = some provider ∧
      CacheFails daemon.limit (provider.cacheAccess daemon.world) error ∧ error.message = note
  /-- Nothing is told of the providers without a cache, and of the handles without a provider. -/
  neither_iff : ∀ handle, reply.value? handle = none ∧ reply.note? handle = none ↔
    ∀ provider, daemon.registry.get? handle = some provider →
      provider.cacheAccess daemon.world = .absent
  /-- No handle has both counters and a note. -/
  disjoint : ∀ handle, reply.value? handle = none ∨ reply.note? handle = none

/-- What is reported of the caches, from what was seen of them. -/
def cacheOutcomes (seen : Dict (Option (Except ProviderError CacheStats))) :
    Dict (Except ProviderError Json) :=
  (seen.filterMap id).map fun outcome => outcome.map CacheStats.toJson

theorem cacheOutcomes_restrict (seen : Dict (Option (Except ProviderError CacheStats)))
    (handle : String) : cacheOutcomes (seen.restrict handle) = (cacheOutcomes seen).restrict handle := by
  unfold cacheOutcomes
  rw [Dict.restrict_map, Dict.restrict_filterMap]

theorem report_restrict (outcomes : Dict (Except ProviderError Json)) (handle : String) :
    (report outcomes).restrict handle = report (outcomes.restrict handle) := by
  unfold report
  rw [Response.restrict_partialSuccess, Dict.restrict_filterMap, Dict.restrict_filterMap]

theorem exists_cacheSeen (h : daemon.CacheContained) :
    ∃ seen, daemon.registry.traverse daemon.cacheOutcome = .ok seen := by
  refine Dict.exists_traverse fun handle provider hget => ?_
  unfold cacheOutcome
  cases haccess : provider.cacheAccess daemon.world with
  | absent => exact ⟨none, rfl⟩
  | crashed crash => exact ⟨_, rfl⟩
  | present call =>
    obtain ⟨outcome, houtcome⟩ := (h handle provider call hget haccess).exists_guarded daemon.limit
    exact ⟨some outcome, map_eq_ok_iff.2 ⟨outcome, houtcome, rfl⟩⟩

section Seen

variable {seen : Dict (Option (Except ProviderError CacheStats))}

theorem cacheOutcomes_get?_ok {value : Json} :
    (cacheOutcomes seen).get? handle = some (.ok value) ↔
      ∃ stats, seen.get? handle = some (some (.ok stats)) ∧ stats.toJson = value := by
  unfold cacheOutcomes
  rw [Dict.get?_map, Dict.get?_filterMap]
  rcases seen.get? handle with _ | _ | error | stats <;> simp [Except.map]

theorem cacheOutcomes_get?_error {error : ProviderError} :
    (cacheOutcomes seen).get? handle = some (.error error) ↔
      seen.get? handle = some (some (.error error)) := by
  unfold cacheOutcomes
  rw [Dict.get?_map, Dict.get?_filterMap]
  rcases seen.get? handle with _ | _ | error | stats <;> simp [Except.map]

theorem cacheOutcomes_get?_none :
    (cacheOutcomes seen).get? handle = none ↔
      ∀ outcome, seen.get? handle = some outcome → outcome = none := by
  unfold cacheOutcomes
  rw [Dict.get?_map, Dict.get?_filterMap]
  rcases seen.get? handle with _ | _ | error | stats <;> simp

theorem tellsCache_report (h : daemon.registry.traverse daemon.cacheOutcome = .ok seen) :
    daemon.TellsCache (report (cacheOutcomes seen)) where
  ok := rfl
  data_isSome := rfl
  value_iff handle value := by
    rw [value?_report_eq_some, cacheOutcomes_get?_ok]
    constructor
    · rintro ⟨stats, hstats, rfl⟩
      obtain ⟨provider, hget, houtcome⟩ := (Dict.get?_traverse_eq_some h).1 hstats
      obtain ⟨call, hcall, hyields⟩ := cacheOutcome_eq_stats_iff.1 houtcome
      exact ⟨provider, call, stats, hget, hcall, hyields, stats.shownBy_toJson⟩
    · rintro ⟨provider, call, stats, hget, hcall, hyields, hshown⟩
      have houtcome := cacheOutcome_eq_stats_iff.2 ⟨call, hcall, hyields⟩
      exact ⟨stats, (Dict.get?_traverse_eq_some h).2 ⟨provider, hget, houtcome⟩, hshown.eq_toJson.symm⟩
  note_iff handle note := by
    rw [note?_report_eq_some]
    constructor
    · rintro ⟨error, herror, rfl⟩
      obtain ⟨provider, hget, houtcome⟩ :=
        (Dict.get?_traverse_eq_some h).1 (cacheOutcomes_get?_error.1 herror)
      exact ⟨provider, error, hget, cacheOutcome_eq_failure_iff.1 houtcome, rfl⟩
    · rintro ⟨provider, error, hget, hfails, rfl⟩
      have houtcome := cacheOutcome_eq_failure_iff.2 hfails
      exact ⟨error, cacheOutcomes_get?_error.2
        ((Dict.get?_traverse_eq_some h).2 ⟨provider, hget, houtcome⟩), rfl⟩
  neither_iff handle := by
    rw [value?_report_eq_none_and_note?_report_eq_none, cacheOutcomes_get?_none]
    constructor
    · intro hnone provider hget
      obtain ⟨outcome, houtcome⟩ := Dict.exists_of_traverse_ok h hget
      have hseen := (Dict.get?_traverse_eq_some h).2 ⟨provider, hget, houtcome⟩
      rw [hnone outcome hseen] at houtcome
      exact cacheOutcome_eq_none_iff.1 houtcome
    · intro habsent outcome hseen
      obtain ⟨provider, hget, houtcome⟩ := (Dict.get?_traverse_eq_some h).1 hseen
      rw [cacheOutcome_eq_none_iff.2 (habsent provider hget)] at houtcome
      exact (Except.ok.inj houtcome).symm
  disjoint handle := by
    cases hvalue : (report (cacheOutcomes seen)).value? handle with
    | none => exact Or.inl rfl
    | some value => exact Or.inr (note?_report_eq_none_of_value? hvalue)

theorem cacheReport_of_traverse {targets : Dict Provider}
    (h : targets.traverse daemon.cacheOutcome = .ok seen) :
    daemon.cacheReport targets = .ok (report (cacheOutcomes seen)) := by
  rw [cacheReport_eq, h]
  rfl

end Seen

theorem dispatch_of_cacheStats {reply : Response} (haction : request.action = .cacheStats)
    (h : daemon.cacheStats request = .ok (.ok reply)) : daemon.dispatch request = .ok reply := by
  rw [dispatch, outcome_cacheStats haction, h]
  rfl

theorem cacheContained_sole
    (h : ∀ call, provider.cacheAccess (sole handle provider).world = .present call → call.Contained) :
    (sole handle provider).CacheContained := by
  intro other found call hfound hcall
  rw [sole, Dict.get?_insert, Dict.get?_empty] at hfound
  split at hfound
  · cases hfound
    exact h call hcall
  · cases hfound

/-- A provider of a cache of unknown capacity. -/
def plainCache : Provider := .cache "" "" none

/-- A request for the counters of all caches is answered provider by provider, a request for those of
one by the part of that reply on its handle, and a request for those of no provider by a failure. -/
theorem dispatch_cacheStats (daemon : Daemon) (h : daemon.CacheContained) :
    ∃ whole, daemon.TellsCache whole ∧
      (∀ version handle, handle = none ∨ handle = some allHandles →
        daemon.dispatch ⟨version, .cacheStats, handle⟩ = .ok whole) ∧
      ∀ version handle, handle ≠ allHandles →
        (daemon.registry.contains handle = true →
          daemon.dispatch ⟨version, .cacheStats, some handle⟩ = .ok (whole.restrict handle) ∧
            (whole.restrict handle).ok = true) ∧
        (daemon.registry.contains handle = false →
          daemon.dispatch ⟨version, .cacheStats, some handle⟩ =
            .ok (.failure "UnknownHandle" s!"unknown handle '{handle}'")) := by
  obtain ⟨seen, hseen⟩ := exists_cacheSeen h
  refine ⟨report (cacheOutcomes seen), tellsCache_report hseen, ?_, ?_⟩
  · intro version handle hhandle
    refine dispatch_of_cacheStats rfl ?_
    rw [cacheStats_all hhandle, cacheReport_of_traverse hseen]
    rfl
  · intro version handle hne
    constructor
    · intro hregistered
      obtain ⟨provider, hget⟩ := Dict.contains_iff.1 hregistered
      refine ⟨dispatch_of_cacheStats rfl ?_, rfl⟩
      -- Asking one provider is asking all of them and looking at that one.
      have hone := Dict.traverse_insert_empty hseen hget
      rw [cacheStats_one rfl hne hget, cacheReport_of_traverse hone, cacheOutcomes_restrict,
        ← report_restrict]
      rfl
    · intro hunknown
      have hget : daemon.registry.get? handle = none := by
        rw [Dict.contains] at hunknown
        exact Option.isNone_iff_eq_none.1 (Option.isSome_eq_false_iff.1 hunknown)
      rw [dispatch, outcome_cacheStats rfl, cacheStats_unknown rfl hne hget]
      rfl

/-- A cache that was never used is reported with counters of zero, alone as among all. -/
theorem dispatch_plainCache :
    ∃ whole value, (sole "x" plainCache).dispatch (.ofAction .cacheStats none) = .ok whole ∧
      (sole "x" plainCache).dispatch (.ofAction .cacheStats (some "x")) = .ok (whole.restrict "x") ∧
      (sole "x" plainCache).dispatch (.ofAction .cacheStats (some "y")) =
        .ok (.failure "UnknownHandle" "unknown handle 'y'") ∧
      whole.value? "x" = some value ∧ (⟨0, 0, 0, 0, none⟩ : CacheStats).ShownBy value := by
  have hcontained : (sole "x" plainCache).CacheContained := cacheContained_sole fun call hcall => by
    cases hcall
    trivial
  obtain ⟨whole, htells, hall, hone⟩ := dispatch_cacheStats (sole "x" plainCache) hcontained
  have hshown := CacheStats.shownBy_toJson ⟨0, 0, 0, 0, none⟩
  refine ⟨whole, _, hall protocolVersion none (Or.inl rfl),
    ((hone protocolVersion "x" (by decide)).1 rfl).1, (hone protocolVersion "y" (by decide)).2 rfl,
    (htells.value_iff "x" _).2 ⟨plainCache, _, _, rfl, rfl, ?_, hshown⟩, hshown⟩
  exact .finished _ nofun

end Daemon

end StatQuery
