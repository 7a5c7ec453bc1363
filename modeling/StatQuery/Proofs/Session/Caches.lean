import StatQuery.Proofs.Daemon.CacheViews
import StatQuery.Proofs.Session.Held

/-!
# Caches in a session

Providers of caches come and go, and a set of counters may be shared by several of them. In any session
the set is what the activities recorded on it come to (`countersOf_runAt`), so whatever else happens,
each provider that is registered for it shows their sum (`runAt_cache`).
-/

namespace StatQuery.Session

/-- What a step records on a set of counters. -/
def Step.activity? (name : String) : Step → Option Counters.Activity
  | .useCache used activity _ => if used = name then some activity else none
  | _ => none

/-- All that some steps record on a set of counters, in order. -/
def activities (name : String) (steps : List (Duration × Step)) : List Counters.Activity :=
  steps.filterMap fun timed => timed.2.activity? name

variable {session : Session} {step : Step} {name : String}

/-! ### The counters -/

theorem activities_cons (name : String) (timed : Duration × Step) (rest : List (Duration × Step)) :
    activities name (timed :: rest) = (timed.2.activity? name).toList ++ activities name rest := by
  rw [activities, List.filterMap_cons]
  cases timed.2.activity? name <;> rfl

/-- A step records on a set of counters what it has for that set, and changes it in no other way. -/
theorem countersOf_step (session : Session) (step : Step) (name : String) :
    (session.step step).2.daemon.world.countersOf name =
      (step.activity? name).toList.foldl Counters.record (session.daemon.world.countersOf name) := by
  obtain ⟨registry, statistics, hdaemon⟩ := (session.leads_step step).exists_daemon
  rw [hdaemon]
  cases step with
  | useCache used activity capacity =>
    simp only [World.countersOf, Daemon.world, Step.countersAfter, Step.activity?, Dict.get?_insert]
    split
    · next hused =>
      subst hused
      rfl
    · rfl
  | _ => rfl

theorem countersOf_runAt (session : Session) (steps : List (Duration × Step)) (name : String) :
    (session.runAt steps).2.daemon.world.countersOf name =
      (activities name steps).foldl Counters.record (session.daemon.world.countersOf name) := by
  induction steps generalizing session with
  | nil => rfl
  | cons timed rest ih =>
    have hstep := countersOf_step (session.atClock timed.1) timed.2 name
    have hrest := ih ((session.atClock timed.1).step timed.2).2
    rw [hstep] at hrest
    rw [activities_cons, List.foldl_append]
    exact hrest

/-- The counters that no session has used before are the sums of what is recorded on them. -/
theorem totals_runAt (hcounters : session.daemon.counters = .empty) {steps : List (Duration × Step)}
    (hbound : Counters.InBounds (activities name steps)) :
    ((session.runAt steps).2.daemon.world.countersOf name).Totals (activities name steps) := by
  have hzero : session.daemon.world.countersOf name = .zero := by
    rw [World.countersOf, Daemon.world, hcounters]
    rfl
  rw [countersOf_runAt, hzero]
  exact Counters.totals_foldl_record hbound

/-! ### The answers -/

/-- A request gets the reply of the daemon, whether it arrives in a frame or not. -/
theorem step_of_dispatch {request : Request} {reply : Response}
    (hrequest : step.request? = some request) (h : session.daemon.dispatch request = .ok reply) :
    (session.step step).1 = .reply reply := by
  cases step with
  | frame bytes =>
    cases hdecode : Request.decode bytes with
    | error error =>
      rw [Step.request?, hdecode] at hrequest
      cases hrequest
    | ok decoded =>
      rw [Step.request?, hdecode] at hrequest
      cases hrequest
      exact congrArg Answer.reply (Daemon.answerFrame_of_ok hdecode h)
  | dispatch query =>
    cases hrequest
    rw [step_dispatch_of_ok h]
  | _ => cases hrequest

/-- A session of contained providers answers a request with a reply that shows each cache it asks for. -/
theorem step_showsCache (session : Session) {handle description : String} {capacity : Option UInt64}
    {request : Request}
    (hcontained : ∀ provider, session.Holds provider → provider.Contained)
    (hget : session.daemon.registry.get? handle = some (.cache description name capacity))
    (hlookups : (session.daemon.world.countersOf name).hits.toNat +
      (session.daemon.world.countersOf name).misses.toNat < twoTo 64)
    (hrequest : step.request? = some request)
    (hasks : request.AsksCache handle ∨ request.AsksInfo handle) :
    ∃ reply, (session.step step).1 = .reply reply ∧ reply.ShowsCache request handle description
      ((session.daemon.world.countersOf name).stats capacity) := by
  have hquiet : ¬ ∃ crash, session.daemon.Escapes request crash := by
    refine Daemon.not_escapes_of_contained ?_ request
    intro other provider hfound
    exact hcontained provider (.inl ⟨other, hfound⟩)
  obtain ⟨reply, hreply⟩ := Daemon.dispatch_of_not_escapes hquiet
  exact ⟨reply, step_of_dispatch hrequest hreply,
    Daemon.showsCache_of_dispatch hget hasks hlookups hreply⟩

/-! ### Whole sessions -/

theorem getElem?_runAt (session : Session) (before : List (Duration × Step)) (clock : Duration)
    (step : Step) (after : List (Duration × Step)) :
    (session.runAt (before ++ (clock, step) :: after)).1[before.length]? =
      some (((session.runAt before).2.atClock clock).step step).1 :=
  getElem?_runs stepAt session before (clock, step) after

/-- A session that has only been given contained providers has no others. -/
theorem contained_runAt (hheld : ∀ provider, session.Holds provider → provider.Contained)
    {steps : List (Duration × Step)}
    (hmade : ∀ clock handle source provider, (clock, .register handle source) ∈ steps →
      source.Makes provider → provider.Contained) {provider : Provider}
    (h : (session.runAt steps).2.Holds provider) : provider.Contained := by
  rcases holds_runAt h with hstart | ⟨clock, handle, source, hmem, hmakes⟩
  · exact hheld provider hstart
  · exact hmade clock handle source provider hmem hmakes

/-- A registered provider of a cache has the capacity that it was made with. -/
theorem cache_of_holds {description : String} {capacity : Option UInt64}
    {steps : List (Duration × Step)}
    (h : (session.runAt steps).2.Holds (.cache description name capacity)) :
    session.Holds (.cache description name capacity) ∨
      ∃ clock handle, (clock, .register handle (.cache description name capacity)) ∈ steps := by
  rcases holds_runAt h with hstart | ⟨clock, handle, source, hmem, hmakes⟩
  · exact Or.inl hstart
  · cases hmakes
    exact Or.inr ⟨clock, handle, hmem⟩

/-- However the steps before it are mixed, a request gets a reply that shows each cache it asks for as the
sums of all that was recorded on its counters until then. All providers that share the counters show the
same, each with the capacity that it was made with. -/
theorem runAt_showsCaches (session : Session) (hcounters : session.daemon.counters = .empty)
    (hheld : ∀ provider, session.Holds provider → provider.Contained)
    (before : List (Duration × Step))
    (hmade : ∀ clock handle source provider, (clock, .register handle source) ∈ before →
      source.Makes provider → provider.Contained)
    (name : String) (hbound : Counters.InBounds (activities name before)) :
    ∃ counters : Counters, counters.Totals (activities name before) ∧
      -- Nothing but what is recorded on the counters has an influence on them.
      (∀ others, activities name others = activities name before →
        (session.runAt others).2.daemon.world.countersOf name = counters) ∧
      ∀ handle description capacity,
        (session.runAt before).2.daemon.registry.get? handle =
          some (.cache description name capacity) →
        (session.Holds (.cache description name capacity) ∨ ∃ clock other,
          (clock, .register other (.cache description name capacity)) ∈ before) ∧
        ∀ clock step request after, step.request? = some request →
          request.AsksCache handle ∨ request.AsksInfo handle →
          ∃ reply, (session.runAt (before ++ (clock, step) :: after)).1[before.length]? =
              some (.reply reply) ∧
            reply.ShowsCache request handle description (counters.stats capacity) := by
  have htotals := totals_runAt hcounters hbound
  refine ⟨_, htotals, ?_, ?_⟩
  · intro others hsame
    rw [countersOf_runAt, countersOf_runAt, hsame]
  · intro handle description capacity hget
    refine ⟨cache_of_holds (.inl ⟨handle, hget⟩), ?_⟩
    intro clock step request after hrequest hasks
    -- Taking the time for the query changes neither the providers nor the counters.
    have hanswer : ∃ reply, (((session.runAt before).2.atClock clock).step step).1 = .reply reply ∧
        reply.ShowsCache request handle description
          (((session.runAt before).2.daemon.world.countersOf name).stats capacity) :=
      step_showsCache ((session.runAt before).2.atClock clock)
        (fun _ hprovider => contained_runAt hheld hmade hprovider) hget (htotals.lookups_lt hbound)
        hrequest hasks
    obtain ⟨reply, hreply, hshows⟩ := hanswer
    refine ⟨reply, ?_, hshows⟩
    rw [getElem?_runAt, hreply]

/-- A cache that is used while the first of its two providers comes, goes and comes back. -/
def sharedCache : List (Duration × Step) := [
  (⟨0⟩, .register "a" (.cache "A" "c" none)),
  (⟨1⟩, .useCache "c" ⟨2, 1, 0, some 7⟩ none),
  (⟨2⟩, .register "b" (.cache "B" "c" (some 9))),
  (⟨3⟩, .unregister "a" "kept"),
  (⟨4⟩, .useCache "c" ⟨1, 0, 3, none⟩ none),
  (⟨5⟩, .useCache "d" ⟨5, 5, 5, some 5⟩ none),
  (⟨6⟩, .register "a" (.saved "kept"))]

theorem contained_of_mem_sharedCache {clock : Duration} {handle : String} {source : ProviderSource}
    {provider : Provider} (hmem : (clock, .register handle source) ∈ sharedCache)
    (hmakes : source.Makes provider) : provider.Contained := by
  simp only [sharedCache, List.mem_cons, Prod.mk.injEq, Step.register.injEq, reduceCtorEq, and_false,
    List.not_mem_nil, or_false, false_or] at hmem
  rcases hmem with ⟨-, -, rfl⟩ | ⟨-, -, rfl⟩ | ⟨-, -, rfl⟩
  · cases hmakes
    trivial
  · cases hmakes
    trivial
  · cases hmakes

/-- Both providers show what has been recorded under either of them, and while one was away. -/
theorem runAt_sharedCache : ∃ reply a b,
    ((ofDaemon (.idle none .empty)).runAt
      (sharedCache ++ [(⟨7⟩, .dispatch (.ofAction .cacheStats none))])).1[7]? = some (.reply reply) ∧
    reply.value? "a" = some a ∧ (⟨3, 1, 3, 7, none⟩ : CacheStats).ShownBy a ∧
    reply.value? "b" = some b ∧ (⟨3, 1, 3, 7, some 9⟩ : CacheStats).ShownBy b := by
  have hheld : ∀ provider, (ofDaemon (.idle none .empty)).Holds provider → provider.Contained := by
    rintro provider (⟨handle, hget⟩ | ⟨name, hget⟩)
    · cases hget
    · cases hget
  have hbound : Counters.InBounds (activities "c" sharedCache) := ⟨by decide, by decide⟩
  obtain ⟨counters, -, hcounters, hshows⟩ := runAt_showsCaches (ofDaemon (.idle none .empty)) rfl hheld
    sharedCache (fun _ _ _ _ => contained_of_mem_sharedCache) "c" hbound
  have hc : (⟨3, 1, 3, 7⟩ : Counters) = counters := hcounters sharedCache rfl
  subst hc
  have hasks : ∀ handle, (Request.ofAction .cacheStats none).AsksCache handle := fun _ => ⟨rfl, .inl rfl⟩
  obtain ⟨-, ha⟩ := hshows "a" "A" none rfl
  obtain ⟨-, hb⟩ := hshows "b" "B" (some 9) rfl
  obtain ⟨reply, hreply, hshowsA⟩ := ha ⟨7⟩ (.dispatch (.ofAction .cacheStats none)) _ [] rfl
    (.inl (hasks "a"))
  obtain ⟨reply', hreply', hshowsB⟩ := hb ⟨7⟩ (.dispatch (.ofAction .cacheStats none)) _ [] rfl
    (.inl (hasks "b"))
  cases hreply.symm.trans hreply'
  obtain ⟨a, hvalueA, hshownA⟩ := hshowsA.counters (hasks "a")
  obtain ⟨b, hvalueB, hshownB⟩ := hshowsB.counters (hasks "b")
  exact ⟨reply, a, b, hreply, hvalueA, hshownA, hvalueB, hshownB⟩

end StatQuery.Session
