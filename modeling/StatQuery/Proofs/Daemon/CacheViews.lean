import StatQuery.Proofs.Daemon.Counting
import StatQuery.Proofs.Daemon.Deadline
import StatQuery.Proofs.Provider.Counters

/-!
# Two views of one cache

A registered cache shows in a report on caches with its counters, and among the information on providers
with its number of entries and the ratio of hits. Both views are of the same set of counters
(`showsCache_of_dispatch`), and no other provider comes between them and the reply, unless a crash gets
past the guard (`not_escapes_of_contained`).
-/

namespace StatQuery

/-- The provider tells of a cache with the given counters: the ratio is missing exactly as long as there
was no look-up. -/
structure CacheStats.ToldBy (stats : CacheStats) (description : String) (value : Json) : Prop where
  description : value.member? "description" = some (.string description)
  entries : value.member? "entries" = some (.natural stats.size.toNat)
  capacity : value.member? "capacity" =
    some (.ofOption (stats.capacity.map fun capacity => .natural capacity.toNat))
  hit_ratio : value.member? "hit_ratio" = some stats.ratioJson
  null_iff : value.member? "hit_ratio" = some .null ↔ stats.hits.toNat + stats.misses.toNat = 0

theorem CacheStats.toldBy_cacheInfo {stats : CacheStats} (description : String)
    (hlookups : stats.hits.toNat + stats.misses.toNat < twoTo 64) :
    stats.ToldBy description (Provider.cacheInfo description stats) := by
  have hratio : (Provider.cacheInfo description stats).member? "hit_ratio" = some stats.ratioJson :=
    Daemon.member?_ofMembers "hit_ratio" _
  refine ⟨Daemon.member?_ofMembers "description" _, Daemon.member?_ofMembers "entries" _,
    Daemon.member?_ofMembers "capacity" _, hratio, ?_⟩
  rw [hratio, Option.some_inj]
  exact ratioJson_eq_null_iff hlookups

/-- A reply shows the counters of the cache under a handle, in each way that the request asks for. -/
structure Response.ShowsCache (reply : Response) (request : Request) (handle description : String)
    (stats : CacheStats) : Prop where
  ok : reply.ok = true
  counters : request.AsksCache handle →
    ∃ value, reply.value? handle = some value ∧ stats.ShownBy value
  information : request.AsksInfo handle →
    ∃ value, reply.value? handle = some value ∧ stats.ToldBy description value

/-- Cleaning up after the provider does not crash. -/
def Provider.Contained : Provider → Prop
  | .scripted info access => info.Contained ∧ ∀ call, access = .present call → call.Contained
  | _ => True

namespace Daemon

variable {daemon : Daemon} {request : Request} {handle description name : String}
  {capacity : Option UInt64} {reply : Response}

/-! ### Crashes -/

theorem infoContained_of_contained
    (h : ∀ handle provider, daemon.registry.get? handle = some provider → provider.Contained) :
    daemon.InfoContained := by
  intro handle provider hget
  have hcontained := h handle provider hget
  cases provider with
  | scripted info access => exact hcontained.1
  | daemon started orphan => cases orphan <;> trivial
  | _ => trivial

theorem cacheContained_of_contained
    (h : ∀ handle provider, daemon.registry.get? handle = some provider → provider.Contained) :
    daemon.CacheContained := by
  intro handle provider call hget hcall
  have hcontained := h handle provider hget
  cases provider with
  | scripted info access => exact hcontained.2 call hcall
  | cache description name capacity =>
    cases hcall
    trivial
  | _ => cases hcall

/-- Whatever is asked of contained providers, no crash gets past the guard. -/
theorem not_escapes_of_contained
    (h : ∀ handle provider, daemon.registry.get? handle = some provider → provider.Contained)
    (request : Request) : ¬ ∃ crash, daemon.Escapes request crash := by
  rintro ⟨crash, hescapes⟩
  cases hescapes with
  | @info handle provider hasks hget hcrash =>
    exact (infoContained_of_contained h handle provider hget).not_escapes daemon.limit crash hcrash
  | @cache handle provider call hasks hget hcall hcrash =>
    have hcontained := cacheContained_of_contained h handle provider call hget hcall
    exact hcontained.not_escapes daemon.limit crash hcrash

/-! ### Views -/

theorem value?_of_asksCache (hget : daemon.registry.get? handle = some (.cache description name capacity))
    (hasks : request.AsksCache handle) (h : daemon.dispatch request = .ok reply) :
    reply.value? handle = some ((daemon.world.countersOf name).stats capacity).toJson := by
  refine (value_iff_offers (.inr hasks.1) h).2 ⟨⟨0⟩, .cache hasks hget rfl, ?_⟩
  intro bound _
  exact Nat.zero_le bound.nanoseconds

theorem value?_of_asksInfo (hget : daemon.registry.get? handle = some (.cache description name capacity))
    (hasks : request.AsksInfo handle) (h : daemon.dispatch request = .ok reply) :
    reply.value? handle = some
      (Provider.cacheInfo description ((daemon.world.countersOf name).stats capacity)) :=
  (value?_of_dispatch hasks hget h).2 (Call.yields_answer.2 rfl)

/-- A reply that a registered cache is asked for shows its counters. -/
theorem showsCache_of_dispatch
    (hget : daemon.registry.get? handle = some (.cache description name capacity))
    (hasks : request.AsksCache handle ∨ request.AsksInfo handle)
    (hlookups : (daemon.world.countersOf name).hits.toNat +
      (daemon.world.countersOf name).misses.toNat < twoTo 64)
    (h : daemon.dispatch request = .ok reply) : reply.ShowsCache request handle description
      ((daemon.world.countersOf name).stats capacity) where
  ok := by
    rcases hasks with hasks | hasks
    · exact (dispatch_wellFormed h).ok_of_value? (value?_of_asksCache hget hasks h)
    · exact (dispatch_wellFormed h).ok_of_value? (value?_of_asksInfo hget hasks h)
  counters hasks := ⟨_, value?_of_asksCache hget hasks h, CacheStats.shownBy_toJson _⟩
  information hasks := ⟨_, value?_of_asksInfo hget hasks h, CacheStats.toldBy_cacheInfo _ hlookups⟩

end Daemon

end StatQuery
