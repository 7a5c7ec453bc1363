import StatQuery.Proofs.Daemon.Outcome
import StatQuery.Proofs.Json.Canonical
import StatQuery.Proofs.Protocol.Response

/-!
# Canonical replies

If what the daemon holds can be told in JSON (`Daemon.Representable`), the data of every reply is in
canonical form: the built-in providers only build canonical values, and a report adds nothing to them.
-/

namespace StatQuery

open Json

theorem ServiceEntry.canonical_toJson (entry : ServiceEntry) : entry.toJson.Canonical := by
  refine canonical_ofMembers fun member hmem => ?_
  have hport : (natural entry.controlPort.toNat).Canonical := by
    refine canonical_natural (Nat.lt_trans entry.controlPort.toNat_lt ?_)
    rw [twoTo_64]
    decide
  simp only [List.mem_cons, List.not_mem_nil, or_false] at hmem
  rcases hmem with rfl | rfl | rfl | rfl | rfl
  · trivial
  · trivial
  · trivial
  · trivial
  · exact hport

theorem CacheStats.canonical_toJson (stats : CacheStats) : stats.toJson.Canonical := by
  refine canonical_ofMembers fun member hmem => ?_
  unfold members at hmem
  cases hcapacity : stats.capacity with
  | none =>
    rw [hcapacity] at hmem
    simp only [List.append_nil, List.mem_cons, List.not_mem_nil, or_false] at hmem
    rcases hmem with rfl | rfl | rfl | rfl <;> exact canonical_uint64 _
  | some capacity =>
    rw [hcapacity] at hmem
    simp only [List.cons_append, List.nil_append, List.mem_cons, List.not_mem_nil, or_false] at hmem
    rcases hmem with rfl | rfl | rfl | rfl | rfl <;> exact canonical_uint64 _

namespace Provider

theorem canonical_cacheInfo (description : String) (stats : CacheStats) :
    (cacheInfo description stats).Canonical := by
  refine canonical_ofMembers fun member hmem => ?_
  simp only [List.mem_cons, List.not_mem_nil, or_false] at hmem
  rcases hmem with rfl | rfl | rfl | rfl
  · trivial
  · exact canonical_uint64 _
  · cases stats.capacity with
    | none => trivial
    | some capacity => exact canonical_uint64 capacity
  · unfold CacheStats.ratioJson
    cases stats.hitRatio <;> trivial

theorem canonical_daemonInfo {world : World} {running : Duration}
    (hregistered : world.registered < twoTo 64) (hrunning : running.seconds < twoTo 64) :
    (daemonInfo world running).Canonical := by
  refine canonical_ofMembers fun member hmem => ?_
  simp only [List.mem_cons, List.not_mem_nil, or_false] at hmem
  rcases hmem with rfl | rfl | rfl | rfl | rfl
  · trivial
  · exact canonical_natural hrunning
  · exact canonical_uint64 _
  · exact canonical_uint64 _
  · exact canonical_natural hregistered

/-- A scripted provider answers with canonical values; the other providers have no say in it. -/
def AnswersCanonical : Provider → Prop
  | scripted (.finished _ (.ok value) _) _ => value.Canonical
  | _ => True

theorem canonical_info {provider : Provider} {world : World} {limit : Option Duration} {value : Json}
    (hanswers : provider.AnswersCanonical) (hregistered : world.registered < twoTo 64)
    (hclock : world.clock.seconds < twoTo 64)
    (h : (provider.info world).Yields limit (.ok value)) : value.Canonical := by
  cases provider with
  | service entry =>
    cases Call.yields_answer.1 h
    exact entry.canonical_toJson
  | cache description counters capacity =>
    cases Call.yields_answer.1 h
    exact canonical_cacheInfo _ _
  | daemon started orphan =>
    cases orphan with
    | true =>
      change (Call.failure _).Yields limit _ at h
      cases h
    | false =>
      cases Call.yields_answer.1 h
      -- The daemon runs no longer than its clock shows.
      refine canonical_daemonInfo hregistered (Nat.lt_of_le_of_lt ?_ hclock)
      exact Nat.div_le_div_right (Nat.sub_le _ _)
  | scripted call access =>
    change call.Yields limit _ at h
    cases h with
    | finished result htime => exact hanswers

end Provider

namespace Daemon

variable {daemon : Daemon}

/-- What the daemon counts and holds can be told in JSON. Its counts, times and trees are unbounded, so
their range and form are said apart: numbers of 64 bits, and values in canonical form. -/
structure Representable (daemon : Daemon) : Prop where
  registered : daemon.registry.size < twoTo 64
  clock : daemon.clock.seconds < twoTo 64
  configView : CanonicalMembers daemon.configView.entries
  answers : ∀ handle provider, daemon.registry.get? handle = some provider →
    provider.AnswersCanonical

theorem Tells.canonical (hrepresentable : daemon.Representable) {value : Json}
    (h : daemon.Tells value) : value.Canonical := by
  cases h with
  | info hget hyields =>
    exact Provider.canonical_info (hrepresentable.answers _ _ hget) hrepresentable.registered
      hrepresentable.clock hyields
  | stats stats => exact stats.canonical_toJson
  | config hconfig => exact canonicalMembers_dict.1 hrepresentable.configView _ _ hconfig

theorem canonical_failure (error : QueryError) : error.response.Canonical := nofun

theorem Comes.canonical (hrepresentable : daemon.Representable)
    {result : Except QueryError Response} (h : daemon.Comes result) : (replyOf result).Canonical := by
  cases h with
  | report outcomes htells =>
    intro data hdata
    refine canonicalMembers_dict.2 fun handle value hget => ?_
    have hvalue : (Daemon.report outcomes).value? handle = some value := by
      rw [Response.value?, show (Daemon.report outcomes).data = some data from hdata]
      exact hget
    exact (htells handle value (value?_report_eq_some.1 hvalue)).canonical hrepresentable
  | success data htells =>
    intro told htold
    cases htold
    exact canonicalMembers_dict.2 fun key value hget => (htells key value hget).canonical hrepresentable
  | failure error h => exact canonical_failure error

end Daemon

end StatQuery
