import StatQuery.Protocol.CacheStats

/-!
# Sets of cache counters

A set of counters belongs to a cache and not to any provider: providers that report on one cache
share its set, and the set lives on while none is registered.
-/

namespace StatQuery

/-- The running counters of one cache. -/
structure Counters where
  hits : UInt64
  misses : UInt64
  evictions : UInt64
  size : UInt64
  deriving DecidableEq, Repr, Inhabited

namespace Counters

/-- The counters of a new cache. -/
def zero : Counters := ⟨0, 0, 0, 0⟩

/-- What happened to a cache: look-ups and evictions since the last report, and the number of entries
if it is known. -/
structure Activity where
  hits : UInt64
  misses : UInt64
  evictions : UInt64
  size : Option UInt64
  deriving DecidableEq, Repr, Inhabited

/-- The counters after some activity. -/
def record (counters : Counters) (activity : Activity) : Counters where
  hits := counters.hits + activity.hits
  misses := counters.misses + activity.misses
  evictions := counters.evictions + activity.evictions
  size := activity.size.getD counters.size

/-- What a provider with a capacity reports. -/
def stats (counters : Counters) (capacity : Option UInt64) : CacheStats :=
  ⟨counters.hits, counters.misses, counters.evictions, counters.size, capacity⟩

end Counters

end StatQuery
