import StatQuery.Json.Record
import StatQuery.Json.Writer

/-!
# Cache counters

The counters that a provider with a cache reports. The capacity is optional, and left out where it is
unknown.
-/

namespace StatQuery

/-- The counters of a cache. -/
structure CacheStats where
  hits : UInt64
  misses : UInt64
  evictions : UInt64
  /-- The number of entries held. -/
  size : UInt64
  capacity : Option UInt64
  deriving DecidableEq, Repr, Inhabited

namespace CacheStats

/-- The fraction of look-ups that hit, if there were any. -/
def hitRatio (stats : CacheStats) : Option Float :=
  let lookups := stats.hits + stats.misses
  if lookups = 0 then none else some (stats.hits.toFloat / lookups.toFloat)

/-- A ratio as a value, `null` before the first look-up. -/
def ratioJson (stats : CacheStats) : Json := .ofOption (stats.hitRatio.map .float)

/-- The counters met so far. -/
structure Draft where
  hits : Option UInt64
  misses : Option UInt64
  evictions : Option UInt64
  size : Option UInt64
  capacity : Option (Option UInt64)

open Json in
/-- The record that counters are written as. -/
def record : Record Draft CacheStats where
  title := "CacheStats"
  fields := [
    { name := "hits"
      read := fun draft => do return { draft with hits := some (← Reader.unsigned) }
      isPresent := fun draft => draft.hits.isSome
      required := true },
    { name := "misses"
      read := fun draft => do return { draft with misses := some (← Reader.unsigned) }
      isPresent := fun draft => draft.misses.isSome
      required := true },
    { name := "evictions"
      read := fun draft => do return { draft with evictions := some (← Reader.unsigned) }
      isPresent := fun draft => draft.evictions.isSome
      required := true },
    { name := "size"
      read := fun draft => do return { draft with size := some (← Reader.unsigned) }
      isPresent := fun draft => draft.size.isSome
      required := true },
    { name := "capacity"
      read := fun draft => do
        return { draft with capacity := some (← Reader.optional Reader.unsigned) }
      isPresent := fun draft => draft.capacity.isSome
      required := false }]
  draft := ⟨none, none, none, none, none⟩
  build := fun draft =>
    ⟨draft.hits.getD 0, draft.misses.getD 0, draft.evictions.getD 0, draft.size.getD 0,
      draft.capacity.join⟩

/-- Reads counters. -/
def decode (frame : List UInt8) : Except Json.ReadError CacheStats := record.read.run frame

/-- The members in the order of the record. -/
def members (stats : CacheStats) : List (String × Json) :=
  [("hits", .natural stats.hits.toNat), ("misses", .natural stats.misses.toNat),
    ("evictions", .natural stats.evictions.toNat), ("size", .natural stats.size.toNat)] ++
    match stats.capacity with
    | none => []
    | some capacity => [("capacity", .natural capacity.toNat)]

/-- The text of counters on their own. -/
def text (stats : CacheStats) : String := (Json.object stats.members).compact

/-- Counters as a value among others. -/
def toJson (stats : CacheStats) : Json := .ofMembers stats.members

end CacheStats

end StatQuery
