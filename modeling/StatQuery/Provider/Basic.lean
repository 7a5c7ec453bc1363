import StatQuery.Config.Basic
import StatQuery.Provider.Call
import StatQuery.Provider.Counters

/-!
# Providers

A provider answers with information about itself, and some report the counters of a cache as well. What
it answers depends on itself and on what it sees of the daemon at that moment (`World`).
-/

namespace StatQuery

/-- The version that the program reports. -/
def version : String := "0.1.0"

/-- How many requests have been answered. -/
structure Statistics where
  served : UInt64
  /-- How many of them were answered with a failure. -/
  failed : UInt64
  deriving DecidableEq, Repr, Inhabited

/-- The statistics of a daemon that has answered nothing. -/
def Statistics.zero : Statistics := ⟨0, 0⟩

/-- What a provider sees when it is called. -/
structure World where
  counters : Dict Counters
  statistics : Statistics
  /-- The number of providers that are registered. -/
  registered : Nat
  clock : Duration

/-- What asking a provider for its cache leads to. -/
inductive CacheAccess where
  /-- It has none. -/
  | absent
  | crashed (crash : Crash)
  /-- It has one, whose counters are asked for by a call. -/
  | present (call : Call CacheStats)

/-- A source of statistics. -/
inductive Provider where
  /-- Describes a service. -/
  | service (entry : ServiceEntry)
  /-- Reports on the cache that a set of counters belongs to. -/
  | cache (description counters : String) (capacity : Option UInt64)
  /-- Reports on the daemon itself since a moment, unless its registry is gone. -/
  | daemon (started : Duration) (orphan : Bool)
  /-- Does what it is told to. -/
  | scripted (info : Call Json) (cache : CacheAccess)

/-- The counters of a set, which is zero until it is first used. -/
def World.countersOf (world : World) (name : String) : Counters :=
  (world.counters.get? name).getD .zero

namespace Provider

/-- What the provider of a cache says about it. -/
def cacheInfo (description : String) (stats : CacheStats) : Json := .ofMembers [
  ("description", .string description), ("entries", .natural stats.size.toNat),
  ("capacity", .ofOption (stats.capacity.map fun capacity => .natural capacity.toNat)),
  ("hit_ratio", stats.ratioJson)]

/-- What the daemon says about itself after running for some time. -/
def daemonInfo (world : World) (running : Duration) : Json := .ofMembers [
  ("version", .string version), ("uptime_secs", .natural (running.seconds)),
  ("requests_served", .natural world.statistics.served.toNat),
  ("requests_failed", .natural world.statistics.failed.toNat),
  ("providers", .natural world.registered)]

/-- Asks a provider for its information. -/
def info (world : World) : Provider → Call Json
  | service entry => .answer entry.toJson
  | cache description counters capacity =>
    .answer (cacheInfo description ((world.countersOf counters).stats capacity))
  | daemon started orphan =>
    if orphan then .failure (.failed "registry dropped")
    else .answer (daemonInfo world ⟨world.clock.nanoseconds - started.nanoseconds⟩)
  | scripted call _ => call

/-- Asks a provider for its cache. -/
def cacheAccess (world : World) : Provider → CacheAccess
  | service _ => .absent
  | cache _ counters capacity => .present (.answer ((world.countersOf counters).stats capacity))
  | daemon _ _ => .absent
  | scripted _ access => access

end Provider

end StatQuery
