import StatQuery.Duration
import StatQuery.Json.Basic

/-!
# Configuration

What the daemon is told: where to listen, how much to log, whether to answer at all and how long to
wait for a provider, and the services to describe. Everything has a default.
-/

namespace StatQuery

/-- The description of one service. -/
structure ServiceEntry where
  appName : String
  description : String
  /-- The name of this instance of the application. -/
  instanceName : String
  /-- Where the list of hosts that run the service is found. -/
  hostsUrl : String
  controlPort : UInt16
  deriving DecidableEq, Repr, Inhabited

/-- A description that says nothing. -/
def ServiceEntry.blank : ServiceEntry := ⟨"", "", "", "", 0⟩

/-- The configuration of a daemon. -/
structure Config where
  /-- Where queries are received. -/
  statsEndpoint : String
  /-- A level or a filter for the log. -/
  logLevel : String
  /-- Whether queries are received at all. -/
  enabled : Bool
  /-- How long a provider may take, in milliseconds; zero sets no limit. -/
  providerTimeoutMs : UInt64
  /-- The services by handle. -/
  services : Dict ServiceEntry
  deriving DecidableEq, Inhabited

namespace Config

/-- The configuration when nothing is said. -/
def default : Config where
  statsEndpoint := "tcp://*:3333"
  logLevel := "info"
  enabled := true
  providerTimeoutMs := 0
  services := .empty

/-- The limit on each call of a provider, if there is one. -/
def providerLimit (config : Config) : Option Duration :=
  if config.providerTimeoutMs = 0 then none
  else some (.ofMilliseconds config.providerTimeoutMs.toNat)

end Config

/-- A description as a value. -/
def ServiceEntry.toJson (entry : ServiceEntry) : Json := .ofMembers [
  ("app_name", .string entry.appName), ("description", .string entry.description),
  ("instance", .string entry.instanceName), ("hosts_url", .string entry.hostsUrl),
  ("control_port", .natural entry.controlPort.toNat)]

/-- The sections of a configuration as values. -/
def Config.toDict (config : Config) : Dict Json := .ofList [
  ("bind", .ofMembers [("stats_endpoint", .string config.statsEndpoint)]),
  ("telemetry", .ofMembers [("log_level", .string config.logLevel)]),
  ("statistics", .ofMembers [("enabled", .boolean config.enabled),
    ("provider_timeout_ms", .natural config.providerTimeoutMs.toNat)]),
  ("services", .ofDict (config.services.map ServiceEntry.toJson))]

/-- A configuration as a value. -/
def Config.toJson (config : Config) : Json := .ofDict config.toDict

end StatQuery
