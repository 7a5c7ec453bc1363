import StatQuery.Config.Basic
import StatQuery.Config.Error
import StatQuery.Toml.Writer
import StatQuery.Decimal.Power

/-!
# A configuration as text

The text mentions every value of a configuration, so that reading it back over anything else yields
the same configuration. Numbers of a configuration file have a sign and 64 bits, which is too few for
some limits; those have no text.
-/

namespace StatQuery.Config

open Toml.Writer

/-- The section that describes a service. -/
def serviceSection (name : String) (entry : ServiceEntry) : Section where
  path := ["services", name]
  settings := [("app_name", .text entry.appName), ("description", .text entry.description),
    ("instance", .text entry.instanceName), ("hosts_url", .text entry.hostsUrl),
    ("control_port", .number entry.controlPort.toNat)]

/-- The sections on the services, or an empty one if there are none. -/
def serviceSections (services : Dict ServiceEntry) : List Section :=
  if services.isEmpty then [⟨["services"], []⟩]
  else services.entries.map fun entry => serviceSection entry.1 entry.2

/-- The sections of a configuration. -/
def sections (config : Config) : List Section :=
  ⟨["bind"], [("stats_endpoint", .text config.statsEndpoint)]⟩ ::
    ⟨["telemetry"], [("log_level", .text config.logLevel)]⟩ ::
    ⟨["statistics"], [("enabled", .flag config.enabled),
      ("provider_timeout_ms", .number config.providerTimeoutMs.toNat)]⟩ ::
    serviceSections config.services

/-- The largest number of a configuration file. -/
def maxNumber : Nat := twoTo 63 - 1

/-- The text of a configuration, if its limit can be written. -/
def text? (config : Config) : Option String :=
  if config.providerTimeoutMs.toNat ≤ maxNumber then
    some ("# Tally Configuration\n\n" ++ String.ofList (blocks config.sections))
  else none

/-- The text of a configuration, or why there is none. -/
def write (config : Config) : Except ConfigError String :=
  match config.text? with
  | some text => .ok text
  | none => .error .unwritable

end StatQuery.Config
