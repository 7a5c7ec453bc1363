import StatQuery.Daemon.Dispatch

/-!
# Starting a daemon

A daemon starts with a provider for itself and one for each service of its configuration. A service
cannot have the daemon's own handle.
-/

namespace StatQuery

/-- The handle of the provider that reports on the daemon. -/
def daemonHandle : String := "tally"

/-- A service that cannot be registered. -/
structure StartError where
  service : String
  cause : RegistryError
  deriving DecidableEq, Repr

def StartError.message (error : StartError) : String :=
  s!"failed to register service '{error.service}': {error.cause.message}"

namespace Registry

/-- Registers the providers of services, in order. -/
def registerServices (registry : Registry) :
    List (String × ServiceEntry) → Except StartError Registry
  | [] => .ok registry
  | (name, entry) :: rest =>
    match registry.register name (.service entry) with
    | .error cause => .error ⟨name, cause⟩
    | .ok registry => registry.registerServices rest

end Registry

/-- The daemon of a configuration, started at a moment. -/
def Daemon.start (config : Config) (clock : Duration) : Except StartError Daemon :=
  let registry : Registry := Dict.empty.insert daemonHandle (.daemon clock false)
  match registry.registerServices config.services.entries with
  | .error error => .error error
  | .ok registry =>
    .ok { Daemon.idle config.providerLimit config.toDict with registry := registry, clock := clock }

end StatQuery
