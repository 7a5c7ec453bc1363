import StatQuery.Daemon.Dispatch
import StatQuery.Config.Reading

/-!
# Sessions with a daemon

A session is a run of steps against one daemon: providers come and go, snapshots of the registry are
taken under names, caches are used, and queries arrive. Each step has one answer and leads to the next
state.
-/

namespace StatQuery

/-- What a provider is to be made of. -/
inductive ProviderSource where
  /-- A service whose description is written as a value. -/
  | service (entry : Json)
  | cache (description counters : String) (capacity : Option UInt64)
  /-- The daemon itself, with or without a registry to look at. -/
  | daemon (orphan : Bool)
  | scripted (info : Call Json) (cache : CacheAccess)
  /-- A provider that was kept under a name. -/
  | saved (name : String)

namespace Session

/-- A step of a session. -/
inductive Step where
  | register (handle : String) (source : ProviderSource)
  /-- Takes a provider out and keeps it under a name, unless that is empty. -/
  | unregister (handle name : String)
  /-- Finds a provider and keeps it under a name, unless that is empty. -/
  | lookup (handle name : String)
  | contains (handle : String)
  | listRegistry
  | takeSnapshot (name : String)
  | copySnapshot (source name : String)
  | dropSnapshot (name : String)
  | listSnapshot (name : String)
  | findInSnapshot (name handle : String)
  /-- Asks every provider of a snapshot for its information, with neither guard nor limit. -/
  | askSnapshot (name : String)
  /-- A frame arrives. -/
  | frame (frame : List UInt8)
  /-- A request is answered without being counted. -/
  | dispatch (request : Request)
  /-- A cache with some capacity is used. -/
  | useCache (counters : String) (activity : Counters.Activity) (capacity : Option UInt64)
  | statistics

/-- Why a step is refused. -/
inductive StepError where
  | registry (error : RegistryError)
  /-- The description of a service has a fault. -/
  | entry (fault : Fault)
  | noSuchSnapshot
  | nothingSaved
  deriving DecidableEq, Repr

def StepError.message : StepError → String
  | registry error => error.message
  | entry fault => fault.mismatch.message
  | noSuchSnapshot => "no such snapshot"
  | nothingSaved => "nothing saved"

/-- What asking a provider of a snapshot showed. -/
inductive Shown where
  | value (value : Json)
  | error (error : ProviderError)
  | crashed
  deriving DecidableEq

/-- The answer to a step. -/
inductive Answer where
  | done
  | truth (b : Bool)
  /-- The handles of the registry. -/
  | registry (handles : List String)
  /-- The handles of a snapshot. -/
  | snapshot (handles : List String)
  | information (shown : Dict Shown)
  | reply (response : Response)
  | crashed (crash : Crash)
  | cache (stats : CacheStats)
  | statistics (statistics : Statistics)
  | refused (error : StepError)
  deriving DecidableEq

/-- The text that shows the handles of a registry. -/
def registryText (handles : List String) : String :=
  s!"ProviderRegistry \x7b handles: {Quoted.encodeList handles} \x7d"

end Session

/-- A daemon, snapshots of its registry, and providers that were kept. -/
structure Session where
  daemon : Daemon
  snapshots : Dict Registry
  saved : Dict Provider

namespace Session

/-- A session in which nothing has been kept yet. -/
def ofDaemon (daemon : Daemon) : Session := ⟨daemon, .empty, .empty⟩

/-- Makes a provider. -/
def makeProvider (session : Session) : ProviderSource → Except StepError Provider
  | .service value =>
    match ServiceEntry.ofJson value with
    | .ok entry => .ok (.service entry)
    | .error fault => .error (.entry fault)
  | .cache description counters capacity => .ok (.cache description counters capacity)
  | .daemon orphan => .ok (.daemon session.daemon.clock orphan)
  | .scripted info cache => .ok (.scripted info cache)
  | .saved name =>
    match session.saved.get? name with
    | some provider => .ok provider
    | none => .error .nothingSaved

/-- The session with a provider kept under a name, unless that is empty. -/
def save (session : Session) (name : String) (provider : Provider) : Session :=
  if name = "" then session else { session with saved := session.saved.insert name provider }

/-- The session with another registry. -/
def setRegistry (session : Session) (registry : Registry) : Session :=
  { session with daemon := { session.daemon with registry := registry } }

/-- What a provider shows when it is asked without any guard. -/
def shown (world : World) (provider : Provider) : Shown :=
  match (provider.info world).unguarded with
  | .error _ => .crashed
  | .ok (.error error) => .error error
  | .ok (.ok value) => .value value

/-- The answer from a snapshot, which must exist. -/
def fromSnapshot (session : Session) (name : String) (answer : Registry → Answer) : Answer :=
  match session.snapshots.get? name with
  | some registry => answer registry
  | none => .refused .noSuchSnapshot

/-- Registers a provider. -/
def register (session : Session) (handle : String) (source : ProviderSource) : Answer × Session :=
  match session.makeProvider source with
  | .error error => (.refused error, session)
  | .ok provider =>
    match session.daemon.registry.register handle provider with
    | .error error => (.refused (.registry error), session)
    | .ok registry => (.done, session.setRegistry registry)

/-- Takes one step. -/
def step (session : Session) : Step → Answer × Session
  | .register handle source => session.register handle source
  | .unregister handle name =>
    match session.daemon.registry.unregister handle with
    | .error error => (.refused (.registry error), session)
    | .ok (provider, registry) => (.done, (session.setRegistry registry).save name provider)
  | .lookup handle name =>
    match session.daemon.registry.lookup handle with
    | .error error => (.refused (.registry error), session)
    | .ok provider => (.done, session.save name provider)
  | .contains handle => (.truth (session.daemon.registry.contains handle), session)
  | .listRegistry => (.registry session.daemon.registry.keys, session)
  | .takeSnapshot name =>
    (.done, { session with snapshots := session.snapshots.insert name session.daemon.registry })
  | .copySnapshot source name =>
    match session.snapshots.get? source with
    | some registry => (.done, { session with snapshots := session.snapshots.insert name registry })
    | none => (.refused .noSuchSnapshot, session)
  | .dropSnapshot name =>
    (.truth (session.snapshots.contains name),
      { session with snapshots := session.snapshots.erase name })
  | .listSnapshot name => (session.fromSnapshot name fun registry => .snapshot registry.keys, session)
  | .findInSnapshot name handle =>
    (session.fromSnapshot name fun registry => .truth (registry.contains handle), session)
  | .askSnapshot name =>
    (session.fromSnapshot name fun registry =>
      .information (registry.map (shown session.daemon.world)), session)
  | .frame frame =>
    let (response, daemon) := session.daemon.handleFrame frame
    (.reply response, { session with daemon := daemon })
  | .dispatch request =>
    match session.daemon.dispatch request with
    | .ok response => (.reply response, session)
    | .error crash => (.crashed crash, session)
  | .useCache name activity capacity =>
    let counters := (session.daemon.world.countersOf name).record activity
    (.cache (counters.stats capacity),
      { session with daemon := { session.daemon with
          counters := session.daemon.counters.insert name counters } })
  | .statistics => (.statistics session.daemon.statistics, session)

/-- The answers to some steps, and the session after them. -/
def run (session : Session) : List Step → List Answer × Session
  | [] => ([], session)
  | step :: steps =>
    let (answer, session) := session.step step
    let (answers, session) := session.run steps
    (answer :: answers, session)

end Session

end StatQuery
