import StatQuery.Daemon.Error
import StatQuery.Protocol.Request

/-!
# Answering queries

The daemon answers each frame with one reply. Queries over several providers ask them one by one, in
handle order and each under the same limit; a provider without an answer is noted among the errors and
takes nothing from the others. A crash that gets past the guard around a provider ends the whole query.
Answering changes nothing but the statistics.
-/

namespace StatQuery

/-- The statistics after one more reply. -/
def Statistics.record (statistics : Statistics) (response : Response) : Statistics :=
  ⟨statistics.served + 1, if response.ok then statistics.failed else statistics.failed + 1⟩

/-- The state of a daemon. -/
structure Daemon where
  registry : Registry
  statistics : Statistics
  counters : Dict Counters
  /-- How long each call of a provider may take. -/
  limit : Option Duration
  /-- What the daemon says about its configuration. -/
  configView : Dict Json
  clock : Duration

namespace Daemon

/-- A daemon that knows no provider and has answered nothing. -/
def idle (limit : Option Duration) (configView : Dict Json) : Daemon :=
  ⟨.empty, .zero, .empty, limit, configView, ⟨0⟩⟩

/-- What the daemon's providers see. -/
def world (daemon : Daemon) : World :=
  ⟨daemon.counters, daemon.statistics, daemon.registry.size, daemon.clock⟩

/-- The information of one provider, as seen under the guard. -/
def infoOutcome (daemon : Daemon) (provider : Provider) :
    Except Crash (Except ProviderError Json) :=
  (provider.info daemon.world).guarded daemon.limit

/-- The counters of one provider, as seen under the guard, if it has a cache. -/
def cacheOutcome (daemon : Daemon) (provider : Provider) :
    Except Crash (Option (Except ProviderError CacheStats)) :=
  match provider.cacheAccess daemon.world with
  | .absent => .ok none
  | .crashed crash => .ok (some (.error (.crashed crash.text)))
  | .present call => (call.guarded daemon.limit).map some

/-- The value of an outcome. -/
def outcomeValue? {α : Type} : Except ProviderError α → Option α
  | .ok value => some value
  | .error _ => none

/-- The note on an outcome without a value. -/
def outcomeNote? {α : Type} : Except ProviderError α → Option String
  | .ok _ => none
  | .error error => some error.message

/-- The reply that holds the values and the notes of some outcomes. -/
def report (outcomes : Dict (Except ProviderError Json)) : Response :=
  .partialSuccess (outcomes.filterMap outcomeValue?) (outcomes.filterMap outcomeNote?)

/-- The information of every provider. -/
def allInfo (daemon : Daemon) : Except Crash Response := do
  return report (← daemon.registry.traverse daemon.infoOutcome)

/-- The information of the provider under a handle. -/
def singleInfo (daemon : Daemon) (handle : String) : Except Crash (Except QueryError Response) :=
  match daemon.registry.lookup handle with
  | .error error => .ok (.error (.ofRegistry error))
  | .ok provider =>
    match daemon.infoOutcome provider with
    | .error crash => .error crash
    | .ok (.error error) => .ok (.error (.providerFailure handle error))
    | .ok (.ok value) => .ok (.ok (.success (Dict.empty.insert handle value)))

/-- The counters of those providers that have a cache. -/
def cacheReport (daemon : Daemon) (targets : Dict Provider) : Except Crash Response := do
  let outcomes ← targets.traverse daemon.cacheOutcome
  return report ((outcomes.filterMap id).map fun outcome => outcome.map CacheStats.toJson)

/-- The counters that a request asks for: of every provider, or of one that must exist but need not
have a cache. -/
def cacheStats (daemon : Daemon) (request : Request) : Except Crash (Except QueryError Response) :=
  if request.targetsAll then (daemon.cacheReport daemon.registry).map .ok
  else
    let handle := request.handle.getD ""
    match daemon.registry.lookup handle with
    | .error error => .ok (.error (.ofRegistry error))
    | .ok provider => (daemon.cacheReport (Dict.empty.insert handle provider)).map .ok

/-- The outcome of a request. Its version has been checked when it was read. -/
def outcome (daemon : Daemon) (request : Request) : Except Crash (Except QueryError Response) :=
  match request.action with
  | .allServices => daemon.allInfo.map .ok
  | .info =>
    match request.handle with
    | none => .ok (.error (.protocol (.missingField "handle")))
    | some handle =>
      if handle = allHandles then daemon.allInfo.map .ok else daemon.singleInfo handle
  | .cacheStats => daemon.cacheStats request
  | .config => .ok (.ok (.success daemon.configView))
  | .other name => .ok (.error (.unknownAction name))

/-- The reply that an outcome leads to. -/
def replyOf : Except QueryError Response → Response
  | .ok response => response
  | .error error => error.response

/-- The reply to a request, unless a crash gets past the guard. -/
def dispatch (daemon : Daemon) (request : Request) : Except Crash Response :=
  (daemon.outcome request).map replyOf

/-- The reply to a frame. -/
def answerFrame (daemon : Daemon) (frame : List UInt8) : Response :=
  match Request.decode frame with
  | .error error => (QueryError.protocol error).response
  | .ok request =>
    match daemon.dispatch request with
    | .ok response => response
    | .error crash => (QueryError.internal crash.text).response

/-- The reply to a frame, and the daemon that has counted it. -/
def handleFrame (daemon : Daemon) (frame : List UInt8) : Response × Daemon :=
  let response := daemon.answerFrame frame
  (response, { daemon with statistics := daemon.statistics.record response })

/-- The reply to a message as a frame: only the last part of the message is a request. -/
def handleMessage (daemon : Daemon) (parts : List (List UInt8)) : List UInt8 × Daemon :=
  let (response, daemon) := daemon.handleFrame (parts.getLast?.getD [])
  (response.encode, daemon)

end Daemon

end StatQuery
