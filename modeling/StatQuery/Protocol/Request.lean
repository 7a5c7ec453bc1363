import StatQuery.Protocol.Error
import StatQuery.Json.Record
import StatQuery.Json.Writer

/-!
# Requests

A request names an action and, for some actions, the handle of a provider. On the wire it is a JSON
record of which every field may be missing: a missing version means the current one, and a missing
action is an error only once the version has been accepted.
-/

namespace StatQuery

/-- The one version of the protocol. -/
def protocolVersion : UInt32 := 1

/-- The handle that means every registered provider. -/
def allHandles : String := "all"

/-- What a request asks for. An unknown spelling is kept, so that it can be reported. -/
inductive Action where
  /-- Information on every provider. -/
  | allServices
  /-- Information on one provider, or on all of them. -/
  | info
  /-- The counters of the providers that have a cache. -/
  | cacheStats
  /-- The configuration in effect. -/
  | config
  | other (name : String)
  deriving DecidableEq, Repr, Inhabited

namespace Action

/-- The action with a spelling, which is matched exactly. -/
def ofName (name : String) : Action :=
  if name = "all_services" then allServices
  else if name = "info" then info
  else if name = "cache_stats" then cacheStats
  else if name = "config" then config
  else other name

/-- The spelling of an action. -/
def name : Action → String
  | allServices => "all_services"
  | info => "info"
  | cacheStats => "cache_stats"
  | config => "config"
  | other name => name

/-- Every spelling names an action that is spelled so. -/
@[simp] theorem name_ofName (s : String) : (ofName s).name = s := by
  unfold ofName
  repeat' split
  all_goals simp_all [name]

end Action

/-- A query. -/
structure Request where
  version : UInt32
  action : Action
  handle : Option String
  deriving DecidableEq, Repr, Inhabited

namespace Request

/-- A request of the current version. -/
def ofAction (action : Action) (handle : Option String) : Request :=
  ⟨protocolVersion, action, handle⟩

/-- Whether the request concerns every provider: the handle is absent or means all. -/
def targetsAll (request : Request) : Bool :=
  match request.handle with
  | none => true
  | some handle => handle = allHandles

/-- The fields of a request met so far; a field met as `null` is present without a value. -/
structure Draft where
  version : Option (Option UInt64)
  action : Option (Option String)
  handle : Option (Option String)

/-- A request as written: any field may be absent or `null`. -/
structure Wire where
  version : Option UInt64
  action : Option String
  handle : Option String
  deriving DecidableEq, Repr

open Json in
/-- The record that a request is written as. -/
def wireRecord : Record Draft Wire where
  title := "WireRequest"
  fields := [
    { name := "version"
      read := fun draft => do return { draft with version := some (← Reader.optional Reader.unsigned) }
      isPresent := fun draft => draft.version.isSome
      required := false },
    { name := "action"
      read := fun draft => do return { draft with action := some (← Reader.optional Reader.text) }
      isPresent := fun draft => draft.action.isSome
      required := false },
    { name := "handle"
      read := fun draft => do return { draft with handle := some (← Reader.optional Reader.text) }
      isPresent := fun draft => draft.handle.isSome
      required := false }]
  draft := ⟨none, none, none⟩
  build := fun draft => ⟨draft.version.join, draft.action.join, draft.handle.join⟩

/-- The request that a wire record stands for. The version is checked before the action. -/
def ofWire (wire : Wire) : Except ProtocolError Request :=
  let version := wire.version.getD protocolVersion.toUInt64
  if version ≠ protocolVersion.toUInt64 then
    .error (.unsupportedVersion version protocolVersion)
  else
    match wire.action with
    | none => .error (.missingField "action")
    | some name => .ok ⟨protocolVersion, Action.ofName name, wire.handle⟩

/-- Reads a request frame. -/
def decode (frame : List UInt8) : Except ProtocolError Request :=
  match wireRecord.read.run frame with
  | .error e => .error (.malformedRequest e.message)
  | .ok wire => ofWire wire

/-- The members of a request as written: the version always, the handle if there is one. -/
def members (request : Request) : List (String × Json) :=
  ("version", .natural request.version.toNat) :: ("action", .string request.action.name) ::
    match request.handle with
    | none => []
    | some handle => [("handle", .string handle)]

/-- The text of a request. -/
def text (request : Request) : String := (Json.object request.members).compact

/-- Writes a request frame. -/
def encode (request : Request) : List UInt8 := Utf8.encode request.text

end Request

end StatQuery
