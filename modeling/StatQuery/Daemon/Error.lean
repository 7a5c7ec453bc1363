import StatQuery.Protocol.Response
import StatQuery.Registry

/-!
# Query errors

Why a query is answered with a failure. The answer carries the error's code, on which callers match,
and its message.
-/

namespace StatQuery

/-- Why a query is answered with a failure. -/
inductive QueryError where
  | protocol (error : ProtocolError)
  | unknownAction (name : String)
  | unknownHandle (handle : String)
  | providerFailure (handle : String) (source : ProviderError)
  /-- The daemon itself went wrong. -/
  | internal (reason : String)
  deriving DecidableEq, Repr

namespace QueryError

/-- What a registry error means to a query: to find no provider is the caller's fault, and anything
else is not. -/
def ofRegistry : RegistryError → QueryError
  | .unknownHandle handle => unknownHandle handle
  | error => internal error.message

def code : QueryError → String
  | protocol error => error.code
  | unknownAction _ => "UnknownAction"
  | unknownHandle _ => "UnknownHandle"
  | providerFailure _ _ => "ProviderFailure"
  | internal _ => "InternalError"

def message : QueryError → String
  | protocol error => error.message
  | unknownAction name => s!"unknown action '{name}'"
  | unknownHandle handle => s!"unknown handle '{handle}'"
  | providerFailure handle source => s!"provider '{handle}' failed: {source.message}"
  | internal reason => s!"internal error: {reason}"

/-- The answer that reports the error. -/
def response (error : QueryError) : Response := .failure error.code error.message

end QueryError

end StatQuery
