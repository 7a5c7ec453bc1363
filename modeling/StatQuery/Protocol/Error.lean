import StatQuery.Json.Cursor

/-!
# Protocol errors

Why a message of the query protocol cannot be read. Each error has a bare code, on which scripts
match, and a message for people.
-/

namespace StatQuery

/-- Why a request or a reply is refused. -/
inductive ProtocolError where
  | malformedRequest (reason : String)
  | unsupportedVersion (found : UInt64) (supported : UInt32)
  | missingField (name : String)
  | malformedResponse (reason : String)
  deriving DecidableEq, Repr

namespace ProtocolError

def code : ProtocolError → String
  | malformedRequest _ => "MalformedRequest"
  | unsupportedVersion _ _ => "UnsupportedVersion"
  | missingField _ => "MissingField"
  | malformedResponse _ => "MalformedResponse"

def message : ProtocolError → String
  | malformedRequest reason => s!"malformed request: {reason}"
  | unsupportedVersion found supported =>
    s!"unsupported protocol version {found} (supported: {supported})"
  | missingField name => s!"missing required field '{name}'"
  | malformedResponse reason => s!"malformed response: {reason}"

end ProtocolError

end StatQuery
