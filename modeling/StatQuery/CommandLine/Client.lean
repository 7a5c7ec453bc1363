import StatQuery.CommandLine.Options
import StatQuery.Config.Environment
import StatQuery.Protocol.Request
import StatQuery.Protocol.Response
import StatQuery.Provider.Basic

/-!
# The command line of the client

The client sends one request to a daemon and prints the reply. Some options may stand before the
command or after it; given in both places, the later one counts.
-/

namespace StatQuery.Client

open CommandLine

/-- What is asked of the daemon. -/
inductive Command where
  | allServices
  | info (handle : String)
  | cacheStats (handle : Option String)
  | config
  /-- A frame written by hand. -/
  | raw (frame : String)
  deriving DecidableEq, Repr

/-- The frame that a command sends. -/
def Command.frame : Command → List UInt8
  | allServices => (Request.ofAction .allServices none).encode
  | info handle => (Request.ofAction .info (some handle)).encode
  | cacheStats handle => (Request.ofAction .cacheStats handle).encode
  | config => (Request.ofAction .config none).encode
  | raw frame => Utf8.encode frame

/-- What the words ask for. -/
structure Arguments where
  endpoint : String
  /-- How long to wait for the reply, in milliseconds. -/
  timeoutMs : UInt64
  compact : Bool
  command : Command
  deriving DecidableEq, Repr

/-- The endpoint of a daemon on the same host. -/
def defaultEndpoint : String := "tcp://localhost:3333"

/-- The options that may stand anywhere. -/
def globalOptions : List OptionKind := [
  ⟨"endpoint", some fun _ => true⟩,
  ⟨"timeout-ms", some fun value => (Config.number? value).isSome⟩,
  ⟨"compact", none⟩]

/-- What may stand before the command. -/
def grammar : Grammar where
  options := globalOptions
  hasVersion := true
  operands := 0
  commands := ["all-services", "info", "cache-stats", "config", "raw"]

/-- What may stand after a command. -/
def commandGrammar (name : String) : Grammar where
  options :=
    if name = "info" || name = "cache-stats" then
      ⟨"handle", some fun _ => true⟩ :: globalOptions
    else globalOptions
  hasVersion := false
  operands := if name = "raw" then 1 else 0
  commands := []

/-- The command of a name with what was read after it. -/
def command? (name : String) (scanned : Scanned) : Option Command :=
  let handle := scanned.values.get? "handle"
  if name = "all-services" then some .allServices
  else if name = "info" then some (.info (handle.getD allHandles))
  else if name = "cache-stats" then some (.cacheStats handle)
  else if name = "config" then some .config
  else scanned.operands.head?.map .raw

/-- What was read before a command and after it; `environmentEndpoint` is the endpoint that the
environment sets. -/
def arguments? (environmentEndpoint : Option String) (name : String) (before after : Scanned) :
    Option Arguments := do
  let value? (name : String) := (after.values.get? name).or (before.values.get? name)
  let command ← command? name after
  return {
    endpoint := (value? "endpoint").getD (environmentEndpoint.getD defaultEndpoint)
    timeoutMs := ((value? "timeout-ms").bind Config.number?).getD 5000
    compact := (value? "compact").isSome
    command := command }

/-- Reads the words of a command line. -/
def parse (environmentEndpoint : Option String) (words : List String) : Outcome Arguments :=
  match scan grammar words .nothing with
  | .refused => .refused
  | .version => .version
  | .read before =>
    match before.command with
    | none => .refused
    | some (name, rest) =>
      match scan (commandGrammar name) rest .nothing with
      | .read after =>
        match arguments? environmentEndpoint name before after with
        | some arguments => .read arguments
        | none => .refused
      | _ => .refused

/-- What the client prints of a reply. -/
def render (compact : Bool) (response : Response) : String :=
  if compact then response.text else response.prettyText

/-- What a command line comes to. -/
structure Run where
  exitCode : UInt8
  output : String
  errors : String
  deriving DecidableEq, Repr

/-- What is printed in red. -/
def red (text : String) : String := s!"\x1b[31m{text}\x1b[39m"

/-- What comes of a reply: a failure is also told by the exit code, and its code goes to the
errors. -/
def report (compact : Bool) (response : Response) : Run :=
  let output := render compact response ++ "\n"
  if response.ok then ⟨0, output, ""⟩
  else ⟨1, output, (response.error.map fun code => red code ++ "\n").getD ""⟩

/-- A way to send a frame to an endpoint and wait some milliseconds for the reply. -/
abbrev Transport := (endpoint : String) → (timeoutMs : UInt64) → (frame : List UInt8) →
  Option (List UInt8)

/-- What comes of a command line. -/
def run (transport : Transport) (environmentEndpoint : Option String) (words : List String) : Run :=
  match parse environmentEndpoint words with
  | .refused => ⟨2, "", ""⟩
  | .version => ⟨0, s!"tallyctl {version}\n", ""⟩
  | .read arguments =>
    match transport arguments.endpoint arguments.timeoutMs arguments.command.frame with
    | none => ⟨1, "", ""⟩
    | some reply =>
      match Response.decode reply with
      | .error _ => ⟨1, "", ""⟩
      | .ok response => report arguments.compact response

end StatQuery.Client
