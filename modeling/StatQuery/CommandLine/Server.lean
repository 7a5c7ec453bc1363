import StatQuery.CommandLine.LogFilter
import StatQuery.CommandLine.Options
import StatQuery.Config.Sources
import StatQuery.Daemon.Start
import StatQuery.Endpoint

/-!
# The command line of the daemon

The command loads the configuration, lets its own options replace values, and then prints it, stops
because answering is switched off, or listens. What it does is decided here from the words, the files
and the environment, and `Run` says what that comes to.
-/

namespace StatQuery.Server

open CommandLine

/-- What the words ask for. -/
structure Arguments where
  /-- The configuration file to use in place of the local one. -/
  configFile : Option String
  bind : Option String
  providerTimeoutMs : Option UInt64
  showConfig : Bool
  deriving DecidableEq, Repr

/-- The options of the command. -/
def grammar : Grammar where
  options := [
    ⟨"config", some fun value => value ≠ ""⟩,
    ⟨"bind", some fun _ => true⟩,
    ⟨"provider-timeout-ms", some fun value => (Config.number? value).isSome⟩,
    ⟨"show-config", none⟩]
  hasVersion := true
  operands := 0
  commands := []

/-- Reads the words of a command line. -/
def parse (words : List String) : Outcome Arguments :=
  match scan grammar words .nothing with
  | .refused => .refused
  | .version => .version
  | .read scanned => .read {
      configFile := scanned.values.get? "config"
      bind := scanned.values.get? "bind"
      providerTimeoutMs := (scanned.values.get? "provider-timeout-ms").bind Config.number?
      showConfig := scanned.values.contains "show-config" }

/-- The configuration with the values that options replace. -/
def Arguments.override (arguments : Arguments) (config : Config) : Config :=
  { config with
    statsEndpoint := arguments.bind.getD config.statsEndpoint
    providerTimeoutMs := arguments.providerTimeoutMs.getD config.providerTimeoutMs }

/-- Why the command fails. -/
inductive Failure where
  | config (error : ConfigError)
  | logFilter (filter : String)
  | start (error : StartError)
  deriving DecidableEq, Repr

def Failure.message : Failure → String
  | config error => s!"failed to load config: {error.message}"
  | logFilter filter => s!"invalid log level '{filter}'"
  | start error => error.message

/-- What the command comes to. -/
inductive Run where
  /-- The words make no sense. -/
  | misused
  /-- It prints something and is done. -/
  | printed (text : String)
  | failed (failure : Failure)
  /-- Answering is switched off. -/
  | disabled
  /-- It listens on an endpoint and answers as the daemon. -/
  | listening (endpoint : String) (daemon : Daemon)

/-- Whether the log can be set up: by the variable for it, or else by the configuration. -/
def logAccepted (environment : Config.Environment) (config : Config) : Bool :=
  match environment.get? "RUST_LOG" with
  | some filter => LogFilter.accepts filter || LogFilter.accepts config.logLevel
  | none => LogFilter.accepts config.logLevel

/-- What comes of a configuration. -/
def runConfig (arguments : Arguments) (environment : Config.Environment) (clock : Duration)
    (config : Config) : Run :=
  if arguments.showConfig then
    match config.write with
    | .ok text => .printed text
    | .error error => .failed (.config error)
  else if !logAccepted environment config then .failed (.logFilter config.logLevel)
  else if !config.enabled then .disabled
  else
    match Daemon.start config clock with
    | .error error => .failed (.start error)
    | .ok daemon => .listening (Endpoint.listening config.statsEndpoint) daemon

/-- The configuration that the command ends up with. -/
def effectiveConfig (view : Config.FileView) (userFile : Option String)
    (environment : Config.Environment) (arguments : Arguments) : Except ConfigError Config :=
  match Config.loadSources view userFile arguments.configFile environment with
  | .error error => .error error
  | .ok loaded => .ok (arguments.override loaded.config)

/-- What comes of a command line. -/
def run (view : Config.FileView) (userFile : Option String) (environment : Config.Environment)
    (clock : Duration) (words : List String) : Run :=
  match parse words with
  | .refused => .misused
  | .version => .printed s!"tally {version}\n"
  | .read arguments =>
    match effectiveConfig view userFile environment arguments with
    | .error error => .failed (.config error)
    | .ok config => runConfig arguments environment clock config

/-- The exit code of a command that does not listen. -/
def Run.exitCode? : Run → Option UInt8
  | misused => some 2
  | printed _ => some 0
  | failed _ => some 1
  | disabled => some 0
  | listening _ _ => none

end StatQuery.Server
