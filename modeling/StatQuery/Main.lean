import StatQuery.CommandLine.Server

/-!
The command of the daemon: gathers the files, the environment and the time that a run depends on, and
carries out what the run comes to.
-/

open StatQuery

/-- What is found at a path. -/
def readContent (path : String) : IO Config.FileContent := do
  try
    return .bytes (← IO.FS.readBinFile path).toList
  catch
    | .inappropriateType .. => return .directory
    | _ => return .missing

/-- The configuration file of the user, if it is known where that would be. -/
def userConfigFile : IO (Option String) := do
  match ← IO.getEnv "XDG_CONFIG_HOME" with
  | some directory =>
    if directory.startsWith "/" then return some s!"{directory}/{Config.userFileName}"
  | none => pure ()
  return (← IO.getEnv "HOME").map fun home => s!"{home}/.config/{Config.userFileName}"

/-- The variables that a configuration looks at. -/
def readEnvironment : IO Config.Environment := do
  let names := Config.overrides.map Config.Override.name
  let values ← names.filterMapM fun name => do
    return (← IO.getEnv name).map fun value => (name, value)
  return Dict.ofList values

/-- What is found at the paths that a configuration may come from. -/
def readFiles (paths : List String) : IO Config.FileView := do
  let contents ← paths.mapM fun path => do return (path, ← readContent path)
  return fun path => (Entries.get? path contents).getD .missing

/-- The file that the words ask for, if they do. -/
def askedFile (words : List String) : Option String :=
  match Server.parse words with
  | .read arguments => arguments.configFile
  | _ => none

def main (words : List String) : IO UInt32 := do
  let userFile ← userConfigFile
  let paths := [Config.systemFile, Config.localFile] ++ userFile.toList ++ (askedFile words).toList
  let view ← readFiles paths
  let environment ← readEnvironment
  let clock : Duration := ⟨← IO.monoNanosNow⟩
  let run := Server.run view userFile environment clock words
  match run with
  | .printed text => IO.print text
  | .failed failure => IO.eprintln failure.message
  | .misused => IO.eprintln "the arguments make no sense"
  | .disabled => pure ()
  | .listening endpoint _ => IO.eprintln s!"failed to bind stats socket to {endpoint}"
  return (run.exitCode?.getD 1).toUInt32
