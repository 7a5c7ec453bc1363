import StatQuery.Config.Environment
import StatQuery.Config.Layers

/-!
# Where a configuration comes from

The files of the system, of the user and of the working directory are laid over one another, as far as
they exist, and the environment comes last. A file that is asked for takes the place of the one in the
working directory, unless it does not exist.
-/

namespace StatQuery.Config

/-- What is found at each path. -/
abbrev FileView := String → FileContent

/-- Whether there is anything at a path. -/
def FileView.exists (view : FileView) (path : String) : Bool := view path ≠ .missing

/-- The file of the system. -/
def systemFile : String := "/etc/tally/config.toml"

/-- The file of the user, inside the directory for configurations. -/
def userFileName : String := "tally/config.toml"

/-- The file of the working directory. -/
def localFile : String := "tally.toml"

/-- The files that exist, from the lowest to the highest. -/
def discover (view : FileView) (userFile asked : Option String) : List String :=
  let lower := (systemFile :: userFile.toList).filter view.exists
  match asked.filter view.exists with
  | some path => lower ++ [path]
  | none => lower ++ [localFile].filter view.exists

/-- A configuration and what it was made from. -/
structure Loaded where
  config : Config
  /-- The paths of the files, in order. -/
  files : List String
  /-- The names of the variables that had an effect. -/
  overrides : List String
  deriving DecidableEq

/-- The configuration of some files under an environment. -/
def loadFiles (environment : Environment) (files : List File) : Except ConfigError Loaded :=
  match load files with
  | .error error => .error error
  | .ok config =>
    let (config, overrides) := config.withEnvironment environment
    .ok ⟨config, files.map File.path, overrides⟩

/-- The configuration of the files that exist, under an environment. -/
def loadSources (view : FileView) (userFile asked : Option String) (environment : Environment) :
    Except ConfigError Loaded :=
  loadFiles environment ((discover view userFile asked).map fun path => ⟨path, view path⟩)

end StatQuery.Config
