import StatQuery.Datum

/-!
# Configuration errors

Why no configuration comes out of some files, or no text out of a configuration.
-/

namespace StatQuery

/-- Why a file has no text. -/
inductive FileFailure where
  | missing
  | directory
  /-- Its bytes are no text. -/
  | notText
  deriving DecidableEq, Repr

def FileFailure.message : FileFailure → String
  | missing => "No such file or directory (os error 2)"
  | directory => "Is a directory (os error 21)"
  | notText => "stream did not contain valid UTF-8"

/-- Where a fault lies, if that is told. -/
def Fault.place (fault : Fault) : String :=
  let path := ".".intercalate fault.path
  if fault.path.isEmpty then "" else s!"in `{path}`\n"

/-- Why there is no configuration, or no text of one. -/
inductive ConfigError where
  | unreadable (path : String) (failure : FileFailure)
  /-- The text of a file is refused. -/
  | malformed (path : String)
  /-- The files together do not make a configuration; the last one is named. -/
  | faulty (path : String) (fault : Fault)
  /-- The limit on providers is too large to be written. -/
  | unwritable
  deriving DecidableEq, Repr

def ConfigError.message : ConfigError → String
  | unreadable path failure => s!"Failed to read config file {path}: {failure.message}"
  | malformed path => s!"Failed to parse config file {path}"
  | faulty path fault =>
    s!"Failed to parse config file {path}: {fault.mismatch.message}\n{fault.place}"
  | unwritable =>
    "Invalid configuration: cannot serialize config: out-of-range value for u64 type"

end StatQuery
