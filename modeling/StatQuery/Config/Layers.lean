import StatQuery.Config.Error
import StatQuery.Config.Reading
import StatQuery.Config.Text
import StatQuery.Text.Utf8
import StatQuery.Toml.Document
import StatQuery.Toml.Merge

/-!
# Layers of configuration

Files are laid over one another, the last one on top, and only the result is read as a configuration.
Every file is read and its text accepted or refused before that, in order.
-/

namespace StatQuery.Config

/-- What is found at a path. -/
inductive FileContent where
  | missing
  | directory
  | bytes (bytes : List UInt8)
  deriving DecidableEq, Repr, Inhabited

/-- A path and what is found there. -/
structure File where
  path : String
  content : FileContent
  deriving DecidableEq, Repr

/-- The text of a file. -/
def File.text (file : File) : Except FileFailure String :=
  match file.content with
  | .missing => .error .missing
  | .directory => .error .directory
  | .bytes bytes =>
    match Utf8.decode? bytes with
    | none => .error .notText
    | some text => .ok text

/-- The table that a file stands for. -/
def File.table (file : File) : Except ConfigError Toml.Table :=
  match file.text with
  | .error failure => .error (.unreadable file.path failure)
  | .ok text =>
    match Toml.parse? text with
    | none => .error (.malformed file.path)
    | some table => .ok table

/-- The tables of files laid over a table, in order. -/
def mergeFiles (base : Toml.Table) : List File → Except ConfigError Toml.Table
  | [] => .ok base
  | file :: rest =>
    match file.table with
    | .error error => .error error
    | .ok table => mergeFiles (Toml.merge base table) rest

/-- The configuration of a table. -/
def ofTable (table : Toml.Table) : Except Fault Config := ofDatum (Toml.table table).datum

/-- The configuration of some files. A fault is blamed on the last one. -/
def load (files : List File) : Except ConfigError Config :=
  match mergeFiles [] files with
  | .error error => .error error
  | .ok table =>
    match ofTable table with
    | .error fault => .error (.faulty ((files.getLast?.map File.path).getD "") fault)
    | .ok config => .ok config

/-- The configuration that a text stands for. -/
def ofText? (text : String) : Option Config := do (ofTable (← Toml.parse? text)).toOption

end StatQuery.Config
