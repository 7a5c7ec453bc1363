import StatQuery.Toml.Basic

/-!
# Tables under construction

The statements of a document build one tree. While it grows, each table remembers how it came about,
because that decides what may still be added to it: a table with a header of its own is complete, one
that was only passed through on the way to another may still get its header, and one that dotted keys
made takes further dotted keys but no header. A value takes nothing.
-/

namespace StatQuery.Toml

/-- How a table came about. -/
inductive Origin where
  /-- It has a header. -/
  | header
  /-- A header of a table inside it named it. -/
  | passed
  /-- A dotted key named it. -/
  | dotted
  deriving DecidableEq, Repr

/-- A part of the tree. -/
inductive Node where
  | value (value : Toml)
  | table (origin : Origin) (entries : List (String × Node))
  /-- An array of tables, of which only the last one is still open. -/
  | tables (closed : List Toml) (last : List (String × Node))

/-- A key and the keys of the tables that it lies in, the outermost first. -/
structure KeyPath where
  parents : List String
  key : String
  deriving DecidableEq, Repr

namespace Node

mutual

/-- The value that a part of the tree has become. -/
def close : Node → Toml
  | value entry => entry
  | table _ entries => .table (closeEntries entries)
  | tables closed last => .array (closed ++ [.table (closeEntries last)])

/-- The entries that a table has got. -/
def closeEntries : List (String × Node) → Table
  | [] => []
  | (key, node) :: rest => (key, node.close) :: closeEntries rest

end

/-- The entries of a table under construction. -/
abbrev Nodes := List (String × Node)

/-- Changes the table that a path of headers leads to. A table that is missing on the way is added, an
array of tables stands for its last one, and a value blocks the way. -/
def within (change : Nodes → Option Nodes) : (path : List String) → Nodes → Option Nodes
  | [], nodes => change nodes
  | key :: path, nodes =>
    match Entries.get? key nodes with
    | none => (within change path []).map fun inner => Entries.insert key (table .passed inner) nodes
    | some (table origin inner) =>
      (within change path inner).map fun inner => Entries.insert key (table origin inner) nodes
    | some (tables closed last) =>
      (within change path last).map fun last => Entries.insert key (tables closed last) nodes
    | some (value _) => none

/-- Sets a key of a table, which must not have it; `takes` says whether the table takes keys. -/
def add (key : String) (entry : Toml) (takes : Bool) (nodes : Nodes) : Option Nodes :=
  if takes && (Entries.get? key nodes).isNone then some (Entries.insert key (value entry) nodes)
  else none

/-- Sets the key that a path of dotted keys leads to. A table that is missing on the way is added. A
table with a header blocks the way, and the last table on it must be one that dotted keys made. -/
def assign (key : String) (entry : Toml) : (takes : Bool) → (path : List String) → Nodes → Option Nodes
  | takes, [], nodes => add key entry takes nodes
  | _, name :: path, nodes =>
    match Entries.get? name nodes with
    | none =>
      (assign key entry true path []).map fun inner =>
        Entries.insert name (table .dotted inner) nodes
    | some (table .header _) => none
    | some (table .passed inner) =>
      (assign key entry false path inner).map fun inner =>
        Entries.insert name (table .passed inner) nodes
    | some (table .dotted inner) =>
      (assign key entry true path inner).map fun inner =>
        Entries.insert name (table .dotted inner) nodes
    | some (tables closed last) =>
      (assign key entry false path last).map fun last =>
        Entries.insert name (tables closed last) nodes
    | some (value _) => none

/-- Gives a table its header: it is new, or was only passed through so far. -/
def openTable (key : String) (nodes : Nodes) : Option Nodes :=
  match Entries.get? key nodes with
  | none => some (Entries.insert key (table .header []) nodes)
  | some (table .passed inner) => some (Entries.insert key (table .header inner) nodes)
  | _ => none

/-- Adds a table to an array of tables, which may be new. -/
def openElement (key : String) (nodes : Nodes) : Option Nodes :=
  match Entries.get? key nodes with
  | none => some (Entries.insert key (tables [] []) nodes)
  | some (tables closed last) =>
    some (Entries.insert key (tables (closed ++ [.table (closeEntries last)]) []) nodes)
  | _ => none

/-- The table of an inline table's keys and values. -/
def inlineTable? (pairs : List (KeyPath × Toml)) : Option Table :=
  (pairs.foldlM (fun nodes pair => assign pair.1.key pair.2 true pair.1.parents nodes) []).map
    closeEntries

end Node

end StatQuery.Toml
