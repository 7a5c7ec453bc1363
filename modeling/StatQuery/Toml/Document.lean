import StatQuery.Toml.Value
import StatQuery.Text.Utf8

/-!
# TOML documents

A document is a list of statements. A key and value go into the table of the last header; a header
opens a table, or adds one to an array of tables.
-/

namespace StatQuery.Toml

/-- A statement of a document. -/
inductive Statement where
  | assign (path : KeyPath) (value : Toml)
  | table (path : KeyPath)
  /-- The header of one more table in an array. -/
  | element (path : KeyPath)

namespace Scan

/-- Takes a header, after its first bracket. -/
def header : Scan Statement := do
  if (← peek) = some '[' then
    advance
    let path ← keyPath
    expect ']'
    expect ']'
    return .element path
  else
    let path ← keyPath
    expect ']'
    return .table path

/-- Takes a statement and the end of its line. -/
def statement : Scan Statement := do
  if (← peek) = some '[' then
    advance
    let header ← header
    lineEnd
    return header
  else
    let (path, value) ← keyValue value
    lineEnd
    return .assign path value

/-- Takes statements up to the end of the text; `limit` bounds the number of lines. -/
def statementsUpTo : (limit : Nat) → Scan (List Statement)
  | 0 => failure
  | limit + 1 => do
    skipBlanks
    match ← peek with
    | none => return []
    | some '#' | some '\n' | some '\r' =>
      lineEnd
      statementsUpTo limit
    | some _ =>
      let statement ← statement
      return statement :: (← statementsUpTo limit)

/-- Takes statements up to the end of the text. -/
def statements : Scan (List Statement) := do statementsUpTo ((← remaining) + 1)

end Scan

/-- The tree that statements have built so far, and the path of the last header. -/
structure Draft where
  nodes : Node.Nodes
  current : List String

namespace Draft

/-- The tree before the first statement. -/
def empty : Draft := ⟨[], []⟩

/-- The tree after one more statement. -/
def step (draft : Draft) : Statement → Option Draft
  | .assign path value => do
    let nodes ← Node.within (Node.assign path.key value true path.parents) draft.current draft.nodes
    return { draft with nodes := nodes }
  | .table path => do
    let nodes ← Node.within (Node.openTable path.key) path.parents draft.nodes
    return ⟨nodes, path.parents ++ [path.key]⟩
  | .element path => do
    let nodes ← Node.within (Node.openElement path.key) path.parents draft.nodes
    return ⟨nodes, path.parents ++ [path.key]⟩

end Draft

/-- The table that statements build, unless one of them redefines something. -/
def build? (statements : List Statement) : Option Table :=
  (statements.foldlM Draft.step .empty).map fun draft => Node.closeEntries draft.nodes

/-- The text after a byte order mark, if it begins with one. -/
def dropByteOrderMark : List Char → List Char
  | '\ufeff' :: rest => rest
  | text => text

/-- The table that a text stands for. -/
def parse? (text : String) : Option Table := do
  build? (← Scan.statements.run (dropByteOrderMark text.toList))

end StatQuery.Toml
