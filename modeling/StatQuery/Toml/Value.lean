import StatQuery.Toml.Scalar
import StatQuery.Toml.Text
import StatQuery.Toml.Tree

/-!
# Keys and values in TOML text

A key is a bare word or a string on one line, and a dotted key is several of them. Values nest to a
bounded depth: an array may spread over lines and end in a comma, an inline table may not.
-/

namespace StatQuery.Toml.Scan

/-- The largest number of keys in a dotted key. -/
def maxKeys : Nat := 79

/-- The largest number of brackets around a value. -/
def maxDepth : Nat := 79

/-- Whether a character may stand in a bare key. -/
def isBare (c : Char) : Bool := c.isAlphanum || c = '_' || c = '-'

/-- Takes a key that is not dotted. -/
def simpleKey : Scan String := do
  match ← peek with
  | some '"' =>
    advance
    Text.line '"' true
  | some '\'' =>
    advance
    Text.line '\'' false
  | _ =>
    let word ← takeRun isBare
    if word.isEmpty then failure else return String.ofList word

/-- Takes a dotted key of at most `limit` keys. -/
def keys : (limit : Nat) → Scan (List String)
  | 0 => failure
  | limit + 1 => do
    skipBlanks
    let key ← simpleKey
    skipBlanks
    if (← peek) = some '.' then
      advance
      return key :: (← keys limit)
    else return [key]

/-- Takes a dotted key. -/
def keyPath : Scan KeyPath := do
  let keys ← keys maxKeys
  return ⟨keys.dropLast, keys.getLastD ""⟩

/-- Takes a key, the equals sign and a value. -/
def keyValue (value : Scan Toml) : Scan (KeyPath × Toml) := do
  let path ← keyPath
  expect '='
  skipBlanks
  return (path, ← value)

/-- Takes the items of an array and its closing bracket; `limit` bounds the number of items. -/
def itemsUpTo (value : Scan Toml) : (limit : Nat) → Scan (List Toml)
  | 0 => failure
  | limit + 1 => do
    skipLines
    if (← peek) = some ']' then
      advance
      return []
    else
      let item ← value
      skipLines
      if (← peek) = some ',' then
        advance
        return item :: (← itemsUpTo value limit)
      else
        expect ']'
        return [item]

/-- Takes the pairs of an inline table and its closing brace; `limit` bounds the number of pairs. -/
def pairsUpTo (value : Scan Toml) : (limit : Nat) → Scan (List (KeyPath × Toml))
  | 0 => failure
  | limit + 1 => do
    let pair ← keyValue value
    skipBlanks
    if (← peek) = some ',' then
      advance
      return pair :: (← pairsUpTo value limit)
    else
      expect '\x7d'
      return [pair]

/-- Takes an array, after its opening bracket. -/
def array (value : Scan Toml) : Scan Toml := do
  return .array (← itemsUpTo value ((← remaining) + 1))

/-- Takes an inline table, after its opening brace. -/
def inlineTable (value : Scan Toml) : Scan Toml := do
  skipBlanks
  if (← peek) = some '\x7d' then
    advance
    return .table []
  else
    let pairs ← pairsUpTo value ((← remaining) + 1)
    match Node.inlineTable? pairs with
    | some entries => return .table entries
    | none => failure

/-- Takes a scalar that is no string. -/
def scalar : Scan Toml := fun text =>
  let (run, rest) := Scalar.split text
  (Scalar.ofRun? run).map fun value => (value, rest)

/-- Takes a value with at most `depth` brackets around its innermost part. -/
def valueWithin : (depth : Nat) → Scan Toml
  | 0 => do
    match ← peek with
    | some '"' | some '\'' => return .string (← Text.string)
    | _ => scalar
  | depth + 1 => do
    match ← peek with
    | some '"' | some '\'' => return .string (← Text.string)
    | some '[' =>
      advance
      array (valueWithin depth)
    | some '\x7b' =>
      advance
      inlineTable (valueWithin depth)
    | _ => scalar

/-- Takes a value. -/
def value : Scan Toml := valueWithin maxDepth

end StatQuery.Toml.Scan
