import StatQuery.Json.Basic

/-!
# Writing JSON values

Two forms: `Json.compact` has no blanks, `Json.pretty` has a member or an item to a line, indented by
two spaces for each bracket around it. A string escapes the quote, the backslash and the control
characters below the space, and nothing else.
-/

namespace StatQuery.Json

/-- The digits of the control character with a code below 32. -/
def controlEscape (c : Char) : List Char :=
  ['\\', 'u', '0', '0', Nat.digitChar (c.toNat / 16), Nat.digitChar (c.toNat % 16)]

/-- What stands for a character between the quotes. -/
def escape (c : Char) : List Char :=
  if c = '"' then ['\\', '"']
  else if c = '\\' then ['\\', '\\']
  else if ' ' ≤ c then [c]
  else if c = '\n' then ['\\', 'n']
  else if c = '\t' then ['\\', 't']
  else if c = '\r' then ['\\', 'r']
  else if c = '\x08' then ['\\', 'b']
  else if c = '\x0c' then ['\\', 'f']
  else controlEscape c

/-- A string between quotes. -/
def quoted (s : String) : List Char := '"' :: (s.toList.flatMap escape ++ ['"'])

/-- The text of a value that is neither an array nor an object. -/
def scalar : Json → List Char
  | null => "null".toList
  | boolean true => "true".toList
  | boolean false => "false".toList
  | integer n => (toString n).toList
  | float x => (Decimal.Layout.compact.render x).toList
  | string s => quoted s
  | array _ => []
  | object _ => []

mutual

/-- A value without blanks. -/
def compactChars : Json → List Char
  | array items => '[' :: compactItems items
  | object members => '\x7b' :: compactMembers members
  | value => value.scalar

/-- The items of an array and its closing bracket. -/
def compactItems : List Json → List Char
  | [] => [']']
  | item :: rest => item.compactChars ++ compactMoreItems rest

/-- The items after the first one and the closing bracket. -/
def compactMoreItems : List Json → List Char
  | [] => [']']
  | item :: rest => ',' :: (item.compactChars ++ compactMoreItems rest)

/-- The members of an object and its closing brace. -/
def compactMembers : List (String × Json) → List Char
  | [] => ['\x7d']
  | (name, value) :: rest =>
    quoted name ++ ':' :: (value.compactChars ++ compactMoreMembers rest)

/-- The members after the first one and the closing brace. -/
def compactMoreMembers : List (String × Json) → List Char
  | [] => ['\x7d']
  | (name, value) :: rest =>
    ',' :: (quoted name ++ ':' :: (value.compactChars ++ compactMoreMembers rest))

end

/-- A new line inside some brackets. -/
def newLine (depth : Nat) : List Char := '\n' :: List.replicate (2 * depth) ' '

mutual

/-- A value with a line for each item and member, inside `depth` brackets. -/
def prettyChars (depth : Nat) : Json → List Char
  | array [] => ['[', ']']
  | array (item :: rest) =>
    '[' :: (newLine (depth + 1) ++ (item.prettyChars (depth + 1) ++ prettyMoreItems depth rest))
  | object [] => ['\x7b', '\x7d']
  | object ((name, value) :: rest) =>
    '\x7b' :: (newLine (depth + 1) ++ (quoted name ++ ':' :: ' ' ::
      (value.prettyChars (depth + 1) ++ prettyMoreMembers depth rest)))
  | value => value.scalar

/-- The items after the first one and the closing bracket. -/
def prettyMoreItems (depth : Nat) : List Json → List Char
  | [] => newLine depth ++ [']']
  | item :: rest =>
    ',' :: (newLine (depth + 1) ++ (item.prettyChars (depth + 1) ++ prettyMoreItems depth rest))

/-- The members after the first one and the closing brace. -/
def prettyMoreMembers (depth : Nat) : List (String × Json) → List Char
  | [] => newLine depth ++ ['\x7d']
  | (name, value) :: rest =>
    ',' :: (newLine (depth + 1) ++ (quoted name ++ ':' :: ' ' ::
      (value.prettyChars (depth + 1) ++ prettyMoreMembers depth rest)))

end

/-- The text of a value without blanks. -/
def compact (value : Json) : String := String.ofList value.compactChars

/-- The text of a value with a line for each item and member. -/
def pretty (value : Json) : String := String.ofList (value.prettyChars 0)

end StatQuery.Json
