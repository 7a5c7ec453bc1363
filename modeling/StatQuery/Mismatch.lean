import StatQuery.Text.Quoted

/-!
# Mismatches

What can be wrong with a value that has a different shape than the one asked for, whichever format it
was written in. A `Mismatch` is a cause; `Mismatch.message` is its one wording.
-/

namespace StatQuery

/-- What was found where a value was read. A number with a fraction carries its text, since its
layout belongs to the format it was read from. -/
inductive Found where
  | null
  | boolean (b : Bool)
  | integer (n : Int)
  | float (text : String)
  | string (s : String)
  | sequence
  | map
  deriving DecidableEq, Repr

/-- What was asked for. -/
inductive Expected where
  /-- An unsigned integer of some width. -/
  | unsigned (bits : Nat)
  | string
  | boolean
  | map
  /-- A record type of the given name. -/
  | record (title : String)
  deriving DecidableEq, Repr

/-- The number of items that a list should have had. -/
inductive Arity where
  /-- As many as the record of this name has fields. -/
  | fields (title : String) (count : Nat)
  /-- Fewer than were given. -/
  | fewer
  /-- As many as were read. -/
  | exactly (count : Nat)
  deriving DecidableEq, Repr

/-- Why a value does not have the shape asked for. -/
inductive Mismatch where
  | kind (found : Found) (expected : Expected)
  | range (found : Found) (expected : Expected)
  | length (given : Nat) (expected : Arity)
  | missing (field : String)
  | duplicate (field : String)
  deriving DecidableEq, Repr

def Found.message : Found → String
  | null => "null"
  | boolean b => s!"boolean `{b}`"
  | integer n => s!"integer `{n}`"
  | float text => s!"floating point `{text}`"
  | string s => s!"string {Quoted.encode s}"
  | sequence => "sequence"
  | map => "map"

def Expected.message : Expected → String
  | unsigned bits => s!"u{bits}"
  | string => "a string"
  | boolean => "a boolean"
  | map => "a map"
  | record title => s!"struct {title}"

def Arity.message : Arity → String
  | fields title count => s!"struct {title} with {count} elements"
  | fewer => "fewer elements in array"
  | exactly 1 => "1 element in sequence"
  | exactly count => s!"{count} elements in sequence"

def Mismatch.message : Mismatch → String
  | kind found expected => s!"invalid type: {found.message}, expected {expected.message}"
  | range found expected => s!"invalid value: {found.message}, expected {expected.message}"
  | length given expected => s!"invalid length {given}, expected {expected.message}"
  | missing field => s!"missing field `{field}`"
  | duplicate field => s!"duplicate field `{field}`"

end StatQuery
