import StatQuery.Datum
import StatQuery.Decimal.Layout

/-!
# TOML values

The value trees of configuration files. `Toml.Canonical` says that the keys of every table strictly
ascend, which is the form that reading yields and that every operation on tables keeps.
-/

namespace StatQuery

/-- A TOML value; a table is the list of its entries. A date or time is kept as its text. -/
inductive Toml where
  | string (s : String)
  | integer (n : Int)
  | float (x : Float)
  | boolean (b : Bool)
  | datetime (text : String)
  | array (items : List Toml)
  | table (entries : List (String × Toml))
  deriving Inhabited, Repr

namespace Toml

/-- The entries of a table. -/
abbrev Table := List (String × Toml)

mutual

/-- The keys of every table strictly ascend. -/
def Canonical : Toml → Prop
  | array items => CanonicalItems items
  | table entries => Entries.Ascending entries ∧ CanonicalEntries entries
  | _ => True

/-- Every item is canonical. -/
def CanonicalItems : List Toml → Prop
  | [] => True
  | item :: rest => item.Canonical ∧ CanonicalItems rest

/-- Every entry's value is canonical. -/
def CanonicalEntries : Table → Prop
  | [] => True
  | (_, value) :: rest => value.Canonical ∧ CanonicalEntries rest

end

mutual

/-- A TOML value as a datum. A date or time counts as its text. -/
def datum : Toml → Datum
  | string s => .string s
  | integer n => .integer n
  | float x => .float (Decimal.Layout.plain.render x)
  | boolean b => .boolean b
  | datetime text => .string text
  | array items => .sequence (datumItems items)
  | table entries => .map (datumEntries entries)

/-- Items as data. -/
def datumItems : List Toml → List Datum
  | [] => []
  | item :: rest => item.datum :: datumItems rest

/-- Entries as data. -/
def datumEntries : Table → List (String × Datum)
  | [] => []
  | (key, value) :: rest => (key, value.datum) :: datumEntries rest

end

end Toml

end StatQuery
