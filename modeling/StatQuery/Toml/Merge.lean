import StatQuery.Toml.Basic

/-!
# Laying tables over tables

An overlay changes the keys that it mentions: where both sides hold a table the tables are merged, and
everywhere else the overlay's value replaces the one below.
-/

namespace StatQuery.Toml

mutual

/-- The table after an overlay's entries have been set, one by one. -/
def merge : (base overlay : Table) → Table
  | base, [] => base
  | base, (key, value) :: rest => merge (set base key value) rest

/-- The table after one entry of an overlay has been set. -/
def set (base : Table) (key : String) : Toml → Table
  | table incoming =>
    match Entries.get? key base with
    | some (table existing) => Entries.insert key (table (merge existing incoming)) base
    | _ => Entries.insert key (table incoming) base
  | value => Entries.insert key value base

end

/-- Layers from the lowest to the highest, laid over the empty table. -/
def mergeAll (layers : List Table) : Table := layers.foldl merge []

end StatQuery.Toml
