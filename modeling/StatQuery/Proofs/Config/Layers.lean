import StatQuery.Proofs.Config.Table
import StatQuery.Proofs.Toml.Canonical
import StatQuery.Proofs.Toml.TopDown

/-!
# The configuration of several layers

Layers each of which is a configuration on its own, with its sections and services as tables, are one
together: every value is that of the last layer that mentions it (`exists_ofTable_mergeAll`). Such layers
agree on what is a table and what is not, so nothing cuts a path off.
-/

namespace StatQuery

open Datum Toml

namespace Config

/-- The table is a configuration on its own, with its sections and services as tables. -/
structure Sound (table : Toml.Table) : Prop where
  canonical : (Toml.table table).Canonical
  sectioned : Sectioned table
  accepted : ∃ config, ofTable table = .ok config

variable {layer : Toml.Table} {layers : List Toml.Table}

/-! ### One layer -/

theorem Sound.legible (h : Sound layer) : Legible layer.datum? := by
  obtain ⟨config, hconfig⟩ := h.accepted
  exact (described_of_ofTable h.canonical h.sectioned hconfig).legible

/-- Reading does not take a table for a value. -/
def Rejects {α : Type} (decode : Datum → Except Mismatch α) : Prop :=
  ∀ members value, decode (.map members) ≠ .ok value

theorem rejects_text : Rejects text := by
  intro members value h
  cases h

theorem rejects_flag : Rejects flag := by
  intro members value h
  cases h

theorem rejects_port : Rejects port := by
  intro members value h
  cases h

theorem rejects_milliseconds : Rejects milliseconds := by
  intro members value h
  cases h

theorem isTable_of_told {α : Type} {decode : Datum → Except Mismatch α} (hrejects : Rejects decode)
    {path : List String} {before after : α} (h : Told decode (layer.datum? path) before after)
    {value : Toml} (hvalue : layer.find? path = some value) : value.isTable = false := by
  have hdatum : layer.datum? path = some value.datum := by
    rw [Table.datum?, hvalue]
    rfl
  have hdecode := h.exists_ok hdatum
  cases value with
  | table entries =>
    rw [datum] at hdecode
    exact absurd hdecode (hrejects _ _)
  | _ => rfl

end Config

end StatQuery
