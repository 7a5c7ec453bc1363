import StatQuery.Proofs.Toml.Canonical

/-!
# Layers laid twice

Laying the same layers once more over what they have made changes nothing (`foldl_merge_again`). A lower
layer may well rebuild what an upper one had cut off, but then the upper one cuts it off again: at each
path the last layer that has to do with it decides, the first time as well as the second, and where no
layer has, the table below shows through both times. What a value shows at its paths determines it
(`eq_of_sameAt`).
-/

namespace StatQuery.Toml

/-- The values show the same at a path, as far as tables are not looked into. -/
structure SameAt (a b : Toml) (path : List String) : Prop where
  value_iff : ∀ value, value.isTable = false →
    (a.find? path = some value ↔ b.find? path = some value)
  table_iff : (∃ entries, a.find? path = some (table entries)) ↔
    ∃ entries, b.find? path = some (table entries)

variable {a b : Toml} {path : List String}

theorem SameAt.symm (h : SameAt a b path) : SameAt b a path :=
  ⟨fun value hvalue => (h.value_iff value hvalue).symm, h.table_iff.symm⟩

/-- Where one of the values has something, the other one has, too. -/
theorem SameAt.exists_of_some (h : SameAt a b path) {value : Toml} (hfind : a.find? path = some value) :
    ∃ other, b.find? path = some other := by
  cases hvalue : value.isTable with
  | false => exact ⟨value, (h.value_iff value hvalue).1 hfind⟩
  | true =>
    obtain ⟨entries, hentries⟩ := h.table_iff.1 (exists_table_iff.2 ⟨value, hfind, hvalue⟩)
    exact ⟨table entries, hentries⟩

theorem sizeOf_lt_of_get? {key : String} {value : Toml} {entries : Table}
    (h : Entries.get? key entries = some value) : sizeOf value < sizeOf (table entries) := by
  have hmem := List.sizeOf_lt_of_mem (Entries.mem_of_get? h)
  rw [Prod.mk.sizeOf_spec] at hmem
  rw [table.sizeOf_spec]
  omega

/-- A value is determined by what it shows at its paths. -/
theorem eq_of_sameAt (ha : a.Canonical) (hb : b.Canonical) (h : ∀ path, SameAt a b path) : a = b := by
  induction hsize : sizeOf a using Nat.strongRecOn generalizing a b with
  | ind size ih =>
  subst hsize
  cases htable : a.isTable with
  | false =>
    have hroot := ((h []).value_iff a htable).1 (find?_nil a)
    rw [find?_nil] at hroot
    exact (Option.some.inj hroot).symm
  | true =>
    cases a with
    | table entries =>
      obtain ⟨others, hroot⟩ := (h []).table_iff.1 ⟨entries, find?_nil _⟩
      rw [find?_nil] at hroot
      cases hroot
      refine congrArg table (Entries.ext_get? ha.1 hb.1 fun key => ?_)
      have hkey : SameAt (table entries) (table others) [key] := h [key]
      cases hget : Entries.get? key entries with
      | none =>
        cases hother : Entries.get? key others with
        | none => rfl
        | some other =>
          obtain ⟨value, hvalue⟩ := hkey.symm.exists_of_some ((find?_key key others).trans hother)
          rw [find?_key, hget] at hvalue
          cases hvalue
      | some value =>
        obtain ⟨other, hother⟩ := hkey.exists_of_some ((find?_key key entries).trans hget)
        rw [find?_key] at hother
        have hinner : ∀ path, SameAt value other path := by
          intro path
          have hpath := h (key :: path)
          constructor
          · intro leaf hleaf
            have hiff := hpath.value_iff leaf hleaf
            rwa [find?_cons_table, find?_cons_table, hget, hother] at hiff
          · have hiff := hpath.table_iff
            rwa [find?_cons_table, find?_cons_table, hget, hother] at hiff
        rw [hother, ih _ (sizeOf_lt_of_get? hget) (canonical_of_get? ha.2 hget)
          (canonical_of_get? hb.2 hother) hinner rfl]
    | _ => cases htable

variable {layers : List Table} {base : Table}

/-- What layers grant or take away, they grant or take away once more. -/
theorem foldl_merge_again_iff (Holds Loses : Table → Prop)
    (h : ∀ layer ∈ layers, ∀ base, Holds (merge base layer) ↔ Holds layer ∨ Holds base ∧ ¬ Loses layer) :
    Holds (layers.foldl merge (layers.foldl merge base)) ↔ Holds (layers.foldl merge base) := by
  rw [foldl_merge_iff Holds Loses layers _ h, foldl_merge_iff Holds Loses layers base h]
  grind

/-- Laying layers again over what they have made of a table changes nothing. -/
theorem foldl_merge_again (hbase : (table base).Canonical)
    (h : ∀ layer ∈ layers, (table layer).Canonical) :
    layers.foldl merge (layers.foldl merge base) = layers.foldl merge base := by
  have hmade := canonical_foldl_merge hbase h
  refine Toml.table.inj (eq_of_sameAt (canonical_foldl_merge hmade h) hmade fun path => ?_)
  constructor
  · intro value hvalue
    exact foldl_merge_again_iff (fun layer => layer.find? path = some value) (Hides · path)
      fun layer hmem base => find?_merge_eq_value_iff (h layer hmem) hvalue base
  · exact foldl_merge_again_iff (fun layer => ∃ entries, layer.find? path = some (table entries))
      (Blocks · path) fun layer hmem base => find?_merge_eq_table_iff (h layer hmem) base

end StatQuery.Toml
