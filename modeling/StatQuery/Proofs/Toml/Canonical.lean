import StatQuery.Proofs.Toml.Inherited
import StatQuery.Proofs.Toml.Scalar

/-!
# Documents are canonical

Every table of a document has its keys in order (`canonical_of_parse?`), and layers keep them in order
(`canonical_merge`).
-/

namespace StatQuery.Toml

/-! ### Entries and items -/

theorem canonicalEntries_iff {entries : Table} :
    CanonicalEntries entries ↔ ∀ entry ∈ entries, entry.2.Canonical := by
  induction entries with
  | nil => simp [CanonicalEntries]
  | cons entry rest ih => rw [CanonicalEntries, ih, List.forall_mem_cons]

theorem canonicalItems_iff {items : List Toml} :
    CanonicalItems items ↔ ∀ item ∈ items, item.Canonical := by
  induction items with
  | nil => simp [CanonicalItems]
  | cons item rest ih => rw [CanonicalItems, ih, List.forall_mem_cons]

theorem canonical_empty : (table []).Canonical := by
  rw [Canonical]
  exact ⟨List.Pairwise.nil, canonicalEntries_iff.2 fun _ hmem => absurd hmem List.not_mem_nil⟩

theorem canonical_insert {entries : Table} (h : (table entries).Canonical) (key : String) {value : Toml}
    (hvalue : value.Canonical) : (table (Entries.insert key value entries)).Canonical := by
  rw [Canonical, canonicalEntries_iff] at h ⊢
  refine ⟨h.1.insert, fun entry hmem => ?_⟩
  rcases Entries.mem_insert hmem with rfl | hmem
  · exact hvalue
  · exact h.2 entry hmem

theorem canonical_ofRun? {run : List Char} {value : Toml} (h : Scalar.ofRun? run = some value) :
    value.Canonical := by
  rcases Scalar.ofRun?_cases h with ⟨b, rfl⟩ | ⟨text, rfl⟩ | ⟨n, -, rfl⟩ | ⟨x, rfl⟩ <;> trivial

theorem inherited_canonical : Inherited Canonical where
  empty := canonical_empty
  insert key hentries hvalue := canonical_insert hentries key hvalue
  uncons h := ⟨h.2.1, (List.pairwise_cons.1 h.1).2, h.2.2⟩
  array_iff _ := canonicalItems_iff
  string _ := trivial
  scalar := canonical_ofRun?

theorem canonical_ofList {entries : Table} (h : ∀ entry ∈ entries, entry.2.Canonical) :
    (table (Entries.ofList entries)).Canonical :=
  inherited_canonical.ofList h

/-! ### Layers and documents -/

theorem canonical_merge (base overlay : Table) (hbase : (table base).Canonical)
    (hoverlay : (table overlay).Canonical) : (table (merge base overlay)).Canonical :=
  inherited_canonical.merge base overlay hbase hoverlay

/-- Layers laid over a canonical table make a canonical table. -/
theorem canonical_foldl_merge {layers : List Table} {base : Table} (hbase : (table base).Canonical)
    (h : ∀ layer ∈ layers, (table layer).Canonical) : (table (layers.foldl merge base)).Canonical :=
  inherited_canonical.foldl_merge hbase h

/-- The keys of every table of a document are in order. -/
theorem canonical_of_parse? {text : String} {entries : Table} (h : parse? text = some entries) :
    (table entries).Canonical :=
  inherited_canonical.of_parse? h

end StatQuery.Toml
