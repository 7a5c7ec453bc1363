import StatQuery.Json.Basic

/-!
# Building canonical values

Values put together from canonical values are canonical: objects made with `Json.ofMembers` have their
members in order whatever the order they are listed in.
-/

namespace StatQuery

theorem Entries.mem_ofList {α : Type} {entry : String × α} {entries : List (String × α)}
    (h : entry ∈ Entries.ofList entries) : entry ∈ entries := by
  suffices hfold : ∀ sorted : List (String × α),
      entry ∈ entries.foldl (fun sorted entry => Entries.insert entry.1 entry.2 sorted) sorted →
        entry ∈ sorted ∨ entry ∈ entries from
    (hfold [] h).resolve_left List.not_mem_nil
  clear h
  induction entries with
  | nil => exact fun sorted h => Or.inl h
  | cons head rest ih =>
    intro sorted h
    rcases ih _ h with hmem | hmem
    · rcases Entries.mem_insert hmem with rfl | hmem
      · exact Or.inr List.mem_cons_self
      · exact Or.inl hmem
    · exact Or.inr (List.mem_cons_of_mem _ hmem)

namespace Json

theorem canonicalMembers_iff {members : List (String × Json)} :
    CanonicalMembers members ↔ ∀ member ∈ members, member.2.Canonical := by
  induction members with
  | nil => simp [CanonicalMembers]
  | cons member rest ih => simp [CanonicalMembers, ih]

theorem canonicalMembers_dict {dict : Dict Json} :
    CanonicalMembers dict.entries ↔ ∀ key value, dict.get? key = some value → value.Canonical := by
  rw [canonicalMembers_iff]
  constructor
  · intro h key value hget
    exact h (key, value) (Entries.mem_of_get? hget)
  · intro h member hmem
    exact h member.1 member.2 (Entries.get?_of_mem dict.ascending hmem)

theorem canonical_ofMembers {members : List (String × Json)}
    (h : ∀ member ∈ members, member.2.Canonical) : (ofMembers members).Canonical :=
  ⟨Entries.ascending_ofList members,
    canonicalMembers_iff.2 fun member hmem => h member (Entries.mem_ofList hmem)⟩

theorem canonical_natural {n : Nat} (h : n < twoTo 64) : (natural n).Canonical := by
  refine ⟨?_, Int.ofNat_lt.2 h⟩
  have hneg : -(twoTo 63 : Int) ≤ 0 := by
    rw [twoTo_63]
    decide
  exact Int.le_trans hneg (Int.natCast_nonneg n)

theorem canonical_uint64 (n : UInt64) : (natural n.toNat).Canonical :=
  canonical_natural n.toNat_lt

end Json

end StatQuery
