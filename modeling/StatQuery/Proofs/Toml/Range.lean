import StatQuery.Proofs.Toml.Inherited
import StatQuery.Proofs.Toml.Scalar

/-!
# Integers of documents

An integer of a document fits 64 bits with a sign (`inRange_of_parse?`), which is less than an unsigned
number of a configuration may take up.
-/

namespace StatQuery.Toml

mutual

/-- Every integer fits 64 bits with a sign. -/
def InRange : Toml → Prop
  | integer n => -(twoTo 63 : Int) ≤ n ∧ n < twoTo 63
  | array items => ItemsInRange items
  | table entries => EntriesInRange entries
  | _ => True

/-- Every integer of the items fits. -/
def ItemsInRange : List Toml → Prop
  | [] => True
  | item :: rest => item.InRange ∧ ItemsInRange rest

/-- Every integer of the entries fits. -/
def EntriesInRange : Table → Prop
  | [] => True
  | (_, value) :: rest => value.InRange ∧ EntriesInRange rest

end

theorem itemsInRange_iff {items : List Toml} : ItemsInRange items ↔ ∀ item ∈ items, item.InRange := by
  induction items with
  | nil => simp [ItemsInRange]
  | cons item rest ih => rw [ItemsInRange, ih, List.forall_mem_cons]

theorem entriesInRange_iff {entries : Table} :
    EntriesInRange entries ↔ ∀ entry ∈ entries, entry.2.InRange := by
  induction entries with
  | nil => simp [EntriesInRange]
  | cons entry rest ih => rw [EntriesInRange, ih, List.forall_mem_cons]

namespace Scalar

theorem inRange_of_inRange? {n m : Int} (h : inRange? n = some m) : (integer m).InRange := by
  rw [inRange?] at h
  split at h
  · next hrange =>
    cases h
    exact hrange
  · cases h

theorem inRange_of_integer? {run : List Char} {n : Int} (h : integer? run = some n) :
    (integer n).InRange := by
  unfold integer? at h
  dsimp only at h
  split at h
  all_goals
    obtain ⟨digits, -, hrange⟩ := Option.bind_eq_some_iff.1 h
    exact inRange_of_inRange? hrange

end Scalar

theorem inherited_inRange : Inherited InRange where
  empty := by
    rw [InRange]
    trivial
  insert key hentries hvalue := by
    rw [InRange, entriesInRange_iff] at hentries ⊢
    intro entry hmem
    rcases Entries.mem_insert hmem with rfl | hmem
    · exact hvalue
    · exact hentries entry hmem
  uncons h := h
  array_iff _ := itemsInRange_iff
  string _ := trivial
  scalar h := by
    rcases Scalar.ofRun?_cases h with ⟨b, rfl⟩ | ⟨text, rfl⟩ | ⟨n, hn, rfl⟩ | ⟨x, rfl⟩
    · trivial
    · trivial
    · exact Scalar.inRange_of_integer? hn
    · trivial

/-- The integers of a document fit 64 bits with a sign. -/
theorem inRange_of_parse? {text : String} {entries : Table} (h : parse? text = some entries) :
    (table entries).InRange :=
  inherited_inRange.of_parse? h

end StatQuery.Toml
