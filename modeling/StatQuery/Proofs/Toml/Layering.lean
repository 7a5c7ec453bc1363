import StatQuery.Toml.Merge

/-!
# What layers of tables show

A path of keys leads to a value in nested tables (`find?`). Laying a table over another one shows at a
path what the upper one has there; where it has nothing, and cuts nothing off above, the lower one
shows through (`find?_laidOver_of_none`). From that step it follows for any number of layers which of them
decides at a path: a value is that of the last layer that has anything to do with the path
(`find?_mergeAll_eq_value_iff`), and a table stays a table until a layer puts something else in its way
(`find?_mergeAll_eq_table_iff`).
-/

namespace StatQuery.Toml

/-- Whether a value is a table. -/
def isTable : Toml → Bool
  | table _ => true
  | _ => false

/-- What a path of keys leads to. -/
def find? : (path : List String) → Toml → Option Toml
  | [], value => some value
  | key :: path, table entries => (Entries.get? key entries).bind (find? path)
  | _ :: _, _ => none

/-- The value binds a proper part of the path, from its beginning, to something that is no table. -/
def Cuts (value : Toml) (path : List String) : Prop :=
  ∃ front back found, path = front ++ back ∧ back ≠ [] ∧ value.find? front = some found ∧
    found.isTable = false

/-- What a path of keys leads to, from a table. -/
def Table.find? (path : List String) (entries : Table) : Option Toml := (table entries).find? path

/-- The layer binds the path to anything, or cuts it. -/
def Hides (layer : Table) (path : List String) : Prop :=
  (∃ value, layer.find? path = some value) ∨ (table layer).Cuts path

/-- The layer binds the path to something that is no table, or cuts it. -/
def Blocks (layer : Table) (path : List String) : Prop :=
  (∃ value, layer.find? path = some value ∧ value.isTable = false) ∨ (table layer).Cuts path

/-- What layers show at a path. -/
structure Shows (layers : List Table) (path : List String) : Prop where
  /-- A value is that of the last layer that has to do with the path. -/
  value_iff : ∀ value, value.isTable = false →
    ((mergeAll layers).find? path = some value ↔ ∃ before layer after,
      layers = before ++ layer :: after ∧ layer.find? path = some value ∧
        ∀ later ∈ after, ¬ Hides later path)
  table_iff : (∃ entries, (mergeAll layers).find? path = some (table entries)) ↔
    ∃ before layer after, layers = before ++ layer :: after ∧
      (∃ entries, layer.find? path = some (table entries)) ∧ ∀ later ∈ after, ¬ Blocks later path
  /-- Later layers change nothing that they do not mention. -/
  kept : ∀ later, (∀ layer ∈ later, (table layer).Canonical) → (∀ layer ∈ later, ¬ Hides layer path) →
    (mergeAll (layers ++ later)).find? path = (mergeAll layers).find? path
  /-- Nothing is there that no layer has set. -/
  given : ∀ value, (mergeAll layers).find? path = some value →
    ∃ layer ∈ layers, ∃ found, layer.find? path = some found
  /-- An array is that of one layer, as a whole. -/
  array : ∀ items, (mergeAll layers).find? path = some (.array items) →
    ∃ layer ∈ layers, layer.find? path = some (.array items)

/-! ### Paths -/

@[simp] theorem find?_nil (value : Toml) : value.find? [] = some value := by
  cases value <;> rfl

@[simp] theorem find?_cons_table (key : String) (path : List String) (entries : Table) :
    (table entries).find? (key :: path) = (Entries.get? key entries).bind (find? path) := rfl

theorem find?_key (key : String) (entries : Table) :
    (table entries).find? [key] = Entries.get? key entries := by
  rw [find?_cons_table]
  cases Entries.get? key entries <;> simp

theorem find?_cons (key : String) (path : List String) (value : Toml) :
    value.find? (key :: path) = (value.find? [key]).bind (find? path) := by
  cases value with
  | table entries =>
    rw [find?_cons_table, find?_cons_table]
    cases Entries.get? key entries <;> simp
  | _ => rfl

theorem find?_append (front back : List String) (value : Toml) :
    value.find? (front ++ back) = (value.find? front).bind (Toml.find? back) := by
  induction front generalizing value with
  | nil => rw [List.nil_append, find?_nil, Option.bind_some]
  | cons key front ih =>
    rw [List.cons_append, find?_cons, find?_cons key front, Option.bind_assoc]
    congr 1
    exact funext ih

theorem canonical_of_get? {key : String} {value : Toml} {entries : Table}
    (h : CanonicalEntries entries) (hget : Entries.get? key entries = some value) :
    value.Canonical := by
  induction entries with
  | nil => cases hget
  | cons entry rest ih =>
    obtain ⟨name, first⟩ := entry
    obtain ⟨hfirst, hrest⟩ := h
    rw [Entries.get?_cons] at hget
    split at hget
    · cases hget
      exact hfirst
    · exact ih hrest hget

theorem canonical_of_find? {path : List String} {value found : Toml} (h : value.Canonical)
    (hfind : value.find? path = some found) : found.Canonical := by
  induction path generalizing value with
  | nil =>
    rw [find?_nil] at hfind
    cases hfind
    exact h
  | cons key path ih =>
    cases value with
    | table entries =>
      obtain ⟨inner, hget, hinner⟩ := Option.bind_eq_some_iff.1 hfind
      exact ih (canonical_of_get? h.2 hget) hinner
    | _ => cases hfind

theorem find?_cons_of_not_table {value : Toml} (h : value.isTable = false) (key : String)
    (path : List String) : value.find? (key :: path) = none := by
  cases value with
  | table entries => cases h
  | _ => rfl

theorem cuts_cons_of_not_table {value : Toml} (h : value.isTable = false) (key : String)
    (path : List String) : value.Cuts (key :: path) :=
  ⟨[], key :: path, value, rfl, by simp, find?_nil value, h⟩

theorem not_cuts_nil (value : Toml) : ¬ value.Cuts [] := by
  rintro ⟨front, back, found, heq, hback, -, -⟩
  exact hback (List.append_eq_nil_iff.1 heq.symm).2

/-- A table cuts a path where the value under its first key does. -/
theorem cuts_cons_table {key : String} {path : List String} {entries : Table} :
    (table entries).Cuts (key :: path) ↔
      ∃ value, Entries.get? key entries = some value ∧ value.Cuts path := by
  constructor
  · rintro ⟨front, back, found, heq, hback, hfound, hleaf⟩
    cases front with
    | nil =>
      rw [find?_nil] at hfound
      cases hfound
      cases hleaf
    | cons name front =>
      obtain ⟨rfl, rfl⟩ := List.cons.inj heq
      obtain ⟨value, hget, hvalue⟩ := Option.bind_eq_some_iff.1 hfound
      exact ⟨value, hget, front, back, found, rfl, hback, hvalue, hleaf⟩
  · rintro ⟨value, hget, front, back, found, rfl, hback, hfound, hleaf⟩
    refine ⟨key :: front, back, found, rfl, hback, ?_, hleaf⟩
    rw [find?_cons_table, hget, Option.bind_some, hfound]

/-- Whatever cuts a path has nothing there. -/
theorem Cuts.find?_eq_none {value : Toml} {path : List String} (h : value.Cuts path) :
    value.find? path = none := by
  induction path generalizing value with
  | nil => exact absurd h (not_cuts_nil value)
  | cons key path ih =>
    cases hvalue : value.isTable with
    | false => exact find?_cons_of_not_table hvalue key path
    | true =>
      cases value with
      | table entries =>
        obtain ⟨inner, hget, hinner⟩ := cuts_cons_table.1 h
        rw [find?_cons_table, hget, Option.bind_some, ih hinner]
      | _ => cases hvalue

/-! ### One layer over another -/

/-- What there is under a key once a value has been laid over what was there. -/
def laidOver (below : Option Toml) : Toml → Toml
  | table incoming =>
    match below with
    | some (table existing) => table (merge existing incoming)
    | _ => table incoming
  | value => value

theorem laidOver_of_not_table {below : Option Toml} {value : Toml} (h : value.isTable = false) :
    laidOver below value = value := by
  cases value with
  | table entries => cases h
  | _ => rfl

theorem laidOver_of_no_table {below : Option Toml} {incoming : Table}
    (h : ∀ existing, below = some (table existing) → False) :
    laidOver below (table incoming) = table incoming := by
  rw [laidOver]
  exact h

theorem get?_set (base : Table) (key other : String) (value : Toml) :
    Entries.get? other (set base key value) =
      if key = other then some (laidOver (Entries.get? key base) value)
      else Entries.get? other base := by
  cases value with
  | table incoming =>
    rw [set]
    split
    · next existing hget => rw [Entries.get?_insert, hget, laidOver]
    · next hget => rw [Entries.get?_insert, laidOver_of_no_table hget]
  | _ => exact Entries.get?_insert key other _ base

theorem get?_merge {overlay : Table} (h : Entries.Ascending overlay) (base : Table) (key : String) :
    Entries.get? key (merge base overlay) =
      ((Entries.get? key overlay).map (laidOver (Entries.get? key base))).or (Entries.get? key base) := by
  induction overlay generalizing base with
  | nil => rfl
  | cons entry rest ih =>
    obtain ⟨name, value⟩ := entry
    have habove := Entries.get?_eq_none_of_lt (List.pairwise_cons.1 h).1
    rw [merge, ih (List.pairwise_cons.1 h).2, get?_set, Entries.get?_cons]
    by_cases hname : name = key
    · subst hname
      rw [habove, if_pos rfl, if_pos rfl]
      rfl
    · rw [if_neg hname, if_neg hname]

@[simp] theorem laidOver_none (value : Toml) : laidOver none value = value := by
  cases value <;> rfl

theorem laidOver_of_below_not_table {below value : Toml} (h : below.isTable = false) :
    laidOver (some below) value = value := by
  cases value with
  | table incoming =>
    refine laidOver_of_no_table fun existing heq => ?_
    cases heq
    cases h
  | _ => rfl

variable {incoming : Table} {key : String} {path : List String}

/-- Where the upper table has nothing, the lower value shows through. -/
theorem find?_laidOver_cons_of_none (h : Entries.Ascending incoming)
    (hget : Entries.get? key incoming = none) (below : Option Toml) :
    (laidOver below (table incoming)).find? (key :: path) = below.bind (find? (key :: path)) := by
  have hincoming : (table incoming).find? (key :: path) = none := by
    rw [find?_cons_table, hget, Option.bind_none]
  cases below with
  | none => rw [laidOver_none, hincoming, Option.bind_none]
  | some lower =>
    cases hlower : lower.isTable with
    | false =>
      rw [laidOver_of_below_not_table hlower, hincoming, Option.bind_some,
        find?_cons_of_not_table hlower]
    | true =>
      cases lower with
      | table existing =>
        rw [laidOver, find?_cons_table, get?_merge h, hget, Option.map_none, Option.none_or,
          Option.bind_some, find?_cons_table]
      | _ => cases hlower

/-- Where it has something, that is laid over what the lower value has under the same key. -/
theorem find?_laidOver_cons_of_some (h : Entries.Ascending incoming) {value : Toml}
    (hget : Entries.get? key incoming = some value) (below : Option Toml) :
    (laidOver below (table incoming)).find? (key :: path) =
      (laidOver (below.bind (find? [key])) value).find? path := by
  have hincoming : (table incoming).find? (key :: path) = value.find? path := by
    rw [find?_cons_table, hget, Option.bind_some]
  cases below with
  | none => rw [laidOver_none, hincoming, Option.bind_none, laidOver_none]
  | some lower =>
    cases hlower : lower.isTable with
    | false =>
      rw [laidOver_of_below_not_table hlower, hincoming, Option.bind_some,
        find?_cons_of_not_table hlower, laidOver_none]
    | true =>
      cases lower with
      | table existing =>
        rw [laidOver, find?_cons_table, get?_merge h, hget, Option.map_some, Option.some_or,
          Option.bind_some, Option.bind_some, find?_key]
      | _ => cases hlower

/-- What the upper value has at a path is laid over what the lower one has there. -/
theorem find?_laidOver_of_some {value found : Toml} (h : value.Canonical)
    (hfind : value.find? path = some found) (below : Option Toml) :
    (laidOver below value).find? path = some (laidOver (below.bind (find? path)) found) := by
  induction path generalizing value below with
  | nil =>
    rw [find?_nil] at hfind ⊢
    cases hfind
    cases below <;> simp
  | cons key path ih =>
    cases hvalue : value.isTable with
    | false =>
      rw [find?_cons_of_not_table hvalue] at hfind
      cases hfind
    | true =>
      cases value with
      | table incoming =>
        obtain ⟨inner, hget, hinner⟩ := Option.bind_eq_some_iff.1 hfind
        rw [find?_laidOver_cons_of_some h.1 hget, ih (canonical_of_get? h.2 hget) hinner,
          Option.bind_assoc]
        simp only [← find?_cons]
      | _ => cases hvalue

/-- What the upper value cuts off is not there. -/
theorem find?_laidOver_of_cuts {value : Toml} (h : value.Canonical) (hcuts : value.Cuts path)
    (below : Option Toml) : (laidOver below value).find? path = none := by
  obtain ⟨front, back, found, hpath, hback, hfound, hleaf⟩ := hcuts
  refine Cuts.find?_eq_none ⟨front, back, found, hpath, hback, ?_, hleaf⟩
  rw [find?_laidOver_of_some h hfound, laidOver_of_not_table hleaf]

/-- Where the upper value has nothing and cuts nothing off, the lower one shows through. -/
theorem find?_laidOver_of_none {value : Toml} (h : value.Canonical) (hfind : value.find? path = none)
    (hcuts : ¬ value.Cuts path) (below : Option Toml) :
    (laidOver below value).find? path = below.bind (find? path) := by
  induction path generalizing value below with
  | nil =>
    rw [find?_nil] at hfind
    cases hfind
  | cons key path ih =>
    cases hvalue : value.isTable with
    | false => exact absurd (cuts_cons_of_not_table hvalue key path) hcuts
    | true =>
      cases value with
      | table incoming =>
        cases hget : Entries.get? key incoming with
        | none => exact find?_laidOver_cons_of_none h.1 hget below
        | some inner =>
          rw [find?_cons_table, hget, Option.bind_some] at hfind
          have hinner : ¬ inner.Cuts path := fun h => hcuts (cuts_cons_table.2 ⟨inner, hget, h⟩)
          rw [find?_laidOver_cons_of_some h.1 hget, ih (canonical_of_get? h.2 hget) hfind hinner,
            Option.bind_assoc]
          simp only [← find?_cons]
      | _ => cases hvalue

/-! ### Any number of layers -/

/-- What a layer grants or takes away as a whole is there if the last layer that does either grants
it. -/
theorem foldl_merge_iff (Holds Loses : Table → Prop) (layers : List Table) (base : Table)
    (hstep : ∀ layer ∈ layers, ∀ base, Holds (merge base layer) ↔
      Holds layer ∨ Holds base ∧ ¬ Loses layer) :
    Holds (layers.foldl merge base) ↔
      (∃ before layer after, layers = before ++ layer :: after ∧ Holds layer ∧
        ∀ later ∈ after, ¬ Loses later) ∨ Holds base ∧ ∀ layer ∈ layers, ¬ Loses layer := by
  induction layers generalizing base with
  | nil => simp
  | cons first rest ih =>
    rw [List.foldl_cons, ih _ fun layer hmem => hstep layer (List.mem_cons_of_mem _ hmem),
      hstep first List.mem_cons_self]
    constructor
    · rintro (⟨before, layer, after, rfl, hholds, hafter⟩ | ⟨hholds | ⟨hholds, hfirst⟩, hrest⟩)
      · exact Or.inl ⟨first :: before, layer, after, rfl, hholds, hafter⟩
      · exact Or.inl ⟨[], first, rest, rfl, hholds, hrest⟩
      · exact Or.inr ⟨hholds, List.forall_mem_cons.2 ⟨hfirst, hrest⟩⟩
    · rintro (⟨before, layer, after, heq, hholds, hafter⟩ | ⟨hholds, hnone⟩)
      · cases before with
        | nil =>
          obtain ⟨rfl, rfl⟩ := List.cons.inj heq
          exact Or.inr ⟨Or.inl hholds, hafter⟩
        | cons head before =>
          obtain ⟨rfl, rfl⟩ := List.cons.inj heq
          exact Or.inl ⟨before, layer, after, rfl, hholds, hafter⟩
      · obtain ⟨hfirst, hrest⟩ := List.forall_mem_cons.1 hnone
        exact Or.inr ⟨Or.inr ⟨hholds, hfirst⟩, hrest⟩

theorem isTable_laidOver (below : Option Toml) (value : Toml) :
    (laidOver below value).isTable = value.isTable := by
  cases value with
  | table incoming =>
    unfold laidOver
    dsimp only
    split <;> rfl
  | _ => rfl

theorem exists_table_iff {found : Option Toml} :
    (∃ entries, found = some (table entries)) ↔
      ∃ value, found = some value ∧ value.isTable = true := by
  constructor
  · rintro ⟨entries, rfl⟩
    exact ⟨_, rfl, rfl⟩
  · rintro ⟨value, rfl, hvalue⟩
    cases value with
    | table entries => exact ⟨entries, rfl⟩
    | _ => cases hvalue

variable {overlay : Table}

theorem find?_merge_of_some (h : (table overlay).Canonical) {found : Toml}
    (hfind : overlay.find? path = some found) (base : Table) :
    (merge base overlay).find? path = some (laidOver (base.find? path) found) :=
  find?_laidOver_of_some h hfind (some (table base))

theorem find?_merge_of_cuts (h : (table overlay).Canonical) (hcuts : (table overlay).Cuts path)
    (base : Table) : (merge base overlay).find? path = none :=
  find?_laidOver_of_cuts h hcuts (some (table base))

/-- A layer changes nothing that it does not hide. -/
theorem find?_merge_of_not_hides (h : (table overlay).Canonical) (hhides : ¬ Hides overlay path)
    (base : Table) : (merge base overlay).find? path = base.find? path := by
  have hnone : overlay.find? path = none :=
    Option.eq_none_iff_forall_ne_some.2 fun value hvalue => hhides (Or.inl ⟨value, hvalue⟩)
  exact find?_laidOver_of_none h hnone (fun hcuts => hhides (Or.inr hcuts)) (some (table base))

theorem find?_merge_eq_value_iff (h : (table overlay).Canonical) {value : Toml}
    (hvalue : value.isTable = false) (base : Table) :
    (merge base overlay).find? path = some value ↔
      overlay.find? path = some value ∨ base.find? path = some value ∧ ¬ Hides overlay path := by
  by_cases hhides : Hides overlay path
  · have hbase : ¬ (base.find? path = some value ∧ ¬ Hides overlay path) := fun hand => hand.2 hhides
    rw [or_iff_left hbase]
    rcases hhides with ⟨found, hfound⟩ | hcuts
    · rw [find?_merge_of_some h hfound, hfound]
      constructor
      · rintro heq
        cases heq
        rw [isTable_laidOver] at hvalue
        rw [laidOver_of_not_table hvalue]
      · intro heq
        cases heq
        rw [laidOver_of_not_table hvalue]
    · rw [find?_merge_of_cuts h hcuts, Table.find?, hcuts.find?_eq_none]
  · have hoverlay : ¬ overlay.find? path = some value := fun hvalue => hhides (Or.inl ⟨value, hvalue⟩)
    rw [find?_merge_of_not_hides h hhides, or_iff_right hoverlay, and_iff_left hhides]

theorem find?_merge_eq_table_iff (h : (table overlay).Canonical) (base : Table) :
    (∃ entries, (merge base overlay).find? path = some (table entries)) ↔
      (∃ entries, overlay.find? path = some (table entries)) ∨
        (∃ entries, base.find? path = some (table entries)) ∧ ¬ Blocks overlay path := by
  simp only [exists_table_iff]
  by_cases hhides : Hides overlay path
  · rcases hhides with ⟨found, hfound⟩ | hcuts
    · rw [find?_merge_of_some h hfound]
      cases hleaf : found.isTable with
      | true =>
        refine iff_of_true ⟨_, rfl, ?_⟩ (Or.inl ⟨found, hfound, hleaf⟩)
        rw [isTable_laidOver, hleaf]
      | false =>
        rw [laidOver_of_not_table hleaf]
        refine iff_of_false ?_ ?_
        · rintro ⟨value, heq, hvalue⟩
          cases heq
          rw [hleaf] at hvalue
          cases hvalue
        · rintro (⟨value, heq, hvalue⟩ | ⟨-, hblocks⟩)
          · rw [hfound] at heq
            cases heq
            rw [hleaf] at hvalue
            cases hvalue
          · exact hblocks (Or.inl ⟨found, hfound, hleaf⟩)
    · have hnone : overlay.find? path = none := hcuts.find?_eq_none
      rw [find?_merge_of_cuts h hcuts, hnone]
      refine iff_of_false (by simp) ?_
      rintro (⟨value, heq, -⟩ | ⟨-, hblocks⟩)
      · cases heq
      · exact hblocks (Or.inr hcuts)
  · have hoverlay : ¬ ∃ value, overlay.find? path = some value ∧ value.isTable = true :=
      fun ⟨value, hvalue, _⟩ => hhides (Or.inl ⟨value, hvalue⟩)
    have hblocks : ¬ Blocks overlay path := by
      rintro (⟨value, hvalue, -⟩ | hcuts)
      · exact hhides (Or.inl ⟨value, hvalue⟩)
      · exact hhides (Or.inr hcuts)
    rw [find?_merge_of_not_hides h hhides, or_iff_right hoverlay, and_iff_left hblocks]

theorem find?_empty (h : path ≠ []) : Table.find? path [] = none := by
  cases path with
  | nil => exact absurd rfl h
  | cons key path => rfl

theorem find?_mergeAll_eq_value_iff {layers : List Table}
    (h : ∀ layer ∈ layers, (table layer).Canonical) (hpath : path ≠ []) {value : Toml}
    (hvalue : value.isTable = false) :
    (mergeAll layers).find? path = some value ↔ ∃ before layer after,
      layers = before ++ layer :: after ∧ layer.find? path = some value ∧
        ∀ later ∈ after, ¬ Hides later path := by
  have hstep := foldl_merge_iff (fun layer => layer.find? path = some value) (Hides · path) layers []
    fun layer hmem base => find?_merge_eq_value_iff (h layer hmem) hvalue base
  refine hstep.trans (or_iff_left ?_)
  rintro ⟨hbase, -⟩
  rw [find?_empty hpath] at hbase
  cases hbase

theorem find?_mergeAll_eq_table_iff {layers : List Table}
    (h : ∀ layer ∈ layers, (table layer).Canonical) (hpath : path ≠ []) :
    (∃ entries, (mergeAll layers).find? path = some (table entries)) ↔
      ∃ before layer after, layers = before ++ layer :: after ∧
        (∃ entries, layer.find? path = some (table entries)) ∧
        ∀ later ∈ after, ¬ Blocks later path := by
  have hstep := foldl_merge_iff (fun layer => ∃ entries, layer.find? path = some (table entries))
    (Blocks · path) layers [] fun layer hmem base => find?_merge_eq_table_iff (h layer hmem) base
  refine hstep.trans (or_iff_left ?_)
  rintro ⟨⟨entries, hbase⟩, -⟩
  rw [find?_empty hpath] at hbase
  cases hbase

theorem find?_mergeAll_append {later : List Table} (layers : List Table)
    (h : ∀ layer ∈ later, (table layer).Canonical) (hhides : ∀ layer ∈ later, ¬ Hides layer path) :
    (mergeAll (layers ++ later)).find? path = (mergeAll layers).find? path := by
  rw [mergeAll, mergeAll, List.foldl_append]
  generalize layers.foldl merge [] = base
  induction later generalizing base with
  | nil => rfl
  | cons first rest ih =>
    obtain ⟨hfirst, hrest⟩ := List.forall_mem_cons.1 h
    obtain ⟨hshown, hothers⟩ := List.forall_mem_cons.1 hhides
    rw [List.foldl_cons, ih hrest hothers, find?_merge_of_not_hides hfirst hshown]

/-- At each path, layers show what the last layer has there that has to do with the path at all. -/
theorem shows_mergeAll (layers : List Table) (h : ∀ layer ∈ layers, (table layer).Canonical)
    (path : List String) (hpath : path ≠ []) : Shows layers path where
  value_iff value hvalue := find?_mergeAll_eq_value_iff h hpath hvalue
  table_iff := find?_mergeAll_eq_table_iff h hpath
  kept later hlater hhides := find?_mergeAll_append layers hlater hhides
  given value hfind := by
    cases hvalue : value.isTable with
    | false =>
      obtain ⟨before, layer, after, rfl, hlayer, -⟩ :=
        (find?_mergeAll_eq_value_iff h hpath hvalue).1 hfind
      exact ⟨layer, by simp, value, hlayer⟩
    | true =>
      obtain ⟨before, layer, after, rfl, ⟨entries, hlayer⟩, -⟩ :=
        (find?_mergeAll_eq_table_iff h hpath).1 (exists_table_iff.2 ⟨value, hfind, hvalue⟩)
      exact ⟨layer, by simp, table entries, hlayer⟩
  array items hfind := by
    obtain ⟨before, layer, after, rfl, hlayer, -⟩ :=
      (find?_mergeAll_eq_value_iff h hpath rfl).1 hfind
    exact ⟨layer, by simp, hlayer⟩

/-- A layer puts a number in the place of a table, and the next one builds the table again. -/
theorem shows_mergeAll_rebuilt :
    let layers : List Table := [[("a", table [("b", .integer 1), ("c", .integer 2)])],
      [("a", .integer 3)], [("a", table [("c", .array [.integer 4])])]]
    (∀ layer ∈ layers, (table layer).Canonical) ∧ Shows layers ["a", "c"] ∧
      (mergeAll layers).find? ["a", "c"] = some (.array [.integer 4]) := by
  intro layers
  have hcanonical : ∀ layer ∈ layers, (table layer).Canonical := by
    simp only [layers, List.forall_mem_cons, Canonical, CanonicalEntries, CanonicalItems, and_true,
      List.not_mem_nil, false_implies, implies_true]
    decide
  have hshows := shows_mergeAll layers hcanonical ["a", "c"] (by decide)
  refine ⟨hcanonical, hshows, (hshows.value_iff _ rfl).2 ⟨layers.take 2, _, [], rfl, rfl, ?_⟩⟩
  exact fun _ hmem => absurd hmem List.not_mem_nil

end StatQuery.Toml
