import StatQuery.Proofs.Json.Canonical
import StatQuery.Proofs.Json.Tree
import StatQuery.Proofs.Json.Writer

/-!
# What trees stand for

`Tree.value?` is the value that a tree of plain integers stands for, if it stands for one: every string
in it must be a text. `Tree.boolean?`, `Tree.string?` and `Tree.dict?` are what a field of a record makes
of a tree. None of them tells trees apart that are reordered, so far as no object has two members of one
name (`OrderFree`), and a value is in canonical form whatever the order of the members it comes from
(`regular_of_value?`).
-/

namespace StatQuery

theorem Entries.ofList_perm {α : Type} {entries entries' : List (String × α)}
    (h : entries.Perm entries') (hnodup : (entries.map (·.1)).Nodup) :
    Entries.ofList entries = Entries.ofList entries' := by
  apply Entries.ext_get? (Entries.ascending_ofList entries) (Entries.ascending_ofList entries')
  intro key
  rw [Entries.get?_ofList, Entries.get?_ofList]
  apply Entries.get?_perm
  · exact (List.reverse_perm entries).trans (h.trans (List.reverse_perm entries').symm)
  · exact ((List.reverse_perm entries).map (·.1)).nodup_iff.2 hnodup

theorem Dict.ofList_eq_foldl {α : Type} (entries : List (String × α)) :
    Dict.ofList entries =
      entries.foldl (fun dict entry => dict.insert entry.1 entry.2) Dict.empty :=
  Dict.eq_of_entries_eq (Dict.entries_foldl_insert Dict.empty entries).symm

namespace Json

/-! ### Parts of values -/

theorem canonicalItems_iff {items : List Json} :
    CanonicalItems items ↔ ∀ item ∈ items, item.Canonical := by
  induction items with
  | nil => simp [CanonicalItems]
  | cons item rest ih => simp [CanonicalItems, ih]

theorem floatFreeItems_iff {items : List Json} :
    FloatFreeItems items ↔ ∀ item ∈ items, item.FloatFree := by
  induction items with
  | nil => simp [FloatFreeItems]
  | cons item rest ih => simp [FloatFreeItems, ih]

theorem floatFreeMembers_iff {members : List (String × Json)} :
    FloatFreeMembers members ↔ ∀ member ∈ members, member.2.FloatFree := by
  induction members with
  | nil => simp [FloatFreeMembers]
  | cons member rest ih => simp [FloatFreeMembers, ih]

theorem depthItems_le_iff {items : List Json} {n : Nat} :
    depthItems items ≤ n ↔ ∀ item ∈ items, item.depth ≤ n := by
  induction items with
  | nil => simp [depthItems]
  | cons item rest ih => rw [depthItems, Nat.max_le, ih, List.forall_mem_cons]

theorem depthMembers_le_iff {members : List (String × Json)} {n : Nat} :
    depthMembers members ≤ n ↔ ∀ member ∈ members, member.2.depth ≤ n := by
  induction members with
  | nil => simp [depthMembers]
  | cons member rest ih => rw [depthMembers, Nat.max_le, ih, List.forall_mem_cons]

/-- A value that is written as a text from which it is read back: it is in canonical form, has no floats
and nests to a limited depth. -/
structure Regular (n : Nat) (value : Json) : Prop where
  canonical : value.Canonical
  floatFree : value.FloatFree
  depth_le : value.depth ≤ n

theorem regular_string (n : Nat) (s : String) : Regular n (string s) := ⟨trivial, trivial, Nat.zero_le n⟩

theorem regular_array {n : Nat} {items : List Json} (h : ∀ item ∈ items, Regular n item) :
    Regular (n + 1) (array items) where
  canonical := canonicalItems_iff.2 fun item hmem => (h item hmem).canonical
  floatFree := floatFreeItems_iff.2 fun item hmem => (h item hmem).floatFree
  depth_le := Nat.succ_le_succ (depthItems_le_iff.2 fun item hmem => (h item hmem).depth_le)

theorem regular_ofDict {n : Nat} {dict : Dict Json} (h : ∀ entry ∈ dict.entries, Regular n entry.2) :
    Regular (n + 1) (ofDict dict) where
  canonical := ⟨dict.ascending, canonicalMembers_iff.2 fun entry hmem => (h entry hmem).canonical⟩
  floatFree := floatFreeMembers_iff.2 fun entry hmem => (h entry hmem).floatFree
  depth_le := Nat.succ_le_succ (depthMembers_le_iff.2 fun entry hmem => (h entry hmem).depth_le)

namespace Tree

variable {α : Type} {f : Tree → Option α}

/-! ### Meanings -/

/-- The entries of some members, if every name is a text and `f` makes something of every tree. -/
def entriesBy? (f : Tree → Option α) : List (List Nat × Tree) → Option (List (String × α))
  | [] => some []
  | (name, tree) :: rest =>
    (text? name).bind fun name => (f tree).bind fun x => (entriesBy? f rest).map ((name, x) :: ·)

mutual

/-- The value of a tree in which every number is a plain integer. -/
def value? : Tree → Option Json
  | null => some .null
  | boolean b => some (.boolean b)
  | number negative whole tail => (integer? negative whole tail).map .integer
  | string units => (text? units).map .string
  | array items => (values? items).map .array
  | object members => (valueEntries? members).map .ofMembers

/-- The values of some items. -/
def values? : List Tree → Option (List Json)
  | [] => some []
  | item :: rest => (value? item).bind fun value => (values? rest).map (value :: ·)

/-- The names and values of some members, as they stand. -/
def valueEntries? : List (List Nat × Tree) → Option (List (String × Json))
  | [] => some []
  | (name, tree) :: rest =>
    (text? name).bind fun name =>
      (value? tree).bind fun value => (valueEntries? rest).map ((name, value) :: ·)

end

/-- The truth value of a tree. -/
def boolean? : Tree → Option Bool
  | boolean b => some b
  | _ => none

/-- The text of a tree. -/
def string? : Tree → Option String
  | string units => text? units
  | _ => none

/-- The map of an object's members, of whose trees `f` makes the values. -/
def dict? (f : Tree → Option α) : Tree → Option (Dict α)
  | object members => (entriesBy? f members).map Dict.ofList
  | _ => none

/-- What a tree stands for that may be `null`. -/
def nullOr? (f : Tree → Option α) : Tree → Option (Option α)
  | null => some none
  | tree => (f tree).map some

theorem nullOr?_of_ne_null {tree : Tree} (h : tree ≠ null) : nullOr? f tree = (f tree).map some := by
  cases tree with
  | null => exact absurd rfl h
  | _ => rfl

theorem valueEntries?_eq (members : List (List Nat × Tree)) :
    valueEntries? members = entriesBy? value? members := by
  induction members with
  | nil => rfl
  | cons member rest ih =>
    obtain ⟨name, tree⟩ := member
    rw [valueEntries?, entriesBy?, ih]

theorem value?_object (members : List (List Nat × Tree)) :
    value? (object members) = (dict? value? (object members)).map .ofDict := by
  rw [value?, valueEntries?_eq, dict?, Option.map_map]
  rfl

/-! ### What the entries come from -/

theorem entriesBy?_cons_eq_some {name : List Nat} {tree : Tree} {rest : List (List Nat × Tree)}
    {entries : List (String × α)} :
    entriesBy? f ((name, tree) :: rest) = some entries ↔
      ∃ key x tail, text? name = some key ∧ f tree = some x ∧ entriesBy? f rest = some tail ∧
        entries = (key, x) :: tail := by
  simp only [entriesBy?, Option.bind_eq_some_iff, Option.map_eq_some_iff]
  constructor
  · rintro ⟨key, hkey, x, hx, tail, htail, rfl⟩
    exact ⟨key, x, tail, hkey, hx, htail, rfl⟩
  · rintro ⟨key, x, tail, hkey, hx, htail, rfl⟩
    exact ⟨key, hkey, x, hx, tail, htail, rfl⟩

/-- The names of the members are those of the entries. -/
theorem names_eq_of_entriesBy? {members : List (List Nat × Tree)} {entries : List (String × α)}
    (h : entriesBy? f members = some entries) :
    members.map (·.1) = (entries.map (·.1)).map unitsOf := by
  induction members generalizing entries with
  | nil =>
    cases h
    rfl
  | cons member rest ih =>
    obtain ⟨key, x, tail, hkey, -, htail, rfl⟩ := entriesBy?_cons_eq_some.1 h
    simp only [List.map_cons, ih htail, unitsOf_of_text? hkey]

theorem exists_of_mem_entriesBy? {members : List (List Nat × Tree)} {entries : List (String × α)}
    (h : entriesBy? f members = some entries) {entry : String × α} (hmem : entry ∈ entries) :
    ∃ member ∈ members, f member.2 = some entry.2 := by
  induction members generalizing entries with
  | nil =>
    cases h
    cases hmem
  | cons member rest ih =>
    obtain ⟨key, x, tail, -, hx, htail, rfl⟩ := entriesBy?_cons_eq_some.1 h
    rcases List.mem_cons.1 hmem with rfl | hmem
    · exact ⟨member, List.mem_cons_self, hx⟩
    · obtain ⟨origin, horigin, hvalue⟩ := ih htail hmem
      exact ⟨origin, List.mem_cons_of_mem _ horigin, hvalue⟩

theorem exists_of_mem_values? {items : List Tree} {values : List Json} (h : values? items = some values)
    {value : Json} (hmem : value ∈ values) : ∃ item ∈ items, value? item = some value := by
  induction items generalizing values with
  | nil =>
    cases h
    cases hmem
  | cons item rest ih =>
    simp only [values?, Option.bind_eq_some_iff, Option.map_eq_some_iff] at h
    obtain ⟨first, hfirst, tail, htail, rfl⟩ := h
    rcases List.mem_cons.1 hmem with rfl | hmem
    · exact ⟨item, List.mem_cons_self, hfirst⟩
    · obtain ⟨origin, horigin, hvalue⟩ := ih htail hmem
      exact ⟨origin, List.mem_cons_of_mem _ horigin, hvalue⟩

/-! ### Values are regular -/

theorem fits_of_integer? {negative : Bool} {whole : Nat} {tail : List UInt8} {n : Int}
    (h : integer? negative whole tail = some n) : Fits n := by
  have hmin : twoTo 63 ≤ twoTo 64 := by
    rw [twoTo_63, twoTo_64]
    decide
  rw [integer?] at h
  split at h
  · cases h
  · split at h
    · split at h
      · next hbounds =>
        cases h
        exact ⟨by omega, by omega⟩
      · cases h
    · split at h
      · next hbound =>
        cases h
        exact ⟨by omega, by omega⟩
      · cases h

/-- A map of values is in canonical form, as the values are. -/
theorem regular_of_dict? {n : Nat} {members : List (List Nat × Tree)} {dict : Dict Json}
    (h : dict? value? (object members) = some dict)
    (hvalues : ∀ member ∈ members, ∀ value, value? member.2 = some value → Regular n value) :
    Regular (n + 1) (ofDict dict) := by
  obtain ⟨entries, hentries, rfl⟩ := Option.map_eq_some_iff.1 h
  apply regular_ofDict
  intro entry hmem
  obtain ⟨member, hmember, hvalue⟩ := exists_of_mem_entriesBy? hentries (Entries.mem_ofList hmem)
  exact hvalues member hmember entry.2 hvalue

/-- The induction is on the depth, since the parts of arrays and objects lie less deep. -/
theorem regular_of_value? {n : Nat} {tree : Tree} (hdepth : tree.depth ≤ n) {value : Json}
    (h : tree.value? = some value) : Regular n value := by
  induction n using Nat.strongRecOn generalizing tree value with
  | ind n ih =>
    cases tree with
    | null =>
      cases h
      exact ⟨trivial, trivial, Nat.zero_le n⟩
    | boolean b =>
      cases h
      exact ⟨trivial, trivial, Nat.zero_le n⟩
    | number negative whole tail =>
      obtain ⟨i, hi, rfl⟩ := Option.map_eq_some_iff.1 h
      exact ⟨fits_of_integer? hi, trivial, Nat.zero_le n⟩
    | string units =>
      obtain ⟨s, -, rfl⟩ := Option.map_eq_some_iff.1 h
      exact ⟨trivial, trivial, Nat.zero_le n⟩
    | array items =>
      obtain ⟨hpos, hitems⟩ := depth_array_le_iff.1 hdepth
      obtain ⟨m, rfl⟩ := Nat.exists_eq_add_one.2 hpos
      obtain ⟨values, hvalues, rfl⟩ := Option.map_eq_some_iff.1 h
      apply regular_array
      intro value hmem
      obtain ⟨item, hitem, hvalue⟩ := exists_of_mem_values? hvalues hmem
      exact ih m (Nat.lt_succ_self m) (hitems item hitem) hvalue
    | object members =>
      obtain ⟨hpos, hmembers⟩ := depth_object_le_iff.1 hdepth
      obtain ⟨m, rfl⟩ := Nat.exists_eq_add_one.2 hpos
      rw [value?_object] at h
      obtain ⟨dict, hdict, rfl⟩ := Option.map_eq_some_iff.1 h
      apply regular_of_dict? hdict
      intro member hmem value hvalue
      exact ih m (Nat.lt_succ_self m) (hmembers member hmem) hvalue

/-! ### Reordered trees stand for the same -/

theorem entriesBy?_perm {members members' : List (List Nat × Tree)} (h : members.Perm members')
    {entries : List (String × α)} (hentries : entriesBy? f members = some entries) :
    ∃ entries', entriesBy? f members' = some entries' ∧ entries.Perm entries' := by
  induction h generalizing entries with
  | nil => exact ⟨entries, hentries, .refl entries⟩
  | cons member _ ih =>
    obtain ⟨key, x, tail, hkey, hx, htail, rfl⟩ := entriesBy?_cons_eq_some.1 hentries
    obtain ⟨tail', htail', hperm⟩ := ih htail
    exact ⟨_, entriesBy?_cons_eq_some.2 ⟨key, x, tail', hkey, hx, htail', rfl⟩, hperm.cons _⟩
  | swap first second rest =>
    obtain ⟨key, x, tail, hkey, hx, htail, rfl⟩ := entriesBy?_cons_eq_some.1 hentries
    obtain ⟨key', x', tail', hkey', hx', htail', rfl⟩ := entriesBy?_cons_eq_some.1 htail
    have hswapped : entriesBy? f (second :: rest) = some ((key, x) :: tail') :=
      entriesBy?_cons_eq_some.2 ⟨key, x, tail', hkey, hx, htail', rfl⟩
    exact ⟨_, entriesBy?_cons_eq_some.2 ⟨key', x', _, hkey', hx', hswapped, rfl⟩, .swap _ _ _⟩
  | trans _ _ ih ih' =>
    obtain ⟨middle, hmiddle, hperm⟩ := ih hentries
    obtain ⟨entries', hentries', hperm'⟩ := ih' hmiddle
    exact ⟨entries', hentries', hperm.trans hperm'⟩

/-- The order of members does not matter if no two have one name. -/
theorem dict?_perm (f : Tree → Option α) {members members' : List (List Nat × Tree)}
    (h : members.Perm members') (hnodup : (members.map (·.1)).Nodup) :
    dict? f (object members) = dict? f (object members') := by
  rw [dict?, dict?]
  cases hentries : entriesBy? f members with
  | none =>
    cases hentries' : entriesBy? f members' with
    | none => rfl
    | some entries' =>
      obtain ⟨entries, hsome, -⟩ := entriesBy?_perm h.symm hentries'
      rw [hentries] at hsome
      cases hsome
  | some entries =>
    obtain ⟨entries', hentries', hperm⟩ := entriesBy?_perm h hentries
    have hkeys : (entries.map (·.1)).Nodup := by
      rw [names_eq_of_entriesBy? hentries] at hnodup
      exact List.Pairwise.of_map unitsOf (fun key key' hne heq => hne (congrArg unitsOf heq)) hnodup
    rw [hentries']
    exact congrArg some (Dict.eq_of_entries_eq (Entries.ofList_perm hperm hkeys))

theorem entriesBy?_congr {before behind : List (List Nat × Tree)} {name : List Nat}
    {tree tree' : Tree} (h : f tree = f tree') :
    entriesBy? f (before ++ (name, tree) :: behind) =
      entriesBy? f (before ++ (name, tree') :: behind) := by
  induction before with
  | nil => rw [List.nil_append, List.nil_append, entriesBy?, entriesBy?, h]
  | cons member before ih => rw [List.cons_append, List.cons_append, entriesBy?, entriesBy?, ih]

theorem values?_congr {before behind : List Tree} {item item' : Tree} (h : value? item = value? item') :
    values? (before ++ item :: behind) = values? (before ++ item' :: behind) := by
  induction before with
  | nil => rw [List.nil_append, List.nil_append, values?, values?, h]
  | cons first before ih => rw [List.cons_append, List.cons_append, values?, values?, ih]

/-- What `f` makes of a tree does not depend on the order of members, if no two have one name. -/
def OrderFree (f : Tree → Option α) : Prop :=
  ∀ ⦃tree tree' : Tree⦄, Reordered tree tree' → tree.Distinct → f tree = f tree'

theorem orderFree_boolean? : OrderFree boolean? := by
  intro tree tree' h _
  rcases h.shape with rfl | ⟨_, _, rfl, rfl⟩ | ⟨_, _, rfl, rfl, -⟩ <;> rfl

theorem orderFree_string? : OrderFree string? := by
  intro tree tree' h _
  rcases h.shape with rfl | ⟨_, _, rfl, rfl⟩ | ⟨_, _, rfl, rfl, -⟩ <;> rfl

theorem OrderFree.nullOr? (hf : OrderFree f) : OrderFree (nullOr? f) := by
  intro tree tree' h hdistinct
  rcases h.shape with rfl | ⟨_, _, rfl, rfl⟩ | ⟨_, _, rfl, rfl, -⟩
  · rfl
  · exact congrArg (Option.map some) (hf h hdistinct)
  · exact congrArg (Option.map some) (hf h hdistinct)

theorem Distinct.middle {before behind : List (List Nat × Tree)} {name : List Nat} {tree : Tree}
    (h : (object (before ++ (name, tree) :: behind)).Distinct) : tree.Distinct :=
  h.member (List.mem_append_right before (List.mem_cons_self (a := (name, tree))))

theorem OrderFree.dict? (hf : OrderFree f) : OrderFree (dict? f) := by
  intro tree tree' h hdistinct
  induction h with
  | refl tree => rfl
  | perm h => exact dict?_perm f h (hdistinct _ (.self _))
  | item _ _ => rfl
  | member h _ => rw [Tree.dict?, Tree.dict?, entriesBy?_congr (hf h hdistinct.middle)]
  | trans h _ ih ih' => exact (ih hdistinct).trans (ih' (h.distinct hdistinct))

theorem orderFree_value? : OrderFree value? := by
  intro tree tree' h hdistinct
  induction h with
  | refl tree => rfl
  | perm h => rw [value?_object, value?_object, dict?_perm value? h (hdistinct _ (.self _))]
  | item _ ih => rw [value?, value?, values?_congr (ih (hdistinct.item (by simp)))]
  | member _ ih =>
    rw [value?_object, value?_object, Tree.dict?, Tree.dict?, entriesBy?_congr (ih hdistinct.middle)]
  | trans h _ ih ih' => exact (ih hdistinct).trans (ih' (h.distinct hdistinct))

end Tree

end Json

end StatQuery
