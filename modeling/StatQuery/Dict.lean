/-!
# Text-keyed finite maps

A `Dict` is a list of entries whose keys strictly ascend by code point, so that equal maps are equal
lists and every listing of a map is in key order. The operations work on the bare entry list
(`Entries`), because trees of nested maps store that list directly; each one keeps the order.
`Dict.get?_insert` and `Dict.get?_erase` say what an operation does to a look-up, and
`Dict.ext_get?` says that a map is determined by its look-ups.
-/

namespace StatQuery

namespace Entries

variable {α β : Type}

/-- The keys of an entry list strictly ascend. -/
def Ascending (entries : List (String × α)) : Prop :=
  entries.Pairwise fun a b => a.1 < b.1

instance (entries : List (String × α)) : Decidable (Ascending entries) :=
  inferInstanceAs (Decidable (List.Pairwise _ _))

/-- The value of the first entry with the given key. -/
def get? (key : String) : List (String × α) → Option α
  | [] => none
  | (k, value) :: rest => if k = key then some value else get? key rest

/-- Puts an entry at its place, replacing the one that has its key. -/
def insert (key : String) (value : α) : List (String × α) → List (String × α)
  | [] => [(key, value)]
  | (k, old) :: rest =>
    if key < k then (key, value) :: (k, old) :: rest
    else if k = key then (key, value) :: rest
    else (k, old) :: insert key value rest

/-- Drops the entry with the given key. -/
def erase (key : String) : List (String × α) → List (String × α)
  | [] => []
  | (k, value) :: rest => if k = key then rest else (k, value) :: erase key rest

/-- The ascending list of some entries, in which the last entry of a key counts. -/
def ofList (entries : List (String × α)) : List (String × α) :=
  entries.foldl (fun sorted entry => insert entry.1 entry.2 sorted) []

@[simp] theorem get?_nil (key : String) : get? key ([] : List (String × α)) = none := rfl

theorem get?_cons (key k : String) (value : α) (rest : List (String × α)) :
    get? key ((k, value) :: rest) = if k = key then some value else get? key rest := rfl

/-- A look-up after an insertion finds the new value under its key and the old values elsewhere. -/
theorem get?_insert (key other : String) (value : α) (entries : List (String × α)) :
    get? other (insert key value entries) = if key = other then some value else get? other entries := by
  induction entries with
  | nil => rfl
  | cons entry rest ih =>
    obtain ⟨k, old⟩ := entry
    rw [insert]
    split
    · rfl
    · split
      · next h => subst h; by_cases hk : k = other <;> simp [get?_cons, hk]
      · next h =>
        by_cases hk : k = other
        · subst hk; simp [get?_cons, Ne.symm h]
        · simp [get?_cons, hk, ih]

/-- An insertion adds nothing but its own entry. -/
theorem mem_insert {key : String} {value : α} {entry : String × α} {entries : List (String × α)}
    (h : entry ∈ insert key value entries) : entry = (key, value) ∨ entry ∈ entries := by
  induction entries with
  | nil => simpa [insert] using h
  | cons head rest ih =>
    obtain ⟨k, old⟩ := head
    rw [insert] at h
    split at h
    · simpa using h
    · split at h <;> grind

theorem Ascending.insert {key : String} {value : α} {entries : List (String × α)}
    (h : Ascending entries) : Ascending (Entries.insert key value entries) := by
  induction entries with
  | nil => simp [Entries.insert, Ascending]
  | cons head rest ih =>
    obtain ⟨k, old⟩ := head
    have hrest : Ascending rest := (List.pairwise_cons.1 h).2
    have hhead := (List.pairwise_cons.1 h).1
    rw [Entries.insert]
    split
    · next hlt =>
      refine List.pairwise_cons.2 ⟨fun entry hmem => ?_, h⟩
      rcases List.mem_cons.1 hmem with rfl | hmem
      · exact hlt
      · exact String.lt_trans hlt (hhead entry hmem)
    · split
      · next heq => subst heq; exact List.pairwise_cons.2 ⟨hhead, hrest⟩
      · next hge hne =>
        refine List.pairwise_cons.2 ⟨fun entry hmem => ?_, ih hrest⟩
        rcases mem_insert hmem with rfl | hmem
        · rcases Std.lt_trichotomy k key with hlt | heq | hgt
          · exact hlt
          · exact absurd heq hne
          · exact absurd hgt hge
        · exact hhead entry hmem

theorem mem_erase {key : String} {entry : String × α} {entries : List (String × α)}
    (h : entry ∈ erase key entries) : entry ∈ entries := by
  induction entries with
  | nil => simp [erase] at h
  | cons head rest ih =>
    rw [erase] at h
    split at h <;> grind

theorem Ascending.erase {key : String} {entries : List (String × α)} (h : Ascending entries) :
    Ascending (Entries.erase key entries) := by
  induction entries with
  | nil => exact List.Pairwise.nil
  | cons head rest ih =>
    have hrest : Ascending rest := (List.pairwise_cons.1 h).2
    rw [Entries.erase]
    split
    · exact hrest
    · exact List.pairwise_cons.2 ⟨fun entry hmem => (List.pairwise_cons.1 h).1 entry (mem_erase hmem),
        ih hrest⟩

/-- A key below every key of the list has no entry. -/
theorem get?_eq_none_of_lt {key : String} {entries : List (String × α)}
    (h : ∀ entry ∈ entries, key < entry.1) : get? key entries = none := by
  induction entries with
  | nil => rfl
  | cons head rest ih =>
    have hne : head.1 ≠ key := fun heq => String.lt_irrefl key (by have := h head (by simp); rwa [heq] at this)
    rw [get?, if_neg hne]
    exact ih fun entry hmem => h entry (by simp [hmem])

theorem get?_erase {key : String} (other : String) {entries : List (String × α)} (h : Ascending entries) :
    get? other (erase key entries) = if key = other then none else get? other entries := by
  induction entries with
  | nil => simp [erase]
  | cons head rest ih =>
    obtain ⟨k, value⟩ := head
    have hhead := (List.pairwise_cons.1 h).1
    by_cases hk : k = key
    · subst hk
      rw [erase, if_pos rfl]
      by_cases ho : k = other
      · subst ho; simpa using get?_eq_none_of_lt hhead
      · simp [get?_cons, ho]
    · have hrest := ih (List.pairwise_cons.1 h).2
      rw [erase, if_neg hk]
      by_cases ho : k = other
      · subst ho; simp [get?_cons, Ne.symm hk]
      · simp [get?_cons, ho, hrest]

theorem ascending_ofList (entries : List (String × α)) : Ascending (ofList entries) := by
  suffices h : ∀ sorted : List (String × α), Ascending sorted →
      Ascending (entries.foldl (fun sorted entry => insert entry.1 entry.2 sorted) sorted) from
    h [] List.Pairwise.nil
  induction entries with
  | nil => exact fun _ h => h
  | cons entry rest ih => exact fun sorted h => ih _ h.insert

theorem mem_of_get? {key : String} {value : α} {entries : List (String × α)}
    (h : get? key entries = some value) : (key, value) ∈ entries := by
  induction entries with
  | nil => simp at h
  | cons head rest ih =>
    obtain ⟨k, old⟩ := head
    rw [get?_cons] at h
    split at h
    · next hk => subst hk; simp_all
    · exact List.mem_cons_of_mem _ (ih h)

theorem get?_of_mem {key : String} {value : α} {entries : List (String × α)} (h : Ascending entries)
    (hmem : (key, value) ∈ entries) : get? key entries = some value := by
  induction entries with
  | nil => simp at hmem
  | cons head rest ih =>
    obtain ⟨k, old⟩ := head
    rcases List.mem_cons.1 hmem with heq | hmem
    · cases heq; simp [get?_cons]
    · have hne : k ≠ key := fun heq => by
        have := (List.pairwise_cons.1 h).1 _ hmem
        exact String.lt_irrefl key (heq ▸ this)
      rw [get?_cons, if_neg hne]
      exact ih (List.pairwise_cons.1 h).2 hmem

/-- Two ascending lists with the same look-ups are equal. -/
theorem ext_get? {xs ys : List (String × α)} (hx : Ascending xs) (hy : Ascending ys)
    (h : ∀ key, get? key xs = get? key ys) : xs = ys := by
  induction xs generalizing ys with
  | nil =>
    cases ys with
    | nil => rfl
    | cons head rest => have := h head.1; simp [get?] at this
  | cons head rest ih =>
    obtain ⟨k, value⟩ := head
    cases ys with
    | nil => have := h k; simp [get?_cons] at this
    | cons head' rest' =>
      obtain ⟨k', value'⟩ := head'
      have hxr := (List.pairwise_cons.1 hx)
      have hyr := (List.pairwise_cons.1 hy)
      have hkk : k = k' := by
        rcases Std.lt_trichotomy k k' with hlt | heq | hgt
        · have hnone : get? k ((k', value') :: rest') = none := by
            refine get?_eq_none_of_lt fun entry hmem => ?_
            rcases List.mem_cons.1 hmem with rfl | hmem
            · exact hlt
            · exact String.lt_trans hlt (hyr.1 entry hmem)
          have := h k
          rw [hnone] at this
          simp [get?_cons] at this
        · exact heq
        · have hnone : get? k' ((k, value) :: rest) = none := by
            refine get?_eq_none_of_lt fun entry hmem => ?_
            rcases List.mem_cons.1 hmem with rfl | hmem
            · exact hgt
            · exact String.lt_trans hgt (hxr.1 entry hmem)
          have := h k'
          rw [hnone] at this
          simp [get?_cons] at this
      subst hkk
      have hvalue : value = value' := by have := h k; simpa [get?_cons] using this
      subst hvalue
      have htail : rest = rest' := by
        refine ih hxr.2 hyr.2 fun key => ?_
        by_cases hk : k = key
        · subst hk
          rw [get?_eq_none_of_lt hxr.1, get?_eq_none_of_lt hyr.1]
        · have := h key
          simpa [get?_cons, hk] using this
      rw [htail]

theorem Ascending.map {f : α → β} {entries : List (String × α)} (h : Ascending entries) :
    Ascending (entries.map fun entry => (entry.1, f entry.2)) :=
  List.Pairwise.map _ (fun _ _ hab => hab) h

theorem get?_map (f : α → β) (key : String) (entries : List (String × α)) :
    get? key (entries.map fun entry => (entry.1, f entry.2)) = (get? key entries).map f := by
  induction entries with
  | nil => rfl
  | cons head rest ih =>
    obtain ⟨k, value⟩ := head
    by_cases hk : k = key <;> simp [get?_cons, hk, ih]

/-- The entries whose values have an image, with their images. -/
def filterMap (f : α → Option β) : List (String × α) → List (String × β)
  | [] => []
  | (k, value) :: rest =>
    match f value with
    | none => filterMap f rest
    | some image => (k, image) :: filterMap f rest

theorem mem_filterMap {f : α → Option β} {entry : String × β} {entries : List (String × α)} :
    entry ∈ filterMap f entries ↔ ∃ value, (entry.1, value) ∈ entries ∧ f value = some entry.2 := by
  induction entries with
  | nil => simp [filterMap]
  | cons head rest ih =>
    obtain ⟨k, value⟩ := head
    obtain ⟨name, image⟩ := entry
    rw [filterMap]
    split <;> grind

theorem Ascending.filterMap {f : α → Option β} {entries : List (String × α)} (h : Ascending entries) :
    Ascending (Entries.filterMap f entries) := by
  induction entries with
  | nil => exact List.Pairwise.nil
  | cons head rest ih =>
    obtain ⟨k, value⟩ := head
    have hrest := ih (List.pairwise_cons.1 h).2
    rw [Entries.filterMap]
    split
    · exact hrest
    · refine List.pairwise_cons.2 ⟨fun entry hmem => ?_, hrest⟩
      obtain ⟨old, hold, -⟩ := mem_filterMap.1 hmem
      exact (List.pairwise_cons.1 h).1 (entry.1, old) hold

theorem get?_filterMap (f : α → Option β) (key : String) {entries : List (String × α)}
    (h : Ascending entries) : get? key (filterMap f entries) = (get? key entries).bind f := by
  induction entries with
  | nil => rfl
  | cons head rest ih =>
    obtain ⟨k, value⟩ := head
    have hrest := ih (List.pairwise_cons.1 h).2
    have hhead := (List.pairwise_cons.1 h).1
    rw [filterMap]
    by_cases hk : k = key
    · subst hk
      have hnone := get?_eq_none_of_lt hhead
      split <;> simp_all [get?_cons]
    · split <;> simp_all [get?_cons]

/-- The entries with their values replaced by their images, or the first failure. -/
def traverse {ε : Type} (f : α → Except ε β) : List (String × α) → Except ε (List (String × β))
  | [] => .ok []
  | (k, value) :: rest =>
    match f value with
    | .error e => .error e
    | .ok image =>
      match traverse f rest with
      | .error e => .error e
      | .ok images => .ok ((k, image) :: images)

theorem map_fst_traverse {ε : Type} {f : α → Except ε β} {entries : List (String × α)}
    {images : List (String × β)} (h : traverse f entries = .ok images) :
    images.map (·.1) = entries.map (·.1) := by
  induction entries generalizing images with
  | nil => cases h; rfl
  | cons head rest ih =>
    obtain ⟨k, value⟩ := head
    rw [traverse] at h
    split at h
    · cases h
    · split at h
      · cases h
      · next hrest => cases h; simp [ih hrest]

theorem ascending_iff_pairwise_keys {entries : List (String × α)} :
    Ascending entries ↔ (entries.map (·.1)).Pairwise (· < ·) := by
  rw [Ascending, List.pairwise_map]

theorem Ascending.traverse {ε : Type} {f : α → Except ε β} {entries : List (String × α)}
    {images : List (String × β)} (h : Ascending entries)
    (hf : Entries.traverse f entries = .ok images) : Ascending images := by
  rw [ascending_iff_pairwise_keys, map_fst_traverse hf]
  exact ascending_iff_pairwise_keys.1 h

theorem get?_traverse {ε : Type} {f : α → Except ε β} {entries : List (String × α)}
    {images : List (String × β)} (h : traverse f entries = .ok images) (key : String) :
    (get? key images).map .ok = (get? key entries).map f := by
  induction entries generalizing images with
  | nil => cases h; rfl
  | cons head rest ih =>
    obtain ⟨k, value⟩ := head
    rw [traverse] at h
    split at h
    · cases h
    · next image himage =>
      split at h
      · cases h
      · next images hrest =>
        cases h
        by_cases hk : k = key
        · simp [get?_cons, hk, himage]
        · simp [get?_cons, hk, ih hrest]

end Entries

/-- A finite map from texts to values, listed in ascending key order. -/
structure Dict (α : Type) where
  entries : List (String × α)
  ascending : Entries.Ascending entries

namespace Dict

variable {α β : Type}

instance [DecidableEq α] : DecidableEq (Dict α) := fun a b =>
  if h : a.entries = b.entries then
    .isTrue (by cases a; cases b; cases h; rfl)
  else
    .isFalse fun hab => h (hab ▸ rfl)

/-- The map without entries. -/
def empty : Dict α := ⟨[], List.Pairwise.nil⟩

instance : Inhabited (Dict α) := ⟨empty⟩

/-- The value under a key. -/
def get? (dict : Dict α) (key : String) : Option α := Entries.get? key dict.entries

/-- Whether a key has a value. -/
def contains (dict : Dict α) (key : String) : Bool := (dict.get? key).isSome

/-- The map with one value set. -/
def insert (dict : Dict α) (key : String) (value : α) : Dict α :=
  ⟨Entries.insert key value dict.entries, dict.ascending.insert⟩

/-- The map with one key removed. -/
def erase (dict : Dict α) (key : String) : Dict α :=
  ⟨Entries.erase key dict.entries, dict.ascending.erase⟩

/-- The keys in ascending order. -/
def keys (dict : Dict α) : List String := dict.entries.map (·.1)

/-- The number of keys. -/
def size (dict : Dict α) : Nat := dict.entries.length

/-- Whether there is no key. -/
def isEmpty (dict : Dict α) : Bool := dict.entries.isEmpty

/-- The map of some entries, in which the last entry of a key counts. -/
def ofList (entries : List (String × α)) : Dict α :=
  ⟨Entries.ofList entries, Entries.ascending_ofList entries⟩

/-- The map with each value replaced by its image. -/
def map (f : α → β) (dict : Dict α) : Dict β :=
  ⟨dict.entries.map fun entry => (entry.1, f entry.2), dict.ascending.map⟩

/-- The map of the values that have an image, with their images. -/
def filterMap (f : α → Option β) (dict : Dict α) : Dict β :=
  ⟨Entries.filterMap f dict.entries, dict.ascending.filterMap⟩

/-- The map with each value replaced by its image, or the failure with the least key. -/
def traverse {ε : Type} (f : α → Except ε β) (dict : Dict α) : Except ε (Dict β) :=
  match h : Entries.traverse f dict.entries with
  | .error e => .error e
  | .ok images => .ok ⟨images, dict.ascending.traverse h⟩

theorem get?_insert (dict : Dict α) (key other : String) (value : α) :
    (dict.insert key value).get? other = if key = other then some value else dict.get? other :=
  Entries.get?_insert key other value dict.entries

theorem get?_erase (dict : Dict α) (key other : String) :
    (dict.erase key).get? other = if key = other then none else dict.get? other :=
  Entries.get?_erase other dict.ascending

theorem get?_map (f : α → β) (dict : Dict α) (key : String) :
    (dict.map f).get? key = (dict.get? key).map f :=
  Entries.get?_map f key dict.entries

theorem get?_filterMap (f : α → Option β) (dict : Dict α) (key : String) :
    (dict.filterMap f).get? key = (dict.get? key).bind f :=
  Entries.get?_filterMap f key dict.ascending

/-- A map that could be replaced has each image under its value's key. -/
theorem get?_traverse {ε : Type} {f : α → Except ε β} {dict : Dict α} {images : Dict β}
    (h : dict.traverse f = .ok images) (key : String) :
    (images.get? key).map .ok = (dict.get? key).map f := by
  unfold traverse at h
  split at h
  · cases h
  · next hf => cases h; exact Entries.get?_traverse hf key

@[simp] theorem get?_empty (key : String) : (empty : Dict α).get? key = none := rfl

/-- A map is determined by its look-ups. -/
theorem ext_get? {a b : Dict α} (h : ∀ key, a.get? key = b.get? key) : a = b := by
  have := Entries.ext_get? a.ascending b.ascending h
  cases a; cases b; cases this; rfl

end Dict

end StatQuery
