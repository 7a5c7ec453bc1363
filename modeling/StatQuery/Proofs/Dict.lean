import StatQuery.Dict

/-!
# More laws of text-keyed maps

Entries that ascend already are their own sorted list, so a map written out in key order is the map
that reading its entries one by one builds. A traversal fails exactly when some entry does, and
`Dict.restrict` keeps one key of a map.
-/

namespace StatQuery

namespace Entries

variable {α β ε : Type}

/-- A key above all others is put at the end. -/
theorem insert_of_forall_lt {key : String} {value : α} {entries : List (String × α)}
    (h : ∀ entry ∈ entries, entry.1 < key) : insert key value entries = entries ++ [(key, value)] := by
  induction entries with
  | nil => rfl
  | cons head rest ih =>
    obtain ⟨k, old⟩ := head
    have hlt : k < key := h (k, old) (by simp)
    have hnot : ¬ key < k := fun hgt => String.lt_irrefl key (String.lt_trans hgt hlt)
    have hne : k ≠ key := fun heq => String.lt_irrefl key (heq ▸ hlt)
    rw [insert, if_neg hnot, if_neg hne, ih fun entry hmem => h entry (by simp [hmem])]
    rfl

theorem Ascending.nodup_keys {entries : List (String × α)} (h : Ascending entries) :
    (entries.map (·.1)).Nodup := by
  refine List.Pairwise.imp ?_ (ascending_iff_pairwise_keys.1 h)
  rintro key _ hlt rfl
  exact String.lt_irrefl key hlt

theorem ofList_of_ascending {entries : List (String × α)} (h : Ascending entries) :
    ofList entries = entries := by
  suffices happend : ∀ sorted : List (String × α), Ascending (sorted ++ entries) →
      entries.foldl (fun sorted entry => insert entry.1 entry.2 sorted) sorted = sorted ++ entries from
    happend [] h
  clear h
  induction entries with
  | nil => intro sorted _; simp
  | cons entry rest ih =>
    intro sorted h
    have hlast : ∀ other ∈ sorted, other.1 < entry.1 := fun other hmem =>
      (List.pairwise_append.1 h).2.2 other hmem entry (by simp)
    rw [List.foldl_cons, insert_of_forall_lt hlast, ih, List.append_assoc]
    · rfl
    · rwa [List.append_assoc]

/-- Of two insertions under one key, the second counts. -/
theorem insert_insert (key : String) (old value : α) (entries : List (String × α)) :
    insert key value (insert key old entries) = insert key value entries := by
  induction entries with
  | nil => simp [insert]
  | cons head rest ih =>
    obtain ⟨k, other⟩ := head
    by_cases hlt : key < k
    · simp [insert, hlt]
    · by_cases hk : k = key
      · subst hk
        simp [insert]
      · simp [insert, hlt, hk, ih]

/-- An insertion and a change of each value under its key may be swapped. -/
theorem map_insert (g : String → α → β) (key : String) (value : α) (entries : List (String × α)) :
    (insert key value entries).map (fun entry => (entry.1, g entry.1 entry.2)) =
      insert key (g key value) (entries.map fun entry => (entry.1, g entry.1 entry.2)) := by
  induction entries with
  | nil => rfl
  | cons head rest ih =>
    obtain ⟨k, old⟩ := head
    rw [List.map_cons, insert, insert]
    split
    · rfl
    · split
      · rfl
      · rw [List.map_cons, ih]

theorem map_ofList (g : String → α → β) (entries : List (String × α)) :
    (ofList entries).map (fun entry => (entry.1, g entry.1 entry.2)) =
      ofList (entries.map fun entry => (entry.1, g entry.1 entry.2)) := by
  suffices hfold : ∀ sorted : List (String × α),
      (entries.foldl (fun sorted entry => insert entry.1 entry.2 sorted) sorted).map
        (fun entry => (entry.1, g entry.1 entry.2)) =
      (entries.map fun entry => (entry.1, g entry.1 entry.2)).foldl
        (fun sorted entry => insert entry.1 entry.2 sorted)
        (sorted.map fun entry => (entry.1, g entry.1 entry.2)) from
    hfold []
  induction entries with
  | nil => exact fun sorted => rfl
  | cons entry rest ih =>
    intro sorted
    rw [List.foldl_cons, ih, map_insert, List.map_cons, List.foldl_cons]

theorem get?_append (key : String) (xs ys : List (String × α)) :
    get? key (xs ++ ys) = (get? key xs).or (get? key ys) := by
  induction xs with
  | nil => simp
  | cons head rest ih =>
    obtain ⟨k, value⟩ := head
    rw [List.cons_append, get?_cons, get?_cons, ih]
    split <;> rfl

/-- Of several entries with one key, the last counts. -/
theorem get?_ofList (key : String) (entries : List (String × α)) :
    get? key (ofList entries) = get? key entries.reverse := by
  suffices hfold : ∀ sorted : List (String × α),
      get? key (entries.foldl (fun sorted entry => insert entry.1 entry.2 sorted) sorted) =
        (get? key entries.reverse).or (get? key sorted) by
    rw [ofList, hfold, get?_nil, Option.or_none]
  induction entries with
  | nil => simp
  | cons entry rest ih =>
    intro sorted
    rw [List.foldl_cons, ih, List.reverse_cons, get?_append, get?_insert, get?_cons]
    by_cases hkey : entry.1 = key
    · simp [hkey]
    · simp [hkey]

/-- Where no two entries have one key, their order does not matter. -/
theorem get?_perm {xs ys : List (String × α)} (h : xs.Perm ys) (hnodup : (xs.map (·.1)).Nodup)
    (key : String) : get? key xs = get? key ys := by
  induction h with
  | nil => rfl
  | cons entry _ ih =>
    rw [get?_cons, get?_cons, ih (List.nodup_cons.1 hnodup).2]
  | swap first second rest =>
    have hne : second.1 ≠ first.1 := fun heq =>
      (List.nodup_cons.1 hnodup).1 (List.mem_cons.2 (Or.inl heq))
    rw [get?_cons, get?_cons, get?_cons, get?_cons]
    by_cases hfirst : first.1 = key
    · rw [if_pos hfirst, if_pos hfirst, if_neg fun hsecond => hne (hsecond.trans hfirst.symm)]
    · rw [if_neg hfirst, if_neg hfirst]
  | trans hxy _ ihxy ihyz =>
    rw [ihxy hnodup, ihyz ((hxy.map (·.1)).nodup_iff.1 hnodup)]

theorem length_insert_of_get? {key : String} {old : α} (value : α) {entries : List (String × α)}
    (hascending : Ascending entries) (h : get? key entries = some old) :
    (insert key value entries).length = entries.length := by
  induction entries with
  | nil => cases h
  | cons head rest ih =>
    obtain ⟨k, first⟩ := head
    have hhead := (List.pairwise_cons.1 hascending).1
    rw [get?_cons] at h
    rw [insert]
    by_cases hk : k = key
    · subst hk
      rw [if_neg (String.lt_irrefl k), if_pos rfl]
      rfl
    · rw [if_neg hk] at h
      have hlt : k < key := hhead (key, old) (mem_of_get? h)
      have hnot : ¬ key < k := fun hgt => String.lt_irrefl key (String.lt_trans hgt hlt)
      rw [if_neg hnot, if_neg hk, List.length_cons, List.length_cons,
        ih (List.pairwise_cons.1 hascending).2 h]

theorem get?_filter_key (key other : String) (entries : List (String × α)) :
    get? other (entries.filter fun entry => entry.1 = key) =
      if key = other then get? other entries else none := by
  induction entries with
  | nil => simp
  | cons head rest ih =>
    obtain ⟨k, value⟩ := head
    rw [List.filter_cons, get?_cons]
    by_cases hk : k = key
    · subst hk
      by_cases ho : k = other
      · simp [get?_cons, ho]
      · simp [get?_cons, ho, ih]
    · by_cases ho : key = other
      · subst ho
        simpa [hk] using ih
      · simpa [hk, ho] using ih

theorem mem_map_fst_iff {key : String} {entries : List (String × α)} :
    key ∈ entries.map (·.1) ↔ (get? key entries).isSome = true := by
  induction entries with
  | nil => simp
  | cons head rest ih =>
    obtain ⟨k, value⟩ := head
    rw [List.map_cons, List.mem_cons, get?_cons, ih]
    by_cases hk : k = key
    · simp [hk]
    · simp [hk, Ne.symm hk]

theorem traverse_map {γ : Type} (f : β → Except ε γ) (g : α → β) (entries : List (String × α)) :
    traverse f (entries.map fun entry => (entry.1, g entry.2)) =
      traverse (fun value => f (g value)) entries := by
  induction entries with
  | nil => rfl
  | cons head rest ih => rw [List.map_cons, traverse, traverse, ih]

/-- The first failure is the same if each entry fails alike. -/
theorem traverse_error_of_alike {f g : α → Except ε β} {entries : List (String × α)} {e : ε}
    (halike : ∀ value e, f value = .error e ↔ g value = .error e)
    (h : traverse f entries = .error e) : traverse g entries = .error e := by
  induction entries with
  | nil => cases h
  | cons head rest ih =>
    obtain ⟨k, value⟩ := head
    rw [traverse] at h ⊢
    cases hg : g value with
    | error failure =>
      rw [(halike value failure).2 hg] at h
      exact h
    | ok image =>
      cases hf : f value with
      | error failure =>
        rw [(halike value failure).1 hf] at hg
        cases hg
      | ok _ =>
        rw [hf] at h
        dsimp only at h ⊢
        split at h
        · next hrest =>
          cases h
          rw [ih hrest]
        · cases h

theorem exists_of_traverse_error {f : α → Except ε β} {entries : List (String × α)} {e : ε}
    (h : traverse f entries = .error e) : ∃ entry ∈ entries, f entry.2 = .error e := by
  induction entries with
  | nil => cases h
  | cons head rest ih =>
    obtain ⟨k, value⟩ := head
    rw [traverse] at h
    split at h
    · next hvalue =>
      cases h
      exact ⟨(k, value), List.mem_cons_self, hvalue⟩
    · split at h
      · next hrest =>
        cases h
        obtain ⟨entry, hmem, hentry⟩ := ih hrest
        exact ⟨entry, List.mem_cons_of_mem _ hmem, hentry⟩
      · cases h

end Entries

namespace Dict

variable {α β ε : Type}

theorem entries_foldl_insert (dict : Dict α) (entries : List (String × α)) :
    (entries.foldl (fun dict entry => dict.insert entry.1 entry.2) dict).entries =
      entries.foldl (fun sorted entry => Entries.insert entry.1 entry.2 sorted) dict.entries := by
  induction entries generalizing dict with
  | nil => rfl
  | cons entry rest ih => exact ih (dict.insert entry.1 entry.2)

theorem eq_of_entries_eq {a b : Dict α} (h : a.entries = b.entries) : a = b := by
  cases a
  cases b
  cases h
  rfl

/-- A map is built again from its own entries. -/
theorem foldl_insert_entries (dict : Dict α) :
    dict.entries.foldl (fun dict entry => dict.insert entry.1 entry.2) Dict.empty = dict :=
  eq_of_entries_eq ((entries_foldl_insert Dict.empty dict.entries).trans
    (Entries.ofList_of_ascending dict.ascending))

theorem isEmpty_iff {dict : Dict α} : dict.isEmpty = true ↔ ∀ key, dict.get? key = none := by
  constructor
  · intro h key
    have hentries : dict.entries = [] := List.isEmpty_iff.1 h
    rw [get?, hentries, Entries.get?_nil]
  · intro h
    have hempty : dict = Dict.empty := ext_get? h
    rw [hempty]
    rfl

theorem contains_iff {dict : Dict α} {key : String} :
    dict.contains key = true ↔ ∃ value, dict.get? key = some value := Option.isSome_iff_exists

theorem pairwise_keys (dict : Dict α) : dict.keys.Pairwise (· < ·) :=
  Entries.ascending_iff_pairwise_keys.1 dict.ascending

theorem mem_keys_iff {dict : Dict α} {key : String} : key ∈ dict.keys ↔ dict.contains key = true :=
  Entries.mem_map_fst_iff

theorem length_keys (dict : Dict α) : dict.keys.length = dict.size := List.length_map _

/-! ### Changed values -/

theorem map_insert (f : α → β) (dict : Dict α) (key : String) (value : α) :
    (dict.insert key value).map f = (dict.map f).insert key (f value) :=
  eq_of_entries_eq (Entries.map_insert (fun _ => f) key value dict.entries)

theorem map_erase (f : α → β) (dict : Dict α) (key : String) :
    (dict.erase key).map f = (dict.map f).erase key := by
  refine ext_get? fun other => ?_
  rw [get?_map, get?_erase, get?_erase, get?_map]
  split <;> rfl

theorem keys_map (f : α → β) (dict : Dict α) : (dict.map f).keys = dict.keys := by
  rw [keys, keys, map, List.map_map]
  rfl

theorem contains_map (f : α → β) (dict : Dict α) (key : String) :
    (dict.map f).contains key = dict.contains key := by
  rw [contains, contains, get?_map, Option.isSome_map]

theorem size_map (f : α → β) (dict : Dict α) : (dict.map f).size = dict.size :=
  List.length_map _

/-- Maps with the same images have values with the same image under each key. -/
theorem get?_of_map_eq {f : α → β} {a b : Dict α} (h : a.map f = b.map f) (key : String) :
    a.get? key = none ∧ b.get? key = none ∨
      ∃ value value', a.get? key = some value ∧ b.get? key = some value' ∧ f value = f value' := by
  have hget := congrArg (get? · key) h
  simp only [get?_map] at hget
  cases hvalue : a.get? key with
  | none =>
    rw [hvalue] at hget
    exact Or.inl ⟨rfl, Option.map_eq_none_iff.1 hget.symm⟩
  | some value =>
    rw [hvalue] at hget
    obtain ⟨value', hvalue', hsame⟩ := Option.map_eq_some_iff.1 hget.symm
    exact Or.inr ⟨value, value', rfl, hvalue', hsame.symm⟩

/-- Replacing a value leaves the number of keys. -/
theorem size_insert_of_contains {dict : Dict α} {key : String} (value : α)
    (h : dict.contains key = true) : (dict.insert key value).size = dict.size := by
  obtain ⟨old, hold⟩ := contains_iff.1 h
  exact Entries.length_insert_of_get? value dict.ascending hold

/-- What comes of a traversal is what comes of traversing the entries. -/
theorem traverse_eq_of_entries {γ : Type} {f : α → Except ε γ} {g : β → Except ε γ} {a : Dict α}
    {b : Dict β} (h : Entries.traverse f a.entries = Entries.traverse g b.entries) :
    a.traverse f = b.traverse g := by
  unfold traverse
  split
  · next ha =>
    split
    · next hb => rw [h, hb] at ha; cases ha; rfl
    · next hb => rw [h, hb] at ha; cases ha
  · next ha =>
    split
    · next hb => rw [h, hb] at ha; cases ha
    · next hb => rw [h, hb] at ha; cases ha; rfl

theorem traverse_map {γ : Type} (f : β → Except ε γ) (g : α → β) (dict : Dict α) :
    (dict.map g).traverse f = dict.traverse fun value => f (g value) :=
  traverse_eq_of_entries (Entries.traverse_map f g dict.entries)

theorem traverse_eq_error_iff {f : α → Except ε β} {dict : Dict α} {e : ε} :
    dict.traverse f = .error e ↔ Entries.traverse f dict.entries = .error e := by
  unfold traverse
  split
  · next h => rw [h, Except.error.injEq, Except.error.injEq]
  · next h => simp [h]

theorem traverse_error_of_alike {f g : α → Except ε β} {dict : Dict α} {e : ε}
    (halike : ∀ value e, f value = .error e ↔ g value = .error e) (h : dict.traverse f = .error e) :
    dict.traverse g = .error e :=
  traverse_eq_error_iff.2 (Entries.traverse_error_of_alike halike (traverse_eq_error_iff.1 h))

/-- A traversal that fails met an entry that fails. -/
theorem exists_of_traverse_error {f : α → Except ε β} {dict : Dict α} {e : ε}
    (h : dict.traverse f = .error e) : ∃ key value, dict.get? key = some value ∧ f value = .error e := by
  obtain ⟨⟨key, value⟩, hmem, hvalue⟩ :=
    Entries.exists_of_traverse_error (traverse_eq_error_iff.1 h)
  exact ⟨key, value, Entries.get?_of_mem dict.ascending hmem, hvalue⟩

/-- A traversal that succeeds has the image of each entry. -/
theorem get?_traverse_eq_some {f : α → Except ε β} {dict : Dict α} {images : Dict β}
    (h : dict.traverse f = .ok images) {key : String} {image : β} :
    images.get? key = some image ↔ ∃ value, dict.get? key = some value ∧ f value = .ok image := by
  have hkey := get?_traverse h key
  constructor
  · intro himage
    rw [himage] at hkey
    obtain ⟨value, hvalue, hf⟩ := Option.map_eq_some_iff.1 hkey.symm
    exact ⟨value, hvalue, hf⟩
  · rintro ⟨value, hvalue, hf⟩
    rw [hvalue, Option.map_some, hf] at hkey
    obtain ⟨found, hfound, heq⟩ := Option.map_eq_some_iff.1 hkey
    cases heq
    exact hfound

theorem exists_of_traverse_ok {f : α → Except ε β} {dict : Dict α} {images : Dict β}
    (h : dict.traverse f = .ok images) {key : String} {value : α} (hget : dict.get? key = some value) :
    ∃ image, f value = .ok image := by
  have hkey := get?_traverse h key
  rw [hget] at hkey
  obtain ⟨image, -, himage⟩ := Option.map_eq_some_iff.1 hkey
  exact ⟨image, himage.symm⟩

theorem get?_traverse_eq_none {f : α → Except ε β} {dict : Dict α} {images : Dict β}
    (h : dict.traverse f = .ok images) {key : String} :
    images.get? key = none ↔ dict.get? key = none := by
  have hkey := get?_traverse h key
  constructor
  · intro himage
    rw [himage] at hkey
    exact Option.map_eq_none_iff.1 hkey.symm
  · intro hget
    rw [hget] at hkey
    exact Option.map_eq_none_iff.1 hkey

/-- A traversal succeeds if every entry does. -/
theorem exists_traverse {f : α → Except ε β} {dict : Dict α}
    (h : ∀ key value, dict.get? key = some value → ∃ image, f value = .ok image) :
    ∃ images, dict.traverse f = .ok images := by
  cases htraverse : dict.traverse f with
  | ok images => exact ⟨images, rfl⟩
  | error e =>
    obtain ⟨key, value, hget, herror⟩ := exists_of_traverse_error htraverse
    obtain ⟨image, himage⟩ := h key value hget
    rw [himage] at herror
    cases herror

/-- The map without the other keys. -/
def restrict (dict : Dict α) (key : String) : Dict α :=
  ⟨dict.entries.filter fun entry => entry.1 = key, List.Pairwise.filter _ dict.ascending⟩

@[simp] theorem get?_restrict (dict : Dict α) (key other : String) :
    (dict.restrict key).get? other = if key = other then dict.get? other else none :=
  Entries.get?_filter_key key other dict.entries

theorem restrict_map (f : α → β) (dict : Dict α) (key : String) :
    (dict.map f).restrict key = (dict.restrict key).map f := by
  refine ext_get? fun other => ?_
  rw [get?_restrict, get?_map, get?_map, get?_restrict]
  split <;> rfl

theorem restrict_filterMap (f : α → Option β) (dict : Dict α) (key : String) :
    (dict.filterMap f).restrict key = (dict.restrict key).filterMap f := by
  refine ext_get? fun other => ?_
  rw [get?_restrict, get?_filterMap, get?_filterMap, get?_restrict]
  split <;> rfl

/-- Traversing one entry of a map yields that entry of the traversed map. -/
theorem traverse_insert_empty {f : α → Except ε β} {dict : Dict α} {images : Dict β}
    (h : dict.traverse f = .ok images) {key : String} {value : α} (hget : dict.get? key = some value) :
    (empty.insert key value).traverse f = .ok (images.restrict key) := by
  obtain ⟨image, himage⟩ := exists_of_traverse_ok h hget
  have hone : ∃ one, (empty.insert key value).traverse f = .ok one := by
    refine exists_traverse fun other found hfound => ?_
    rw [get?_insert, get?_empty] at hfound
    split at hfound
    · cases hfound
      exact ⟨image, himage⟩
    · cases hfound
  obtain ⟨one, hone⟩ := hone
  rw [hone]
  refine congrArg Except.ok (ext_get? fun other => Option.ext fun found => ?_)
  rw [get?_traverse_eq_some hone, get?_restrict, get?_insert]
  by_cases hkey : key = other
  · subst hkey
    rw [if_pos rfl, if_pos rfl, get?_traverse_eq_some h, hget]
  · simp [hkey]

end Dict

end StatQuery
