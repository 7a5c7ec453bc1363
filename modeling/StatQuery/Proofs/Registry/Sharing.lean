import StatQuery.Proofs.Dict
import StatQuery.Registry

/-!
# Registries that share their storage

A snapshot costs nothing when it is taken, because it shares the cell of the registry. The registry
is written in place while no snapshot shares its cell, and into a copy otherwise. No write is lost
(`registry_write`) and none shows in a snapshot (`taken_write`), so storage of this kind cannot be told
from registries that are values.
-/

namespace StatQuery

/-- The cells that a registry and its snapshots are stored in. -/
structure Storage where
  /-- What each cell holds. -/
  content : Nat → Registry
  /-- The cells below are in use. -/
  used : Nat
  /-- The cell of the registry. -/
  current : Nat
  /-- The cells of the snapshots, by name. -/
  snapshots : Dict Nat
  current_used : current < used
  snapshots_used : ∀ name cell, snapshots.get? name = some cell → cell < used

namespace Storage

/-- Storage for a registry without snapshots. -/
def ofRegistry (registry : Registry) : Storage where
  content _ := registry
  used := 1
  current := 0
  snapshots := .empty
  current_used := Nat.zero_lt_one
  snapshots_used := nofun

/-- The registry that is stored. -/
def registry (storage : Storage) : Registry := storage.content storage.current

/-- The snapshots that are stored. -/
def taken (storage : Storage) : Dict Registry := storage.snapshots.map storage.content

/-- A snapshot shares the cell of the registry. -/
def isShared (storage : Storage) : Bool :=
  storage.snapshots.entries.any fun entry => entry.2 = storage.current

/-- Writes into the cell of the registry. -/
def writeInPlace (storage : Storage) (f : Registry → Registry) : Storage :=
  { storage with
    content := fun cell =>
      if cell = storage.current then f storage.registry else storage.content cell }

/-- Writes into a new cell, which becomes that of the registry. -/
def writeCopy (storage : Storage) (f : Registry → Registry) : Storage where
  content cell := if cell = storage.used then f storage.registry else storage.content cell
  used := storage.used + 1
  current := storage.used
  snapshots := storage.snapshots
  current_used := Nat.lt_succ_self storage.used
  snapshots_used name cell h := Nat.lt_succ_of_lt (storage.snapshots_used name cell h)

/-- Changes the registry. -/
def write (storage : Storage) (f : Registry → Registry) : Storage :=
  if storage.isShared then storage.writeCopy f else storage.writeInPlace f

/-- Registers a provider, unless the handle is taken. -/
def register (storage : Storage) (handle : String) (provider : Provider) :
    Except RegistryError Storage :=
  if storage.registry.contains handle then .error (.duplicateHandle handle)
  else .ok (storage.write (·.insert handle provider))

/-- Takes a provider out. -/
def unregister (storage : Storage) (handle : String) : Except RegistryError (Provider × Storage) :=
  match storage.registry.get? handle with
  | none => .error (.unknownHandle handle)
  | some provider => .ok (provider, storage.write (·.erase handle))

/-- Shares a cell under a name. -/
def share (storage : Storage) (name : String) (cell : Nat) (h : cell < storage.used) : Storage :=
  { storage with
    snapshots := storage.snapshots.insert name cell
    snapshots_used := by
      intro other shared hget
      rw [Dict.get?_insert] at hget
      split at hget
      · cases hget
        exact h
      · exact storage.snapshots_used other shared hget }

/-- Takes a snapshot. -/
def take (storage : Storage) (name : String) : Storage :=
  storage.share name storage.current storage.current_used

/-- Copies a snapshot, if it exists. -/
def copy (storage : Storage) (source name : String) : Option Storage :=
  match h : storage.snapshots.get? source with
  | none => none
  | some cell => some (storage.share name cell (storage.snapshots_used source cell h))

/-- Drops a snapshot. -/
def drop (storage : Storage) (name : String) : Storage :=
  { storage with
    snapshots := storage.snapshots.erase name
    snapshots_used := by
      intro other cell hget
      rw [Dict.get?_erase] at hget
      split at hget
      · cases hget
      · exact storage.snapshots_used other cell hget }

variable {storage : Storage} {f : Registry → Registry}

/-! ### Writing -/

theorem ne_current_of_not_shared (h : ¬ storage.isShared = true) {name : String} {cell : Nat}
    (hget : storage.snapshots.get? name = some cell) : cell ≠ storage.current := by
  intro heq
  refine h (List.any_eq_true.2 ⟨(name, cell), Entries.mem_of_get? hget, ?_⟩)
  exact decide_eq_true heq

/-- What stands in cells that are not written stays. -/
theorem map_content_congr {snapshots : Dict Nat} {content content' : Nat → Registry}
    (h : ∀ name cell, snapshots.get? name = some cell → content' cell = content cell) :
    snapshots.map content' = snapshots.map content := by
  refine Dict.ext_get? fun name => ?_
  rw [Dict.get?_map, Dict.get?_map]
  cases hget : snapshots.get? name with
  | none => rfl
  | some cell => exact congrArg some (h name cell hget)

theorem registry_writeInPlace : (storage.writeInPlace f).registry = f storage.registry :=
  if_pos rfl

theorem registry_writeCopy : (storage.writeCopy f).registry = f storage.registry := if_pos rfl

/-- No write is lost. -/
theorem registry_write : (storage.write f).registry = f storage.registry := by
  unfold write
  split
  · exact registry_writeCopy
  · exact registry_writeInPlace

theorem taken_writeInPlace (h : ¬ storage.isShared = true) :
    (storage.writeInPlace f).taken = storage.taken := by
  refine map_content_congr fun name cell hget => ?_
  exact if_neg (ne_current_of_not_shared h hget)

theorem taken_writeCopy : (storage.writeCopy f).taken = storage.taken := by
  refine map_content_congr fun name cell hget => ?_
  exact if_neg (Nat.ne_of_lt (storage.snapshots_used name cell hget))

/-- No write shows in a snapshot. -/
theorem taken_write : (storage.write f).taken = storage.taken := by
  unfold write
  split
  · exact taken_writeCopy
  · next h => exact taken_writeInPlace h

/-! ### The operations of the registry -/

variable {handle name source : String}

theorem register_of_contains (provider : Provider) (h : storage.registry.contains handle = true) :
    storage.register handle provider = .error (.duplicateHandle handle) := if_pos h

theorem register_of_not_contains (provider : Provider)
    (h : ¬ storage.registry.contains handle = true) :
    storage.register handle provider = .ok (storage.write (·.insert handle provider)) := if_neg h

theorem unregister_of_none (h : storage.registry.get? handle = none) :
    storage.unregister handle = .error (.unknownHandle handle) := by
  simp only [unregister, h]

theorem unregister_of_some {provider : Provider} (h : storage.registry.get? handle = some provider) :
    storage.unregister handle = .ok (provider, storage.write (·.erase handle)) := by
  simp only [unregister, h]

/-! ### Snapshots -/

theorem taken_take : (storage.take name).taken = storage.taken.insert name storage.registry :=
  Dict.map_insert storage.content storage.snapshots name storage.current

theorem get?_taken (storage : Storage) (name : String) :
    storage.taken.get? name = (storage.snapshots.get? name).map storage.content :=
  Dict.get?_map storage.content storage.snapshots name

theorem copy_of_none (h : storage.snapshots.get? source = none) : storage.copy source name = none := by
  unfold copy
  split
  · rfl
  · next hget => rw [h] at hget; cases hget

theorem copy_of_some {cell : Nat} (h : storage.snapshots.get? source = some cell) (name : String) :
    ∃ copied, storage.copy source name = some copied ∧ copied.registry = storage.registry ∧
      copied.taken = storage.taken.insert name (storage.content cell) := by
  unfold copy
  split
  · next hget => rw [h] at hget; cases hget
  · next found hget =>
    rw [h] at hget
    cases hget
    exact ⟨_, rfl, rfl, Dict.map_insert storage.content storage.snapshots name cell⟩

theorem taken_drop : (storage.drop name).taken = storage.taken.erase name :=
  Dict.map_erase storage.content storage.snapshots name

theorem contains_taken (storage : Storage) (name : String) :
    storage.taken.contains name = storage.snapshots.contains name :=
  Dict.contains_map storage.content storage.snapshots name

/-! ### Storage for given values -/

/-- Puts a registry into storage as a snapshot. -/
def keep (storage : Storage) (name : String) (registry : Registry) : Storage :=
  (storage.write fun _ => registry).take name

/-- Storage for a registry and its snapshots. -/
def ofRegistries (registry : Registry) (snapshots : Dict Registry) : Storage :=
  (snapshots.entries.foldl (fun storage entry => storage.keep entry.1 entry.2)
    (ofRegistry registry)).write fun _ => registry

theorem taken_keep (storage : Storage) (name : String) (registry : Registry) :
    (storage.keep name registry).taken = storage.taken.insert name registry := by
  rw [keep, taken_take, taken_write, registry_write]

theorem taken_foldl_keep (storage : Storage) (entries : List (String × Registry)) :
    (entries.foldl (fun storage entry => storage.keep entry.1 entry.2) storage).taken =
      entries.foldl (fun taken entry => taken.insert entry.1 entry.2) storage.taken := by
  induction entries generalizing storage with
  | nil => rfl
  | cons entry rest ih => rw [List.foldl_cons, List.foldl_cons, ih, taken_keep]

theorem registry_ofRegistries (registry : Registry) (snapshots : Dict Registry) :
    (ofRegistries registry snapshots).registry = registry := registry_write

theorem taken_ofRegistries (registry : Registry) (snapshots : Dict Registry) :
    (ofRegistries registry snapshots).taken = snapshots := by
  rw [ofRegistries, taken_write, taken_foldl_keep]
  exact Dict.foldl_insert_entries snapshots

end Storage

end StatQuery
