import StatQuery.Proofs.Dict
import StatQuery.Proofs.Run
import StatQuery.Proofs.Text.ByteOrder
import StatQuery.Registry

/-!
# The registry and its history

What a call of the registry yields can be read off the calls before it: a handle is live if the last
call that changed it registered a provider (`Live`), and every answer is about the live handles
(`Answers`). The registry holds the live providers after each call (`tracks_run`), so every call of a
run is answered so, and the refused ones leave no trace (`run_answers`).
-/

namespace StatQuery.Registry

/-- A call of the registry. -/
inductive Operation where
  | register (handle : String) (provider : Provider)
  | unregister (handle : String)
  | lookup (handle : String)
  | contains (handle : String)
  | handles
  | size
  | isEmpty
  /-- Takes a snapshot of all providers. -/
  | all

/-- What a call yields. -/
inductive Result where
  | done
  | provider (provider : Provider)
  | truth (b : Bool)
  | handles (handles : List String)
  | size (n : Nat)
  | snapshot (snapshot : Registry)
  | refused (error : RegistryError)

/-- What a call yields, and the registry after it. -/
def apply (registry : Registry) : Operation → Result × Registry
  | .register handle provider =>
    match registry.register handle provider with
    | .error error => (.refused error, registry)
    | .ok registry => (.done, registry)
  | .unregister handle =>
    match registry.unregister handle with
    | .error error => (.refused error, registry)
    | .ok (provider, registry) => (.provider provider, registry)
  | .lookup handle =>
    match registry.lookup handle with
    | .error error => (.refused error, registry)
    | .ok provider => (.provider provider, registry)
  | .contains handle => (.truth (registry.contains handle), registry)
  | .handles => (.handles registry.keys, registry)
  | .size => (.size (Dict.size registry), registry)
  | .isEmpty => (.truth (Dict.isEmpty registry), registry)
  | .all => (.snapshot registry, registry)

/-- Calls and what each of them yielded, in order. -/
abbrev History := List (Operation × Result)

/-- A call with what it yields, and the registry after it. -/
def record (registry : Registry) (operation : Operation) : (Operation × Result) × Registry :=
  ((operation, (registry.apply operation).1), (registry.apply operation).2)

/-- The history of some calls, and the registry after them. -/
def run (registry : Registry) (operations : List Operation) : History × Registry :=
  runs record registry operations

/-- The call has put a provider under a handle or taken it away. -/
def Changes (handle : String) : Operation × Result → Prop
  | (.register other _, .done) => other = handle
  | (.unregister other, .provider _) => other = handle
  | _ => False

/-- The last call that changed a handle registered a provider under it. -/
def Live (history : History) (handle : String) (provider : Provider) : Prop :=
  ∃ before after, history = before ++ (.register handle provider, .done) :: after ∧
    ∀ entry ∈ after, ¬ Changes handle entry

/-- Some provider is live under a handle. -/
def IsLive (history : History) (handle : String) : Prop := ∃ provider, Live history handle provider

/-- The live handles, each of them once, in the order of their bytes. -/
structure Lists (history : History) (handles : List String) : Prop where
  ascending : handles.Pairwise fun a b => Utf8.encode a < Utf8.encode b
  nodup : handles.Nodup
  mem_iff : ∀ handle, handle ∈ handles ↔ IsLive history handle

/-- What a call yields after a history. -/
def Answers (history : History) : Operation → Result → Prop
  | .register handle _, result =>
    (result = .refused (.duplicateHandle handle) ↔ IsLive history handle) ∧
      (result = .done ↔ ¬ IsLive history handle)
  | .unregister handle, result | .lookup handle, result =>
    (result = .refused (.unknownHandle handle) ↔ ¬ IsLive history handle) ∧
      ∀ provider, result = .provider provider ↔ Live history handle provider
  | .contains handle, result =>
    ∃ b, result = .truth b ∧ (b = true ↔ IsLive history handle)
  | .handles, result => ∃ handles, result = .handles handles ∧ Lists history handles
  | .size, result => ∃ handles, result = .size handles.length ∧ Lists history handles
  | .isEmpty, result => ∃ b, result = .truth b ∧ (b = true ↔ ∀ handle, ¬ IsLive history handle)
  | .all, result =>
    ∃ snapshot : Registry, result = .snapshot snapshot ∧ Lists history snapshot.keys ∧
      ∀ handle provider, snapshot.get? handle = some provider ↔ Live history handle provider

/-- The call is not meant to change anything. -/
def Operation.Observes : Operation → Prop
  | .register _ _ => False
  | .unregister _ => False
  | _ => True

/-! ### Live handles -/

theorem live_concat {history : History} {entry : Operation × Result} {handle : String}
    {provider : Provider} : Live (history ++ [entry]) handle provider ↔
      entry = (.register handle provider, .done) ∨
        Live history handle provider ∧ ¬ Changes handle entry := by
  constructor
  · rintro ⟨before, after, heq, hafter⟩
    rcases List.eq_nil_or_concat after with rfl | ⟨rest, last, rfl⟩
    · obtain ⟨-, hlast⟩ := List.append_inj' heq rfl
      exact Or.inl (List.cons.inj hlast).1
    · rw [List.concat_eq_append] at heq hafter
      rw [← List.cons_append, ← List.append_assoc] at heq
      obtain ⟨hrest, hlast⟩ := List.append_inj' heq rfl
      cases hlast
      refine Or.inr ⟨⟨before, rest, hrest, ?_⟩, hafter entry (by simp)⟩
      intro other hmem
      exact hafter other (by simp [hmem])
  · rintro (rfl | ⟨⟨before, after, rfl, hafter⟩, hentry⟩)
    · exact ⟨history, [], rfl, by simp⟩
    · refine ⟨before, after ++ [entry], by simp, ?_⟩
      intro other hmem
      rcases List.mem_append.1 hmem with hmem | hmem
      · exact hafter other hmem
      · rw [List.mem_singleton.1 hmem]
        exact hentry

/-- A call that changes no handle leaves the live providers. -/
theorem live_concat_of_not_changes {history : History} {entry : Operation × Result}
    (h : ∀ handle, ¬ Changes handle entry) {handle : String} {provider : Provider} :
    Live (history ++ [entry]) handle provider ↔ Live history handle provider := by
  rw [live_concat]
  constructor
  · rintro (rfl | ⟨hlive, -⟩)
    · exact absurd rfl (h handle)
    · exact hlive
  · exact fun hlive => Or.inr ⟨hlive, h handle⟩

/-! ### One call -/

/-- The registry holds the live providers. -/
def Tracks (registry : Registry) (history : History) : Prop :=
  ∀ handle provider, registry.get? handle = some provider ↔ Live history handle provider

variable {registry : Registry} {history : History} {handle : String} {provider : Provider}

theorem Tracks.contains_iff (h : registry.Tracks history) :
    registry.contains handle = true ↔ IsLive history handle :=
  Dict.contains_iff.trans (exists_congr fun provider => h handle provider)

theorem Tracks.get?_eq_none_iff (h : registry.Tracks history) :
    registry.get? handle = none ↔ ¬ IsLive history handle := by
  rw [← h.contains_iff, Dict.contains, Option.not_isSome_iff_eq_none]

theorem Tracks.lists (h : registry.Tracks history) : Lists history registry.keys where
  ascending := (Dict.pairwise_keys registry).imp Utf8.encode_lt_encode_iff.2
  nodup := by
    refine (Dict.pairwise_keys registry).imp ?_
    rintro a _ hlt rfl
    exact String.lt_irrefl a hlt
  mem_iff handle := Dict.mem_keys_iff.trans h.contains_iff

theorem apply_register_of_contains (h : registry.contains handle = true) :
    registry.apply (.register handle provider) =
      (.refused (.duplicateHandle handle), registry) := by
  simp only [apply, register, if_pos h]

theorem apply_register_of_not_contains (h : ¬ registry.contains handle = true) :
    registry.apply (.register handle provider) = (.done, registry.insert handle provider) := by
  simp only [apply, register, if_neg h]

theorem apply_unregister_of_none (h : registry.get? handle = none) :
    registry.apply (.unregister handle) = (.refused (.unknownHandle handle), registry) := by
  simp only [apply, unregister, h]

theorem apply_unregister_of_some (h : registry.get? handle = some provider) :
    registry.apply (.unregister handle) = (.provider provider, registry.erase handle) := by
  simp only [apply, unregister, h]

theorem apply_lookup_of_none (h : registry.get? handle = none) :
    registry.apply (.lookup handle) = (.refused (.unknownHandle handle), registry) := by
  simp only [apply, lookup, h]

theorem apply_lookup_of_some (h : registry.get? handle = some provider) :
    registry.apply (.lookup handle) = (.provider provider, registry) := by
  simp only [apply, lookup, h]

/-- A call that only looks leaves the registry. -/
theorem apply_snd_of_observes {operation : Operation} (h : operation.Observes) :
    (registry.apply operation).2 = registry := by
  cases operation with
  | register handle provider => exact h.elim
  | unregister handle => exact h.elim
  | lookup handle =>
    cases hget : registry.get? handle with
    | none => rw [apply_lookup_of_none hget]
    | some provider => rw [apply_lookup_of_some hget]
  | _ => rfl

/-- So does a call that is refused. -/
theorem apply_snd_of_refused {operation : Operation} {error : RegistryError}
    (h : (registry.apply operation).1 = .refused error) : (registry.apply operation).2 = registry := by
  cases operation with
  | register handle provider =>
    by_cases hcontains : registry.contains handle = true
    · rw [apply_register_of_contains hcontains]
    · rw [apply_register_of_not_contains hcontains] at h
      cases h
  | unregister handle =>
    cases hget : registry.get? handle with
    | none => rw [apply_unregister_of_none hget]
    | some provider =>
      rw [apply_unregister_of_some hget] at h
      cases h
  | _ => exact apply_snd_of_observes trivial

/-- A call that only looks changes no handle. -/
theorem not_changes_of_observes {operation : Operation} (h : operation.Observes) (result : Result)
    (handle : String) : ¬ Changes handle (operation, result) := by
  cases operation with
  | register other provider => exact h.elim
  | unregister other => exact h.elim
  | _ => exact id

theorem Tracks.of_observes (h : registry.Tracks history) {operation : Operation}
    (hobserves : operation.Observes) :
    (registry.apply operation).2.Tracks (history ++ [(operation, (registry.apply operation).1)]) := by
  intro handle provider
  rw [apply_snd_of_observes hobserves,
    live_concat_of_not_changes (not_changes_of_observes hobserves _)]
  exact h handle provider

theorem Tracks.register (h : registry.Tracks history) (other : String) (added : Provider) :
    (registry.apply (.register other added)).2.Tracks
      (history ++ [(.register other added, (registry.apply (.register other added)).1)]) := by
  intro handle provider
  by_cases hcontains : registry.contains other = true
  · rw [apply_register_of_contains hcontains, live_concat_of_not_changes fun _ => id]
    exact h handle provider
  · rw [apply_register_of_not_contains hcontains, Dict.get?_insert, live_concat, ← h handle]
    by_cases hother : other = handle
    · subst hother
      simp [Changes]
    · simp [Changes, hother]

theorem Tracks.unregister (h : registry.Tracks history) (other : String) :
    (registry.apply (.unregister other)).2.Tracks
      (history ++ [(.unregister other, (registry.apply (.unregister other)).1)]) := by
  intro handle provider
  cases hget : registry.get? other with
  | none =>
    rw [apply_unregister_of_none hget, live_concat_of_not_changes fun _ => id]
    exact h handle provider
  | some removed =>
    rw [apply_unregister_of_some hget, Dict.get?_erase, live_concat, ← h handle]
    by_cases hother : other = handle
    · simp [Changes, hother]
    · simp [Changes, hother]

/-- The registry holds the live providers after one more call. -/
theorem Tracks.apply (h : registry.Tracks history) (operation : Operation) :
    (registry.apply operation).2.Tracks
      (history ++ [(operation, (registry.apply operation).1)]) := by
  cases operation with
  | register other added => exact h.register other added
  | unregister other => exact h.unregister other
  | _ => exact h.of_observes trivial

/-- The registry answers about the live providers. -/
theorem Tracks.answers (h : registry.Tracks history) (operation : Operation) :
    Answers history operation (registry.apply operation).1 := by
  cases operation with
  | register handle provider =>
    simp only [Answers, ← h.contains_iff]
    by_cases hcontains : registry.contains handle = true
    · simp [apply_register_of_contains hcontains, hcontains]
    · simp [apply_register_of_not_contains hcontains, hcontains]
  | unregister handle =>
    simp only [Answers, ← h.get?_eq_none_iff]
    cases hget : registry.get? handle with
    | none => simp [apply_unregister_of_none hget, ← h handle, hget]
    | some provider => simp [apply_unregister_of_some hget, ← h handle, hget]
  | lookup handle =>
    simp only [Answers, ← h.get?_eq_none_iff]
    cases hget : registry.get? handle with
    | none => simp [apply_lookup_of_none hget, ← h handle, hget]
    | some provider => simp [apply_lookup_of_some hget, ← h handle, hget]
  | contains handle => exact ⟨_, rfl, h.contains_iff⟩
  | handles => exact ⟨_, rfl, h.lists⟩
  | size => exact ⟨registry.keys, by rw [Dict.length_keys]; rfl, h.lists⟩
  | isEmpty =>
    refine ⟨_, rfl, Dict.isEmpty_iff.trans (forall_congr' fun handle => ?_)⟩
    exact h.get?_eq_none_iff
  | all => exact ⟨registry, rfl, h.lists, h⟩

/-! ### Runs -/

/-- The empty registry holds what is live before any call. -/
theorem tracks_empty : Tracks Dict.empty [] := by
  intro handle provider
  constructor
  · intro h
    cases h
  · rintro ⟨before, after, heq, -⟩
    exact absurd heq (by simp)

/-- The registry holds the live providers after every run. -/
theorem tracks_run (operations : List Operation) :
    (run Dict.empty operations).2.Tracks (run Dict.empty operations).1 := by
  have hstep : ∀ (_ : List Operation) history registry operation, Tracks registry history →
      Tracks (record registry operation).2 (history ++ [(record registry operation).1]) :=
    fun _ _ _ operation h => h.apply operation
  exact runs_preserves tracks_empty hstep operations

/-- Every call of a run is answered from the calls before it, and leaves the registry if it is
refused or only looks. -/
theorem run_answers (before : List Operation) (operation : Operation) (after : List Operation) :
    ∃ result,
      (run Dict.empty (before ++ operation :: after)).1[before.length]? = some (operation, result) ∧
      Answers (run Dict.empty before).1 operation result ∧
      (operation.Observes ∨ (∃ error, result = .refused error) →
        (run Dict.empty (before ++ [operation])).2 = (run Dict.empty before).2) := by
  have hanswers := (tracks_run before).answers operation
  refine ⟨_, getElem?_runs record Dict.empty before operation after, hanswers, ?_⟩
  rw [run, runs_concat_snd]
  rintro (hobserves | ⟨error, hrefused⟩)
  · exact apply_snd_of_observes hobserves
  · exact apply_snd_of_refused hrefused

end StatQuery.Registry
