import StatQuery.Proofs.Registry.Sharing
import StatQuery.Proofs.Session.Run

/-!
# Snapshots over a session

A snapshot belongs to a moment of the run: the one when it was taken, under its name or under another
from which it was copied (`TakenAt`). It shows what the registry showed at that moment, and the
registry shows nothing of the snapshots (`run_isolates`). The same holds of a session whose snapshots
share their storage with the registry, since it takes the same steps (`Shared.run_view`).
-/

namespace StatQuery

namespace Session

/-- The step puts another snapshot under a name, or none. -/
def Overwrites (session : Session) (name : String) : Step → Prop
  | .takeSnapshot other => other = name
  | .copySnapshot source other => other = name ∧ session.snapshots.contains source = true
  | .dropSnapshot other => other = name
  | _ => False

/-- After some steps of a session, what stands under a name is a snapshot of a moment: the first steps
of the run had been taken then. -/
inductive TakenAt (session : Session) : (steps : List Step) → (name : String) →
    (moment : List Step) → Prop
  | taken (moment : List Step) (name : String) :
      TakenAt session (moment ++ [.takeSnapshot name]) name moment
  | copied {steps moment : List Step} {source : String} (h : TakenAt session steps source moment)
      (name : String) : TakenAt session (steps ++ [.copySnapshot source name]) name moment
  | kept {steps moment : List Step} {name : String} (h : TakenAt session steps name moment)
      {step : Step} (hstep : ¬ (session.run steps).2.Overwrites name step) :
      TakenAt session (steps ++ [step]) name moment

/-- A snapshot shows what the registry showed at some moment. -/
structure ShowsRegistryOf (session : Session) (name : String) (moment : Session) : Prop where
  /-- The same handles, in the same order. -/
  handles : ∃ handles, (moment.step .listRegistry).1 = .registry handles ∧
    (session.step (.listSnapshot name)).1 = .snapshot handles
  contains : ∀ handle,
    (session.step (.findInSnapshot name handle)).1 = (moment.step (.contains handle)).1
  size : (session.snapshots.get? name).map Dict.size = some moment.daemon.registry.size
  provider : ∀ handle, (session.snapshots.get? name).bind (·.get? handle) =
    moment.daemon.registry.get? handle
  /-- The providers are asked as they are now. -/
  information : (session.step (.askSnapshot name)).1 =
    .information (moment.daemon.registry.map (shown session.daemon.world))

/-- The session without its snapshots. -/
def bare (session : Session) : Session := session.withSnapshots .empty

variable {session : Session} {steps moment : List Step} {name : String} {step : Step}

/-! ### Moments -/

theorem TakenAt.isPrefix (h : session.TakenAt steps name moment) : moment <+: steps := by
  induction h with
  | taken moment name => exact List.prefix_append moment _
  | copied _ name ih => exact ih.trans (List.prefix_append _ _)
  | kept _ _ ih => exact ih.trans (List.prefix_append _ _)

theorem get?_snapshots_step (h : ¬ session.Overwrites name step) :
    (session.step step).2.snapshots.get? name = session.snapshots.get? name := by
  by_cases hmanages : step.managesSnapshots = true
  · cases step with
    | takeSnapshot other => exact (Dict.get?_insert _ _ _ _).trans (if_neg h)
    | dropSnapshot other => exact (Dict.get?_erase _ _ _).trans (if_neg h)
    | copySnapshot source other =>
      cases hget : session.snapshots.get? source with
      | none => rw [step_copySnapshot_of_none hget]
      | some registry =>
        have hne : ¬ other = name := fun heq => h ⟨heq, Dict.contains_iff.2 ⟨registry, hget⟩⟩
        rw [step_copySnapshot_of_some hget]
        exact (Dict.get?_insert _ _ _ _).trans (if_neg hne)
    | _ => cases hmanages
  · rw [snapshots_step hmanages]

/-- What stands under the name is the registry of the moment. -/
theorem TakenAt.get?_snapshots (h : session.TakenAt steps name moment) :
    (session.run steps).2.snapshots.get? name = some (session.run moment).2.daemon.registry := by
  induction h with
  | taken moment name =>
    rw [run_concat_snd]
    exact (Dict.get?_insert _ _ _ _).trans (if_pos rfl)
  | copied _ name ih =>
    rw [run_concat_snd, step_copySnapshot_of_some ih]
    exact (Dict.get?_insert _ _ _ _).trans (if_pos rfl)
  | kept _ hstep ih => rw [run_concat_snd, get?_snapshots_step hstep, ih]

theorem showsRegistryOf {now earlier : Session}
    (h : now.snapshots.get? name = some earlier.daemon.registry) :
    now.ShowsRegistryOf name earlier where
  handles := ⟨_, rfl, by simp only [Session.step, fromSnapshot, h]⟩
  contains handle := by simp only [Session.step, fromSnapshot, h]
  size := by rw [h, Option.map_some]
  provider handle := by rw [h, Option.bind_some]
  information := by simp only [Session.step, fromSnapshot, h]

/-- After some steps of a session, each of its snapshots belongs to a moment. -/
def Dated (session : Session) (steps : List Step) (now : Session) : Prop :=
  now = (session.run steps).2 ∧ ∀ name, now.snapshots.contains name = true →
    ∃ moment, session.TakenAt steps name moment

theorem Dated.concat {now : Session} (h : session.Dated steps now) (step : Step) :
    session.Dated (steps ++ [step]) (now.step step).2 := by
  obtain ⟨rfl, hdated⟩ := h
  refine ⟨(run_concat_snd session steps step).symm, fun name hname => ?_⟩
  by_cases hoverwrites : (session.run steps).2.Overwrites name step
  · cases step with
    | takeSnapshot other =>
      cases hoverwrites
      exact ⟨steps, .taken steps name⟩
    | copySnapshot source other =>
      obtain ⟨rfl, hsource⟩ := hoverwrites
      obtain ⟨moment, hmoment⟩ := hdated source hsource
      exact ⟨moment, .copied hmoment other⟩
    | dropSnapshot other =>
      cases hoverwrites
      have hnone : ((session.run steps).2.step (.dropSnapshot name)).2.snapshots.get? name = none :=
        (Dict.get?_erase _ _ _).trans (if_pos rfl)
      rw [Dict.contains, hnone] at hname
      cases hname
    | _ => exact hoverwrites.elim
  · rw [Dict.contains, get?_snapshots_step hoverwrites] at hname
    obtain ⟨moment, hmoment⟩ := hdated name hname
    exact ⟨moment, .kept hmoment hoverwrites⟩

/-- Every snapshot of a session that began without any belongs to a moment. -/
theorem dated_run (hempty : session.snapshots = .empty) (steps : List Step) :
    session.Dated steps (session.run steps).2 := by
  have hfirst : session.Dated [] session := by
    refine ⟨rfl, fun name hname => ?_⟩
    rw [hempty] at hname
    cases hname
  have hstep : ∀ steps (_ : List Answer) now step, session.Dated steps now →
      session.Dated (steps ++ [step]) (now.step step).2 := fun _ _ _ step h => h.concat step
  rw [run_eq_runs]
  exact runs_preserves hfirst hstep steps

/-! ### The registry without snapshots -/

/-- Without the steps that manage snapshots, all but the snapshots is the same. -/
theorem run_bare (session : Session) (steps : List Step) :
    (session.bare.run (steps.filter (!·.managesSnapshots))).2 = (session.run steps).2.bare := by
  induction steps generalizing session with
  | nil => rfl
  | cons step rest ih =>
    by_cases hmanages : step.managesSnapshots = true
    -- A step that is left out moves nothing but the snapshots, which `bare` forgets.
    · rw [List.filter_cons_of_neg (by simp [hmanages])]
      have hstep : (session.step step).2.bare = session.bare := step_of_managesSnapshots hmanages .empty
      rw [← hstep]
      exact ih (session.step step).2
    · rw [List.filter_cons_of_pos (by simp [hmanages])]
      have hstep : (session.bare.step step).2 = (session.step step).2.bare :=
        step_withSnapshots hmanages .empty
      have hrest := ih (session.step step).2
      rw [← hstep] at hrest
      exact hrest

/-! ### Shared storage -/

end Session

/-- A session whose snapshots share their storage with the registry. -/
structure Shared where
  storage : Storage
  /-- The rest of the session; its own registry and its own snapshots do not count. -/
  rest : Session

namespace Shared

open Session

/-- The session that is seen. -/
def view (shared : Shared) : Session :=
  (shared.rest.setRegistry shared.storage.registry).withSnapshots shared.storage.taken

/-- A session with its registry and its snapshots put into storage. -/
def ofSession (session : Session) : Shared :=
  ⟨.ofRegistries session.daemon.registry session.snapshots, session⟩

/-- Takes one step. What writes goes to the storage. -/
def step (shared : Shared) : Step → Answer × Shared
  | .register handle source =>
    match shared.rest.makeProvider source with
    | .error error => (.refused error, shared)
    | .ok provider =>
      match shared.storage.register handle provider with
      | .error error => (.refused (.registry error), shared)
      | .ok storage => (.done, { shared with storage := storage })
  | .unregister handle name =>
    match shared.storage.unregister handle with
    | .error error => (.refused (.registry error), shared)
    | .ok (provider, storage) => (.done, ⟨storage, shared.rest.save name provider⟩)
  | .takeSnapshot name => (.done, { shared with storage := shared.storage.take name })
  | .copySnapshot source name =>
    match shared.storage.copy source name with
    | none => (.refused .noSuchSnapshot, shared)
    | some storage => (.done, { shared with storage := storage })
  | .dropSnapshot name =>
    (.truth (shared.storage.snapshots.contains name),
      { shared with storage := shared.storage.drop name })
  | step =>
    let (answer, rest) := shared.view.step step
    (answer, { shared with rest := rest })

/-- The answers to some steps, and the session after them. -/
def run (shared : Shared) (steps : List Step) : List Answer × Shared := runs step shared steps

variable {shared : Shared}

theorem view_ofSession (session : Session) : (ofSession session).view = session := by
  unfold view ofSession
  rw [Storage.registry_ofRegistries, Storage.taken_ofRegistries]
  rfl

theorem view_save (storage : Storage) (rest : Session) (name : String) (provider : Provider) :
    (Shared.mk storage (rest.save name provider)).view =
      (Shared.mk storage rest).view.save name provider := by
  unfold view save
  split <;> rfl

theorem view_written (shared : Shared) (f : Registry → Registry) :
    (Shared.mk (shared.storage.write f) shared.rest).view =
      shared.view.setRegistry (f shared.view.daemon.registry) := by
  unfold view
  rw [Storage.registry_write, Storage.taken_write]
  rfl

/-- A step through the storage shows the same as the step itself. -/
theorem step_view (shared : Shared) (step : Step) :
    shared.view.step step = ((shared.step step).1, (shared.step step).2.view) := by
  cases step with
  | register handle source =>
    have hmake : shared.view.makeProvider source = shared.rest.makeProvider source := rfl
    cases hprovider : shared.rest.makeProvider source with
    | error error =>
      rw [step_register_of_error (hmake.trans hprovider)]
      simp only [step, hprovider]
    | ok provider =>
      by_cases hcontains : shared.storage.registry.contains handle = true
      · rw [step_register_of_contains (hmake.trans hprovider) hcontains]
        simp only [step, hprovider, Storage.register_of_contains provider hcontains]
      · rw [step_register_of_not_contains (hmake.trans hprovider) hcontains]
        simp only [step, hprovider, Storage.register_of_not_contains provider hcontains]
        rw [view_written]
  | unregister handle name =>
    cases hget : shared.view.daemon.registry.get? handle with
    | none =>
      rw [step_unregister_of_none hget]
      simp only [step, Storage.unregister_of_none hget]
    | some provider =>
      rw [step_unregister_of_some hget]
      simp only [step, Storage.unregister_of_some hget]
      rw [view_save, view_written]
  | takeSnapshot name =>
    exact Prod.ext rfl (congrArg shared.view.withSnapshots Storage.taken_take.symm)
  | copySnapshot source name =>
    have hview : shared.view.snapshots.get? source = _ := Storage.get?_taken shared.storage source
    cases hget : shared.storage.snapshots.get? source with
    | none =>
      rw [hget] at hview
      rw [step_copySnapshot_of_none hview]
      simp only [step, Storage.copy_of_none hget]
    | some cell =>
      rw [hget] at hview
      obtain ⟨copied, hcopied, hregistry, htaken⟩ := Storage.copy_of_some hget name
      rw [step_copySnapshot_of_some hview]
      simp only [step, hcopied, view, hregistry, htaken]
      rfl
  | dropSnapshot name =>
    exact Prod.ext (congrArg Answer.truth (Storage.contains_taken shared.storage name))
      (congrArg shared.view.withSnapshots Storage.taken_drop.symm)
  | lookup handle name =>
    refine Prod.ext rfl ?_
    simp only [step]
    cases hget : shared.view.daemon.registry.get? handle with
    | none =>
      rw [step_lookup_of_none hget]
      rfl
    | some provider =>
      rw [step_lookup_of_some hget]
      exact (view_save shared.storage shared.view name provider).symm
  | dispatch request =>
    refine Prod.ext rfl ?_
    simp only [step]
    rw [step_dispatch_snd]
    rfl
  | _ => rfl

/-- A run through the storage shows the same as the run itself. -/
theorem run_view (shared : Shared) (steps : List Step) :
    shared.view.run steps = ((shared.run steps).1, (shared.run steps).2.view) := by
  rw [run_eq_runs]
  exact runs_view step_view shared steps

end Shared

/-- Until a name is taken again, copied to or dropped, its snapshot shows what the registry showed when
the snapshot was taken. Nothing else is different for the snapshots that were taken on the way, and
nothing is different if they share their storage with the registry. -/
theorem Session.run_isolates (session : Session) (steps : List Step) :
    (∀ name moment, session.TakenAt steps name moment → moment <+: steps ∧
      (session.run steps).2.ShowsRegistryOf name (session.run moment).2) ∧
    (session.snapshots = .empty → ∀ name,
      (session.run steps).2.snapshots.contains name = true ↔
        ∃ moment, session.TakenAt steps name moment) ∧
    (∀ others : List Step,
      others.filter (!·.managesSnapshots) = steps.filter (!·.managesSnapshots) →
        (session.run others).2.daemon = (session.run steps).2.daemon ∧
          (session.run others).2.saved = (session.run steps).2.saved) ∧
    (∃ shared : Shared, shared.view = session) ∧
    ∀ shared : Shared, shared.view = session →
      session.run steps = ((shared.run steps).1, (shared.run steps).2.view) := by
  refine ⟨?_, ?_, ?_, ⟨.ofSession session, Shared.view_ofSession session⟩, ?_⟩
  · intro name moment h
    exact ⟨h.isPrefix, showsRegistryOf h.get?_snapshots⟩
  · intro hempty name
    constructor
    · exact (dated_run hempty steps).2 name
    · rintro ⟨moment, h⟩
      exact Dict.contains_iff.2 ⟨_, h.get?_snapshots⟩
  · intro others hsame
    have hbare : (session.run others).2.bare = (session.run steps).2.bare := by
      rw [← run_bare, ← run_bare, hsame]
    exact ⟨congrArg (fun bare => bare.daemon) hbare, congrArg (fun bare => bare.saved) hbare⟩
  · rintro shared rfl
    exact shared.run_view steps

end StatQuery
