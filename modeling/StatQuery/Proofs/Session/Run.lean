import StatQuery.Proofs.Dict
import StatQuery.Proofs.Run
import StatQuery.Session

/-!
# Steps of a session

What a step comes to, in each of its cases, and so what the session may be after it (`leads_step`). No step
sets the clock (`clock_step`), and of the steps only three manage snapshots: they change nothing else, and
the other steps neither change snapshots nor depend on them (`step_withSnapshots`).
-/

namespace StatQuery.Session

variable {session : Session} {step : Step}

theorem run_eq_runs (session : Session) (steps : List Step) :
    session.run steps = runs Session.step session steps := by
  induction steps generalizing session with
  | nil => rfl
  | cons step rest ih => simp only [run, runs, ih]

/-- The session after one more step. -/
theorem run_concat_snd (session : Session) (steps : List Step) (step : Step) :
    (session.run (steps ++ [step])).2 = ((session.run steps).2.step step).2 := by
  rw [run_eq_runs, run_eq_runs, runs_concat_snd]

/-! ### Steps with several outcomes -/

variable {handle name : String} {source : ProviderSource} {provider : Provider} {request : Request}

theorem step_register_of_error {error : StepError} (h : session.makeProvider source = .error error) :
    session.step (.register handle source) = (.refused error, session) := by
  simp only [Session.step, register, h]

theorem step_register_of_contains (h : session.makeProvider source = .ok provider)
    (hcontains : session.daemon.registry.contains handle = true) :
    session.step (.register handle source) =
      (.refused (.registry (.duplicateHandle handle)), session) := by
  simp only [Session.step, register, h, Registry.register, if_pos hcontains]

theorem step_register_of_not_contains (h : session.makeProvider source = .ok provider)
    (hcontains : ¬ session.daemon.registry.contains handle = true) :
    session.step (.register handle source) =
      (.done, session.setRegistry (session.daemon.registry.insert handle provider)) := by
  simp only [Session.step, register, h, Registry.register, if_neg hcontains]

theorem step_unregister_of_none (h : session.daemon.registry.get? handle = none) :
    session.step (.unregister handle name) =
      (.refused (.registry (.unknownHandle handle)), session) := by
  simp only [Session.step, Registry.unregister, h]

theorem step_unregister_of_some (h : session.daemon.registry.get? handle = some provider) :
    session.step (.unregister handle name) =
      (.done, (session.setRegistry (session.daemon.registry.erase handle)).save name provider) := by
  simp only [Session.step, Registry.unregister, h]

theorem step_lookup_of_none (h : session.daemon.registry.get? handle = none) :
    session.step (.lookup handle name) = (.refused (.registry (.unknownHandle handle)), session) := by
  simp only [Session.step, Registry.lookup, h]

theorem step_lookup_of_some (h : session.daemon.registry.get? handle = some provider) :
    session.step (.lookup handle name) = (.done, session.save name provider) := by
  simp only [Session.step, Registry.lookup, h]

theorem step_dispatch_of_ok {reply : Response} (h : session.daemon.dispatch request = .ok reply) :
    session.step (.dispatch request) = (.reply reply, session) := by
  simp only [Session.step, h]

theorem step_dispatch_of_error {crash : Crash} (h : session.daemon.dispatch request = .error crash) :
    session.step (.dispatch request) = (.crashed crash, session) := by
  simp only [Session.step, h]

theorem step_dispatch_snd (session : Session) (request : Request) :
    (session.step (.dispatch request)).2 = session := by
  cases h : session.daemon.dispatch request with
  | ok reply => rw [step_dispatch_of_ok h]
  | error crash => rw [step_dispatch_of_error h]

theorem step_copySnapshot_of_none {original : String} (h : session.snapshots.get? original = none) :
    session.step (.copySnapshot original name) = (.refused .noSuchSnapshot, session) := by
  simp only [Session.step, h]

theorem step_copySnapshot_of_some {original : String} {registry : Registry}
    (h : session.snapshots.get? original = some registry) :
    session.step (.copySnapshot original name) =
      (.done, { session with snapshots := session.snapshots.insert name registry }) := by
  simp only [Session.step, h]

theorem daemon_save (session : Session) (name : String) (provider : Provider) :
    (session.save name provider).daemon = session.daemon := by
  unfold save
  split <;> rfl

/-! ### What a step can do -/

/-- The step only looks at the session. -/
def Step.looks : Step → Bool
  | .contains _ | .listRegistry | .listSnapshot _ | .findInSnapshot _ _ | .askSnapshot _ | .dispatch _
  | .statistics => true
  | _ => false

/-- The step takes, copies or drops a snapshot. -/
def Step.managesSnapshots : Step → Bool
  | .takeSnapshot _ | .copySnapshot _ _ | .dropSnapshot _ => true
  | _ => false

/-- The session with other snapshots. -/
def withSnapshots (session : Session) (snapshots : Dict Registry) : Session :=
  { session with snapshots := snapshots }

/-- What the session may be after a step. -/
inductive Leads (session : Session) : Step → Session → Prop
  | looks {step : Step} (h : step.looks = true) : Leads session step session
  | refused {step : Step} {error : StepError} (h : session.step step = (.refused error, session)) :
      Leads session step session
  | register {handle : String} {source : ProviderSource} {provider : Provider}
      (hmake : session.makeProvider source = .ok provider) : Leads session (.register handle source)
        (session.setRegistry (session.daemon.registry.insert handle provider))
  | unregister {handle : String} {provider : Provider} (name : String)
      (hget : session.daemon.registry.get? handle = some provider) :
      Leads session (.unregister handle name)
        ((session.setRegistry (session.daemon.registry.erase handle)).save name provider)
  | lookup {handle : String} {provider : Provider} (name : String)
      (hget : session.daemon.registry.get? handle = some provider) :
      Leads session (.lookup handle name) (session.save name provider)
  | snapshots {step : Step} (h : step.managesSnapshots = true) (snapshots : Dict Registry) :
      Leads session step (session.withSnapshots snapshots)
  | frame (frame : List UInt8) (statistics : Statistics) : Leads session (.frame frame)
      { session with daemon := { session.daemon with statistics := statistics } }
  | useCache (name : String) (activity : Counters.Activity) (capacity : Option UInt64) :
      Leads session (.useCache name activity capacity)
        { session with daemon := { session.daemon with
            counters := session.daemon.counters.insert name
              ((session.daemon.world.countersOf name).record activity) } }

theorem leads_step (session : Session) (step : Step) : session.Leads step (session.step step).2 := by
  cases step with
  | register handle source =>
    cases hprovider : session.makeProvider source with
    | error error =>
      rw [step_register_of_error hprovider]
      exact .refused (step_register_of_error hprovider)
    | ok provider =>
      by_cases hcontains : session.daemon.registry.contains handle = true
      · rw [step_register_of_contains hprovider hcontains]
        exact .refused (step_register_of_contains hprovider hcontains)
      · rw [step_register_of_not_contains hprovider hcontains]
        exact .register hprovider
  | unregister handle name =>
    cases hget : session.daemon.registry.get? handle with
    | none =>
      rw [step_unregister_of_none hget]
      exact .refused (step_unregister_of_none hget)
    | some provider =>
      rw [step_unregister_of_some hget]
      exact .unregister name hget
  | lookup handle name =>
    cases hget : session.daemon.registry.get? handle with
    | none =>
      rw [step_lookup_of_none hget]
      exact .refused (step_lookup_of_none hget)
    | some provider =>
      rw [step_lookup_of_some hget]
      exact .lookup name hget
  | copySnapshot original name =>
    cases hget : session.snapshots.get? original with
    | none =>
      rw [step_copySnapshot_of_none hget]
      exact .refused (step_copySnapshot_of_none hget)
    | some registry =>
      rw [step_copySnapshot_of_some hget]
      exact .snapshots rfl _
  | takeSnapshot name => exact .snapshots rfl _
  | dropSnapshot name => exact .snapshots rfl _
  | frame bytes => exact .frame bytes _
  | useCache name activity capacity => exact .useCache name activity capacity
  | dispatch request =>
    rw [step_dispatch_snd]
    exact .looks rfl
  | _ => exact .looks rfl

/-! ### What no step changes -/

/-- All sets of counters after a step: only the use of a cache changes them. -/
def Step.countersAfter (world : World) : Step → Dict Counters
  | .useCache name activity _ =>
    world.counters.insert name ((world.countersOf name).record activity)
  | _ => world.counters

/-- A step changes nothing of the daemon but its registry, its statistics and its counters. -/
theorem Leads.exists_daemon {next : Session} (h : session.Leads step next) : ∃ registry statistics,
    next.daemon = { session.daemon with
      registry := registry, statistics := statistics
      counters := step.countersAfter session.daemon.world } := by
  cases h with
  -- The use of a cache is none of the first three kinds.
  | looks hlooks =>
    cases step with
    | useCache name activity capacity => cases hlooks
    | _ => exact ⟨_, _, rfl⟩
  | refused hrefused =>
    cases step with
    | useCache name activity capacity => cases hrefused
    | _ => exact ⟨_, _, rfl⟩
  | snapshots hmanages =>
    cases step with
    | useCache name activity capacity => cases hmanages
    | _ => exact ⟨_, _, rfl⟩
  | unregister name hget =>
    rw [daemon_save]
    exact ⟨_, _, rfl⟩
  | lookup name hget =>
    rw [daemon_save]
    exact ⟨_, _, rfl⟩
  | _ => exact ⟨_, _, rfl⟩

/-- No step sets the clock. -/
theorem clock_step (session : Session) (step : Step) :
    (session.step step).2.daemon.clock = session.daemon.clock := by
  obtain ⟨registry, statistics, hdaemon⟩ := (session.leads_step step).exists_daemon
  rw [hdaemon]

/-- No step changes what the daemon says about its configuration. -/
theorem configView_step (session : Session) (step : Step) :
    (session.step step).2.daemon.configView = session.daemon.configView := by
  obtain ⟨registry, statistics, hdaemon⟩ := (session.leads_step step).exists_daemon
  rw [hdaemon]

/-! ### Steps and snapshots -/

/-- A step that manages snapshots changes nothing else. -/
theorem step_of_managesSnapshots (h : step.managesSnapshots = true) (snapshots : Dict Registry) :
    (session.step step).2.withSnapshots snapshots = session.withSnapshots snapshots := by
  cases step with
  | takeSnapshot name => rfl
  | copySnapshot original name =>
    cases hget : session.snapshots.get? original with
    | none => rw [step_copySnapshot_of_none hget]
    | some registry =>
      rw [step_copySnapshot_of_some hget]
      rfl
  | dropSnapshot name => rfl
  | _ => cases h

theorem save_withSnapshots (session : Session) (snapshots : Dict Registry) (name : String)
    (provider : Provider) : (session.withSnapshots snapshots).save name provider =
      (session.save name provider).withSnapshots snapshots := by
  unfold save
  split <;> rfl

/-- The other steps neither change snapshots nor depend on them. -/
theorem step_withSnapshots (h : ¬ step.managesSnapshots = true) (snapshots : Dict Registry) :
    ((session.withSnapshots snapshots).step step).2 =
      (session.step step).2.withSnapshots snapshots := by
  have hmake : ∀ source, (session.withSnapshots snapshots).makeProvider source =
      session.makeProvider source := fun _ => rfl
  have hfind : ∀ handle, (session.withSnapshots snapshots).daemon.registry.get? handle =
      session.daemon.registry.get? handle := fun _ => rfl
  cases step with
  | register handle source =>
    cases hprovider : session.makeProvider source with
    | error error =>
      rw [step_register_of_error hprovider, step_register_of_error ((hmake source).trans hprovider)]
    | ok provider =>
      by_cases hcontains : session.daemon.registry.contains handle = true
      · rw [step_register_of_contains hprovider hcontains,
          step_register_of_contains ((hmake source).trans hprovider) hcontains]
      · rw [step_register_of_not_contains hprovider hcontains,
          step_register_of_not_contains ((hmake source).trans hprovider) hcontains]
        rfl
  | unregister handle name =>
    cases hget : session.daemon.registry.get? handle with
    | none =>
      rw [step_unregister_of_none hget, step_unregister_of_none ((hfind handle).trans hget)]
    | some provider =>
      rw [step_unregister_of_some hget, step_unregister_of_some ((hfind handle).trans hget),
        ← save_withSnapshots]
      rfl
  | lookup handle name =>
    cases hget : session.daemon.registry.get? handle with
    | none => rw [step_lookup_of_none hget, step_lookup_of_none ((hfind handle).trans hget)]
    | some provider =>
      rw [step_lookup_of_some hget, step_lookup_of_some ((hfind handle).trans hget),
        save_withSnapshots]
  | dispatch request => rw [step_dispatch_snd, step_dispatch_snd]
  | takeSnapshot name => exact absurd rfl h
  | copySnapshot original name => exact absurd rfl h
  | dropSnapshot name => exact absurd rfl h
  | _ => rfl

theorem snapshots_step (h : ¬ step.managesSnapshots = true) :
    (session.step step).2.snapshots = session.snapshots := by
  have hsame : (session.step step).2 = (session.step step).2.withSnapshots session.snapshots :=
    step_withSnapshots h session.snapshots
  rw [hsame]
  rfl

end StatQuery.Session
