import StatQuery.Proofs.Daemon.Alike
import StatQuery.Proofs.Session.Run

/-!
# Frames that others send

Frames that are inserted into a session change the statistics and delay the steps after them, and that
is all: the sessions with and without them stay alike (`Alike.step`), so every other step is answered
alike, but for the counts and the up-time that a daemon reports about itself (`runAt_extended`).
-/

namespace StatQuery.Session

/-- What is shown with every count that it reports set to zero. -/
def Shown.uncounted : Shown → Shown
  | .value seen => .value seen.uncounted
  | shown => shown

/-- The request that a step puts to the daemon. -/
def Step.request? : Step → Option Request
  | .frame bytes => (Request.decode bytes).toOption
  | .dispatch query => some query
  | _ => none

/-- Answers to a step that agree but for the counts and the up-time of the daemon: in the statistics,
and in what the daemon reports under handles of the registry or of a snapshot. -/
inductive AnswersAgree (session : Session) : Step → Answer → Answer → Prop
  | same (step : Step) (answer : Answer) : AnswersAgree session step answer answer
  | statistics (a b : Statistics) :
      AnswersAgree session .statistics (.statistics a) (.statistics b)
  | reply {step : Step} {request : Request} {r r' : Response}
      (hrequest : step.request? = some request)
      (h : r.AgreesBut (session.daemon.Counted request) r') :
      AnswersAgree session step (.reply r) (.reply r')
  | information {name : String} {registry : Registry} {shown shown' : Dict Shown}
      (hget : session.snapshots.get? name = some registry)
      (huncounted : shown.map Shown.uncounted = shown'.map Shown.uncounted)
      (helsewhere : ∀ handle, ¬ Daemon.CountsAt registry handle →
        shown.get? handle = shown'.get? handle) :
      AnswersAgree session (.askSnapshot name) (.information shown) (.information shown')

/-- The sessions differ in statistics, clocks and the dates of providers only. -/
structure Alike (session other : Session) : Prop where
  daemon : session.daemon.Alike other.daemon
  snapshots : session.snapshots.map (·.map Provider.undated) =
    other.snapshots.map (·.map Provider.undated)
  saved : session.saved.map Provider.undated = other.saved.map Provider.undated

variable {session other : Session}

namespace Alike

theorem refl (session : Session) : session.Alike session := ⟨.refl session.daemon, rfl, rfl⟩

theorem trans {third : Session} (h : session.Alike other) (h' : other.Alike third) :
    session.Alike third :=
  ⟨h.daemon.trans h'.daemon, h.snapshots.trans h'.snapshots, h.saved.trans h'.saved⟩

theorem symm (h : session.Alike other) : other.Alike session :=
  ⟨h.daemon.symm, h.snapshots.symm, h.saved.symm⟩

theorem setRegistry (h : session.Alike other) {registry registry' : Registry}
    (hregistry : registry.map Provider.undated = registry'.map Provider.undated) :
    (session.setRegistry registry).Alike (other.setRegistry registry') :=
  ⟨⟨hregistry, h.daemon.counters, h.daemon.limit, h.daemon.configView⟩, h.snapshots, h.saved⟩

theorem save (h : session.Alike other) (name : String) {provider provider' : Provider}
    (hundated : provider.undated = provider'.undated) :
    (session.save name provider).Alike (other.save name provider') := by
  unfold Session.save
  split
  · exact h
  · refine ⟨h.daemon, h.snapshots, ?_⟩
    rw [Dict.map_insert, Dict.map_insert, hundated, h.saved]

theorem withSnapshots (h : session.Alike other) {snapshots snapshots' : Dict Registry}
    (hsnapshots : snapshots.map (·.map Provider.undated) =
      snapshots'.map (·.map Provider.undated)) :
    (session.withSnapshots snapshots).Alike (other.withSnapshots snapshots') :=
  ⟨h.daemon, hsnapshots, h.saved⟩

theorem insertSnapshot (h : session.Alike other) (name : String) {registry registry' : Registry}
    (hregistry : registry.map Provider.undated = registry'.map Provider.undated) :
    (session.withSnapshots (session.snapshots.insert name registry)).Alike
      (other.withSnapshots (other.snapshots.insert name registry')) := by
  refine h.withSnapshots ?_
  rw [Dict.map_insert, Dict.map_insert, hregistry, h.snapshots]

theorem contains_snapshots_eq (h : session.Alike other) (name : String) :
    session.snapshots.contains name = other.snapshots.contains name := by
  rw [← Dict.contains_map (·.map Provider.undated), h.snapshots, Dict.contains_map]

/-- Alike sessions make the same provider, but for its date. -/
theorem makeProvider_eq (h : session.Alike other) (source : ProviderSource) :
    (session.makeProvider source).map Provider.undated =
      (other.makeProvider source).map Provider.undated := by
  cases source with
  | service value => rfl
  | cache description counters capacity => rfl
  | daemon orphan => rfl
  | scripted info cache => rfl
  | saved name =>
    rcases Dict.get?_of_map_eq h.saved name with
      ⟨hget, hget'⟩ | ⟨provider, provider', hget, hget', hundated⟩
    · simp only [Session.makeProvider, hget, hget']
    · simp only [Session.makeProvider, hget, hget', Except.map, hundated]

end Alike

/-! ### One step -/

theorem AnswersAgree.of_eq {step : Step} {answer answer' : Answer} (h : answer = answer') :
    session.AnswersAgree step answer answer' := by
  subst h
  exact .same step answer

/-- A step of alike sessions: the answers agree and the sessions stay alike. -/
def StepsAlike (session other : Session) (step : Step) : Prop :=
  session.AnswersAgree step (session.step step).1 (other.step step).1 ∧
    (session.step step).2.Alike (other.step step).2

theorem Alike.step_register (h : session.Alike other) (handle : String) (source : ProviderSource) :
    session.StepsAlike other (.register handle source) := by
  have hmake := h.makeProvider_eq source
  cases hprovider : session.makeProvider source with
  | error error =>
    have hprovider' : other.makeProvider source = .error error := by
      rw [hprovider] at hmake
      exact map_eq_error_iff.1 hmake.symm
    rw [StepsAlike, step_register_of_error hprovider, step_register_of_error hprovider']
    exact ⟨.same _ _, h⟩
  | ok provider =>
    rw [hprovider] at hmake
    obtain ⟨provider', hprovider', hundated⟩ := map_eq_ok_iff.1 hmake.symm
    by_cases hcontains : session.daemon.registry.contains handle = true
    · have hcontains' := (h.daemon.contains_eq handle).symm.trans hcontains
      rw [StepsAlike, step_register_of_contains hprovider hcontains,
        step_register_of_contains hprovider' hcontains']
      exact ⟨.same _ _, h⟩
    · have hcontains' : ¬ other.daemon.registry.contains handle = true := by
        rwa [← h.daemon.contains_eq handle]
      rw [StepsAlike, step_register_of_not_contains hprovider hcontains,
        step_register_of_not_contains hprovider' hcontains']
      refine ⟨.same _ _, h.setRegistry ?_⟩
      rw [Dict.map_insert, Dict.map_insert, hundated, h.daemon.registry]

theorem Alike.step_unregister (h : session.Alike other) (handle name : String) :
    session.StepsAlike other (.unregister handle name) := by
  rcases h.daemon.get?_cases handle with
    ⟨hget, hget'⟩ | ⟨provider, provider', hget, hget', hundated⟩
  · rw [StepsAlike, step_unregister_of_none hget, step_unregister_of_none hget']
    exact ⟨.same _ _, h⟩
  · rw [StepsAlike, step_unregister_of_some hget, step_unregister_of_some hget']
    refine ⟨.same _ _, (h.setRegistry ?_).save name hundated⟩
    rw [Dict.map_erase, Dict.map_erase, h.daemon.registry]

theorem Alike.step_lookup (h : session.Alike other) (handle name : String) :
    session.StepsAlike other (.lookup handle name) := by
  rcases h.daemon.get?_cases handle with
    ⟨hget, hget'⟩ | ⟨provider, provider', hget, hget', hundated⟩
  · rw [StepsAlike, step_lookup_of_none hget, step_lookup_of_none hget']
    exact ⟨.same _ _, h⟩
  · rw [StepsAlike, step_lookup_of_some hget, step_lookup_of_some hget']
    exact ⟨.same _ _, h.save name hundated⟩

theorem Alike.step_copySnapshot (h : session.Alike other) (source name : String) :
    session.StepsAlike other (.copySnapshot source name) := by
  rcases Dict.get?_of_map_eq h.snapshots source with
    ⟨hget, hget'⟩ | ⟨registry, registry', hget, hget', hundated⟩
  · rw [StepsAlike, step_copySnapshot_of_none hget, step_copySnapshot_of_none hget']
    exact ⟨.same _ _, h⟩
  · rw [StepsAlike, step_copySnapshot_of_some hget, step_copySnapshot_of_some hget']
    exact ⟨.same _ _, h.insertSnapshot name hundated⟩

theorem Alike.step_dropSnapshot (h : session.Alike other) (name : String) :
    session.StepsAlike other (.dropSnapshot name) := by
  refine ⟨.of_eq (congrArg Answer.truth (h.contains_snapshots_eq name)), h.withSnapshots ?_⟩
  rw [Dict.map_erase, Dict.map_erase, h.snapshots]

/-- What a snapshot shows depends on the handles and the providers that it holds, not on their dates. -/
theorem Alike.fromSnapshot_eq (h : session.Alike other) (name : String) {answer : Registry → Answer}
    (hanswer : ∀ registry registry' : Registry,
      registry.map Provider.undated = registry'.map Provider.undated →
        answer registry = answer registry') :
    session.fromSnapshot name answer = other.fromSnapshot name answer := by
  unfold fromSnapshot
  rcases Dict.get?_of_map_eq h.snapshots name with
    ⟨hget, hget'⟩ | ⟨registry, registry', hget, hget', hundated⟩
  · rw [hget, hget']
  · rw [hget, hget']
    exact hanswer registry registry' hundated

theorem shown_eq {provider provider' : Provider} (h : session.Alike other)
    (hundated : provider.undated = provider'.undated) (hcounts : ¬ Daemon.TellsCounts provider) :
    shown session.daemon.world provider = shown other.daemon.world provider' := by
  rw [shown, shown, h.daemon.info_eq hundated hcounts]

theorem shown_uncounted {provider provider' : Provider} (h : session.Alike other)
    (hundated : provider.undated = provider'.undated) :
    (shown session.daemon.world provider).uncounted =
      (shown other.daemon.world provider').uncounted := by
  by_cases hcounts : Daemon.TellsCounts provider
  · obtain ⟨started', rfl⟩ := hcounts.of_undated hundated
    obtain ⟨started, rfl⟩ := hcounts
    exact congrArg Shown.value (Daemon.uncounted_daemonInfo h.daemon.registered_eq _ _)
  · rw [shown_eq h hundated hcounts]

/-- What the providers of a snapshot show differs in counts at most, and only where a provider tells
of them. -/
theorem shown_map {registry registry' : Registry} (h : session.Alike other)
    (hundated : registry.map Provider.undated = registry'.map Provider.undated) :
    (registry.map (shown session.daemon.world)).map Shown.uncounted =
        (registry'.map (shown other.daemon.world)).map Shown.uncounted ∧
      ∀ handle, ¬ Daemon.CountsAt registry handle →
        (registry.map (shown session.daemon.world)).get? handle =
          (registry'.map (shown other.daemon.world)).get? handle := by
  constructor
  · refine Dict.ext_get? fun handle => ?_
    simp only [Dict.get?_map]
    rcases Dict.get?_of_map_eq hundated handle with
      ⟨hget, hget'⟩ | ⟨provider, provider', hget, hget', hsame⟩
    · rw [hget, hget']
      rfl
    · rw [hget, hget']
      exact congrArg some (shown_uncounted h hsame)
  · intro handle hcounts
    simp only [Dict.get?_map]
    rcases Dict.get?_of_map_eq hundated handle with
      ⟨hget, hget'⟩ | ⟨provider, provider', hget, hget', hsame⟩
    · rw [hget, hget']
      rfl
    · have htells : ¬ Daemon.TellsCounts provider := fun h => hcounts ⟨provider, hget, h⟩
      rw [hget, hget']
      exact congrArg some (shown_eq h hsame htells)

theorem Alike.step_askSnapshot (h : session.Alike other) (name : String) :
    session.StepsAlike other (.askSnapshot name) := by
  refine ⟨?_, h⟩
  simp only [step, fromSnapshot]
  rcases Dict.get?_of_map_eq h.snapshots name with
    ⟨hget, hget'⟩ | ⟨registry, registry', hget, hget', hundated⟩
  · rw [hget, hget']
    exact .same _ _
  · obtain ⟨huncounted, helsewhere⟩ := shown_map h hundated
    rw [hget, hget']
    exact .information hget huncounted helsewhere

theorem Alike.step_frame (h : session.Alike other) (frame : List UInt8) :
    session.StepsAlike other (.frame frame) := by
  constructor
  · cases hdecode : Request.decode frame with
    | error error =>
      exact .of_eq (congrArg Answer.reply
        (Daemon.answerFrame_eq_of_decode_error hdecode session.daemon other.daemon))
    | ok request =>
      have hrequest : (Step.frame frame).request? = some request := by
        rw [Step.request?, hdecode]
        rfl
      exact .reply hrequest (h.daemon.answerFrame hdecode)
  · refine ⟨?_, h.snapshots, h.saved⟩
    exact (Daemon.alike_handleFrame session.daemon frame).trans
      (h.daemon.trans (Daemon.alike_handleFrame other.daemon frame).symm)

theorem Alike.step_dispatch (h : session.Alike other) (request : Request) :
    session.StepsAlike other (.dispatch request) := by
  refine ⟨?_, ?_⟩
  · have hagree := h.daemon.dispatch request
    simp only [step]
    generalize session.daemon.dispatch request = answer at hagree
    generalize other.daemon.dispatch request = answer' at hagree
    cases hagree with
    | crash crash => exact .same _ _
    | reply hreply => exact .reply rfl hreply
  · rwa [step_dispatch_snd, step_dispatch_snd]

theorem Alike.step_useCache (h : session.Alike other) (name : String)
    (activity : Counters.Activity) (capacity : Option UInt64) :
    session.StepsAlike other (.useCache name activity capacity) := by
  have hcounters := h.daemon.countersOf_eq name
  refine ⟨.of_eq ?_, ⟨h.daemon.registry, ?_, h.daemon.limit, h.daemon.configView⟩, h.snapshots,
    h.saved⟩
  · simp only [step, hcounters]
  · simp only [step, hcounters, h.daemon.counters]

/-- Whatever step alike sessions take, their answers agree and they stay alike. -/
theorem Alike.step (h : session.Alike other) (step : Step) : session.StepsAlike other step := by
  cases step with
  | register handle source => exact h.step_register handle source
  | unregister handle name => exact h.step_unregister handle name
  | lookup handle name => exact h.step_lookup handle name
  | contains handle => exact ⟨.of_eq (congrArg Answer.truth (h.daemon.contains_eq handle)), h⟩
  | listRegistry => exact ⟨.of_eq (congrArg Answer.registry h.daemon.keys_eq), h⟩
  | takeSnapshot name => exact ⟨.same _ _, h.insertSnapshot name h.daemon.registry⟩
  | copySnapshot source name => exact h.step_copySnapshot source name
  | dropSnapshot name => exact h.step_dropSnapshot name
  | listSnapshot name =>
    refine ⟨.of_eq (h.fromSnapshot_eq name fun registry registry' hsame => ?_), h⟩
    rw [← Dict.keys_map Provider.undated, hsame, Dict.keys_map]
  | findInSnapshot name handle =>
    refine ⟨.of_eq (h.fromSnapshot_eq name fun registry registry' hsame => ?_), h⟩
    rw [← Dict.contains_map Provider.undated, hsame, Dict.contains_map]
  | askSnapshot name => exact h.step_askSnapshot name
  | frame frame => exact h.step_frame frame
  | dispatch request => exact h.step_dispatch request
  | useCache name activity capacity => exact h.step_useCache name activity capacity
  | statistics => exact ⟨.statistics _ _, h⟩

/-- A frame leaves everything but the statistics. -/
theorem step_frame_snd (session : Session) (frame : List UInt8) :
    ∃ statistics, (session.step (.frame frame)).2 =
      { session with daemon := { session.daemon with statistics := statistics } } := ⟨_, rfl⟩

/-! ### Runs in time -/

/-- The session at another moment. -/
def atClock (session : Session) (clock : Duration) : Session :=
  { session with daemon := session.daemon.atClock clock }

/-- Takes a step at a moment. -/
def stepAt (session : Session) (timed : Duration × Step) : Answer × Session :=
  (session.atClock timed.1).step timed.2

/-- The answers to steps that are taken at given moments, and the session after them. -/
def runAt (session : Session) (steps : List (Duration × Step)) : List Answer × Session :=
  runs stepAt session steps

/-- What happens in a session and in one with more frames: a step of both, each at its own moment, or
a frame in the second only. -/
inductive Happening where
  | both (first second : Duration) (step : Step)
  | extra (clock : Duration) (frame : List UInt8)

/-- The steps of the session. -/
def original (trace : List Happening) : List (Duration × Step) :=
  trace.filterMap fun
    | .both first _ step => some (first, step)
    | .extra _ _ => none

/-- The steps of the session with more frames. -/
def extended (trace : List Happening) : List (Duration × Step) :=
  trace.map fun
    | .both _ second step => (second, step)
    | .extra clock frame => (clock, .frame frame)

theorem alike_atClock (session : Session) (clock : Duration) : (session.atClock clock).Alike session :=
  ⟨session.daemon.alike_atClock clock, rfl, rfl⟩

theorem Alike.atClock (h : session.Alike other) (first second : Duration) :
    (session.atClock first).Alike (other.atClock second) :=
  (alike_atClock session first).trans (h.trans (alike_atClock other second).symm)

theorem alike_step_frame (session : Session) (frame : List UInt8) :
    (session.step (.frame frame)).2.Alike session :=
  ⟨session.daemon.alike_handleFrame frame, rfl, rfl⟩

/-- The sessions are alike after every trace. -/
theorem Alike.runAt (h : session.Alike other) (trace : List Happening) :
    (session.runAt (original trace)).2.Alike (other.runAt (extended trace)).2 := by
  induction trace generalizing session other with
  | nil => exact h
  | cons happening rest ih =>
    cases happening with
    | both first second step => exact ih ((h.atClock first second).step step).2
    | extra clock frame =>
      -- The first session stands still while the frame passes through the second.
      refine ih (h.trans ?_)
      exact ((alike_step_frame (other.atClock clock) frame).trans (alike_atClock other clock)).symm

/-- Time does not pass by itself: at a standing clock, a run in time is a run. -/
theorem runAt_standing (session : Session) (steps : List Step) :
    session.runAt (steps.map fun step => (session.daemon.clock, step)) = session.run steps := by
  induction steps generalizing session with
  | nil => rfl
  | cons step rest ih =>
    have hnow : session.atClock session.daemon.clock = session := rfl
    have hrest := ih (session.step step).2
    rw [clock_step] at hrest
    simp only [runAt] at hrest
    simp only [List.map_cons, runAt, runs, stepAt, run, hnow, hrest]

/-- A step is answered alike with and without the frames that others send before and after it, and
frames leave everything but the statistics. -/
theorem runAt_extended (session : Session) :
    (∀ (before : List Happening) (first second : Duration) (step : Step) (after : List Happening),
      ∃ answer answer',
        (session.runAt (original (before ++ .both first second step :: after))).1[
          (original before).length]? = some answer ∧
        (session.runAt (extended (before ++ .both first second step :: after))).1[
          before.length]? = some answer' ∧
        ((session.runAt (original before)).2.atClock first).AnswersAgree step answer answer') ∧
    (∀ steps : List Step,
      session.runAt (steps.map fun step => (session.daemon.clock, step)) = session.run steps) ∧
    ∀ frame, ∃ statistics, (session.step (.frame frame)).2 =
      { session with daemon := { session.daemon with statistics := statistics } } := by
  refine ⟨fun before first second step after => ?_, session.runAt_standing, session.step_frame_snd⟩
  have halike := ((Alike.refl session).runAt before).atClock first second
  have horiginal : original (before ++ .both first second step :: after) =
      original before ++ (first, step) :: original after := List.filterMap_append
  have hextended : extended (before ++ .both first second step :: after) =
      extended before ++ (second, step) :: extended after := List.map_append
  have hlength : (extended before).length = before.length := List.length_map _
  refine ⟨_, _, ?_, ?_, (halike.step step).1⟩
  · rw [horiginal]
    exact getElem?_runs stepAt session (original before) (first, step) (original after)
  · rw [hextended, ← hlength]
    exact getElem?_runs stepAt session (extended before) (second, step) (extended after)

end StatQuery.Session
