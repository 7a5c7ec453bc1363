import StatQuery.Proofs.Daemon.Crash
import StatQuery.Proofs.Daemon.SingleInfo

/-!
# Daemons that differ in their counts

Two daemons are alike if they differ in nothing but the statistics, the clock and the moments at which
their providers were made. All that a provider sees of the difference is in the counts and the up-time
that a daemon reports about itself, so alike daemons answer a request alike (`Alike.dispatch`).
-/

namespace StatQuery

/-- The provider without the moment at which it was made. -/
def Provider.undated : Provider → Provider
  | .daemon _ orphan => .daemon ⟨0⟩ orphan
  | provider => provider

/-- What a daemon reports on itself and counts up: requests and time. -/
def countNames : List String := ["requests_served", "requests_failed", "uptime_secs"]

/-- A value with every count that it reports set to zero. -/
def Json.uncounted : Json → Json
  | .object members => .object (members.map fun (name, value) =>
      (name, if name ∈ countNames then .natural 0 else value))
  | value => value

/-- A reply with every count in its data set to zero. -/
def Response.uncounted (r : Response) : Response := r.mapValues Json.uncounted

/-- Replies that agree but for counts, and those only under some handles. -/
structure Response.AgreesBut (counted : String → Prop) (r r' : Response) : Prop where
  uncounted : r.uncounted = r'.uncounted
  elsewhere : ∀ handle, ¬ counted handle → r.value? handle = r'.value? handle

theorem Response.AgreesBut.refl (counted : String → Prop) (r : Response) : AgreesBut counted r r :=
  ⟨rfl, fun _ _ => rfl⟩

theorem Provider.undated_undated (provider : Provider) :
    provider.undated.undated = provider.undated := by
  cases provider <;> rfl

/-- Only the provider of a daemon has a date. -/
theorem Provider.eq_of_undated {provider other : Provider} (h : provider.undated = other.undated)
    (hprovider : ¬ provider.ReportsDaemon) : other = provider := by
  cases provider with
  | daemon started orphan => exact absurd trivial hprovider
  | _ =>
    cases other <;> cases h
    rfl

namespace Daemon

/-- The daemons differ in their statistics, their clocks and the dates of their providers only. -/
structure Alike (daemon other : Daemon) : Prop where
  registry : daemon.registry.map Provider.undated = other.registry.map Provider.undated
  counters : daemon.counters = other.counters
  limit : daemon.limit = other.limit
  configView : daemon.configView = other.configView

variable {daemon other : Daemon} {handle : String} {provider provider' : Provider}

namespace Alike

theorem refl (daemon : Daemon) : daemon.Alike daemon := ⟨rfl, rfl, rfl, rfl⟩

theorem symm (h : daemon.Alike other) : other.Alike daemon :=
  ⟨h.registry.symm, h.counters.symm, h.limit.symm, h.configView.symm⟩

theorem trans {third : Daemon} (h : daemon.Alike other) (h' : other.Alike third) :
    daemon.Alike third :=
  ⟨h.registry.trans h'.registry, h.counters.trans h'.counters, h.limit.trans h'.limit,
    h.configView.trans h'.configView⟩

/-- Under each handle stand the same providers, but for their dates. -/
theorem get?_cases (h : daemon.Alike other) (handle : String) :
    daemon.registry.get? handle = none ∧ other.registry.get? handle = none ∨
      ∃ provider provider', daemon.registry.get? handle = some provider ∧
        other.registry.get? handle = some provider' ∧ provider.undated = provider'.undated :=
  Dict.get?_of_map_eq h.registry handle

theorem contains_eq (h : daemon.Alike other) (handle : String) :
    daemon.registry.contains handle = other.registry.contains handle := by
  rw [← Dict.contains_map Provider.undated, h.registry, Dict.contains_map]

theorem keys_eq (h : daemon.Alike other) : daemon.registry.keys = other.registry.keys := by
  rw [← Dict.keys_map Provider.undated, h.registry, Dict.keys_map]

theorem registered_eq (h : daemon.Alike other) :
    daemon.world.registered = other.world.registered := by
  have hsize := congrArg Dict.size h.registry
  rwa [Dict.size_map, Dict.size_map] at hsize

theorem countersOf_eq (h : daemon.Alike other) (name : String) :
    daemon.world.countersOf name = other.world.countersOf name := by
  unfold World.countersOf world
  rw [h.counters]

end Alike

/-! ### One provider -/

theorem uncounted_ofMembers (members : List (String × Json)) :
    Json.uncounted (.ofMembers members) = .ofMembers (members.map fun member =>
      (member.1, if member.1 ∈ countNames then .natural 0 else member.2)) :=
  congrArg Json.object (Entries.map_ofList
    (fun name value => if name ∈ countNames then .natural 0 else value) members)

theorem uncounted_daemonInfo {world world' : World} (h : world.registered = world'.registered)
    (running running' : Duration) : (Provider.daemonInfo world running).uncounted =
      (Provider.daemonInfo world' running').uncounted := by
  unfold Provider.daemonInfo
  rw [uncounted_ofMembers, uncounted_ofMembers, h]
  simp [countNames]

/-- The provider tells of the daemon's counts. -/
def TellsCounts (provider : Provider) : Prop := ∃ started, provider = .daemon started false

theorem TellsCounts.of_undated (h : TellsCounts provider)
    (hundated : provider.undated = provider'.undated) : TellsCounts provider' := by
  obtain ⟨started, rfl⟩ := h
  cases provider' <;> cases hundated
  exact ⟨_, rfl⟩

theorem Alike.info_eq (h : daemon.Alike other) (hundated : provider.undated = provider'.undated)
    (hcounts : ¬ TellsCounts provider) :
    provider.info daemon.world = provider'.info other.world := by
  cases provider with
  | daemon started orphan =>
    cases orphan with
    | false => exact absurd ⟨started, rfl⟩ hcounts
    | true =>
      cases provider' <;> cases hundated
      rfl
  | cache description counters capacity =>
    rw [Provider.eq_of_undated hundated id, Provider.info, Provider.info, h.countersOf_eq]
  | service entry => rw [Provider.eq_of_undated hundated id, Provider.info, Provider.info]
  | scripted info cache => rw [Provider.eq_of_undated hundated id, Provider.info, Provider.info]

theorem Alike.infoOutcome_eq (h : daemon.Alike other)
    (hundated : provider.undated = provider'.undated) (hcounts : ¬ TellsCounts provider) :
    daemon.infoOutcome provider = other.infoOutcome provider' := by
  rw [infoOutcome, infoOutcome, h.info_eq hundated hcounts, h.limit]

/-- What is seen of two providers differs in counts at most. -/
theorem Alike.infoOutcome_uncounted (h : daemon.Alike other)
    (hundated : provider.undated = provider'.undated) :
    (daemon.infoOutcome provider).map (·.map Json.uncounted) =
      (other.infoOutcome provider').map (·.map Json.uncounted) := by
  by_cases hcounts : TellsCounts provider
  · obtain ⟨started', rfl⟩ := hcounts.of_undated hundated
    obtain ⟨started, rfl⟩ := hcounts
    rw [infoOutcome_daemon, infoOutcome_daemon]
    simp only [Except.map]
    rw [uncounted_daemonInfo h.registered_eq]
  · rw [h.infoOutcome_eq hundated hcounts]

theorem Alike.infoOutcome_eq_error_iff (h : daemon.Alike other)
    (hundated : provider.undated = provider'.undated) {crash : Crash} :
    daemon.infoOutcome provider = .error crash ↔ other.infoOutcome provider' = .error crash := by
  have hmap := h.infoOutcome_uncounted hundated
  rw [← map_eq_error_iff (f := (·.map Json.uncounted)), hmap, map_eq_error_iff]

/-- The cache of a provider does not depend on the counts. -/
theorem Alike.cacheOutcome_undated (h : daemon.Alike other) (provider : Provider) :
    daemon.cacheOutcome provider = other.cacheOutcome provider.undated := by
  cases provider with
  | cache description counters capacity =>
    simp only [cacheOutcome, Provider.cacheAccess, Provider.undated, h.countersOf_eq, h.limit]
  | scripted info access =>
    cases access with
    | absent => rfl
    | crashed crash => rfl
    | present call => simp only [cacheOutcome, Provider.cacheAccess, Provider.undated, h.limit]
  | _ => rfl

/-! ### Requests -/

/-- A crash ends the query of one exactly if it ends that of the other. -/
theorem Alike.traverse_info_error (h : daemon.Alike other) {crash : Crash}
    (hcrash : daemon.registry.traverse daemon.infoOutcome = .error crash) :
    other.registry.traverse other.infoOutcome = .error crash := by
  have hundated : (daemon.registry.map Provider.undated).traverse daemon.infoOutcome =
      .error crash := by
    rw [Dict.traverse_map]
    refine Dict.traverse_error_of_alike (fun provider e => ?_) hcrash
    exact (refl daemon).infoOutcome_eq_error_iff provider.undated_undated.symm
  rw [h.registry, Dict.traverse_map] at hundated
  refine Dict.traverse_error_of_alike (fun provider e => ?_) hundated
  exact h.infoOutcome_eq_error_iff provider.undated_undated

theorem Alike.traverse_cache (h : daemon.Alike other) {targets targets' : Dict Provider}
    (htargets : targets.map Provider.undated = targets'.map Provider.undated) :
    targets.traverse daemon.cacheOutcome = targets'.traverse other.cacheOutcome := by
  calc targets.traverse daemon.cacheOutcome
      = (targets.map Provider.undated).traverse other.cacheOutcome := by
        rw [Dict.traverse_map]
        exact congrArg targets.traverse (funext h.cacheOutcome_undated)
    _ = (targets'.map Provider.undated).traverse other.cacheOutcome := by rw [htargets]
    _ = targets'.traverse other.cacheOutcome := by
        rw [Dict.traverse_map]
        exact (congrArg targets'.traverse (funext (refl other).cacheOutcome_undated)).symm

theorem Alike.cacheReport_eq (h : daemon.Alike other) {targets targets' : Dict Provider}
    (htargets : targets.map Provider.undated = targets'.map Provider.undated) :
    daemon.cacheReport targets = other.cacheReport targets' := by
  rw [Daemon.cacheReport_eq, Daemon.cacheReport_eq, h.traverse_cache htargets]

theorem Alike.cacheStats_eq (h : daemon.Alike other) (request : Request) :
    daemon.cacheStats request = other.cacheStats request := by
  by_cases hall : request.handle = none ∨ request.handle = some allHandles
  · rw [cacheStats_all hall, cacheStats_all hall, h.cacheReport_eq h.registry]
  · cases hhandle : request.handle with
    | none => exact absurd (Or.inl hhandle) hall
    | some handle =>
      have hne : handle ≠ allHandles := fun heq => hall (Or.inr (heq ▸ hhandle))
      rcases h.get?_cases handle with ⟨hget, hget'⟩ | ⟨provider, provider', hget, hget', hundated⟩
      · rw [cacheStats_unknown hhandle hne hget, cacheStats_unknown hhandle hne hget']
      · have htargets : (Dict.empty.insert handle provider).map Provider.undated =
            (Dict.empty.insert handle provider').map Provider.undated := by
          rw [Dict.map_insert, Dict.map_insert, hundated]
        rw [cacheStats_one hhandle hne hget, cacheStats_one hhandle hne hget',
          h.cacheReport_eq htargets]

/-- The provider under a handle tells of the daemon's counts. -/
def CountsAt (registry : Registry) (handle : String) : Prop :=
  ∃ provider, registry.get? handle = some provider ∧ TellsCounts provider

/-- Reports on alike daemons agree but for the counts of those that tell of them. -/
theorem Alike.report (h : daemon.Alike other) {outcomes outcomes' : Dict (Except ProviderError Json)}
    (houtcomes : daemon.registry.traverse daemon.infoOutcome = .ok outcomes)
    (houtcomes' : other.registry.traverse other.infoOutcome = .ok outcomes') :
    (report outcomes).AgreesBut (CountsAt daemon.registry) (report outcomes') := by
  -- Under each handle, the outcomes are those of providers that differ in their dates at most.
  have hseen : ∀ handle, outcomes.get? handle = none ∧ outcomes'.get? handle = none ∨
      ∃ provider provider' outcome outcome', daemon.registry.get? handle = some provider ∧
        provider.undated = provider'.undated ∧
        daemon.infoOutcome provider = .ok outcome ∧ other.infoOutcome provider' = .ok outcome' ∧
        outcomes.get? handle = some outcome ∧ outcomes'.get? handle = some outcome' := by
    intro handle
    rcases h.get?_cases handle with ⟨hget, hget'⟩ | ⟨provider, provider', hget, hget', hundated⟩
    · exact Or.inl ⟨(Dict.get?_traverse_eq_none houtcomes).2 hget,
        (Dict.get?_traverse_eq_none houtcomes').2 hget'⟩
    · obtain ⟨outcome, houtcome⟩ := Dict.exists_of_traverse_ok houtcomes hget
      obtain ⟨outcome', houtcome'⟩ := Dict.exists_of_traverse_ok houtcomes' hget'
      exact Or.inr ⟨provider, provider', outcome, outcome', hget, hundated, houtcome, houtcome',
        (Dict.get?_traverse_eq_some houtcomes).2 ⟨provider, hget, houtcome⟩,
        (Dict.get?_traverse_eq_some houtcomes').2 ⟨provider', hget', houtcome'⟩⟩
  constructor
  · rw [Response.uncounted, Response.uncounted, mapValues_report, mapValues_report]
    refine congrArg Daemon.report (Dict.ext_get? fun handle => ?_)
    rw [Dict.get?_map, Dict.get?_map]
    rcases hseen handle with ⟨hnone, hnone'⟩ |
      ⟨provider, provider', outcome, outcome', -, hundated, hinfo, hinfo', hsome, hsome'⟩
    · rw [hnone, hnone']
    · have huncounted := h.infoOutcome_uncounted hundated
      rw [hinfo, hinfo'] at huncounted
      rw [hsome, hsome']
      exact congrArg some (Except.ok.inj huncounted)
  · intro handle hcounted
    have hsame : outcomes.get? handle = outcomes'.get? handle := by
      rcases hseen handle with ⟨hnone, hnone'⟩ |
        ⟨provider, provider', outcome, outcome', hget, hundated, hinfo, hinfo', hsome, hsome'⟩
      · rw [hnone, hnone']
      · have hprovider : ¬ TellsCounts provider := fun htells => hcounted ⟨provider, hget, htells⟩
        rw [h.infoOutcome_eq hundated hprovider, hinfo'] at hinfo
        cases hinfo
        rw [hsome, hsome']
    apply Option.ext
    intro value
    rw [value?_report_eq_some, value?_report_eq_some, hsame]

/-- Queries that crash alike or have replies that agree but for counts. -/
inductive AnswersAgree (counted : String → Prop) :
    Except Crash Response → Except Crash Response → Prop
  | crash (crash : Crash) : AnswersAgree counted (.error crash) (.error crash)
  | reply {r r' : Response} (h : r.AgreesBut counted r') : AnswersAgree counted (.ok r) (.ok r')

theorem AnswersAgree.of_eq {counted : String → Prop} {answer answer' : Except Crash Response}
    (h : answer = answer') : AnswersAgree counted answer answer' := by
  subst h
  cases answer with
  | error crash => exact .crash crash
  | ok reply => exact .reply (.refl counted reply)

theorem Alike.allInfo (h : daemon.Alike other) :
    AnswersAgree (CountsAt daemon.registry) daemon.allInfo other.allInfo := by
  rw [allInfo_eq, allInfo_eq]
  cases houtcomes : daemon.registry.traverse daemon.infoOutcome with
  | error crash =>
    rw [h.traverse_info_error houtcomes]
    exact .crash crash
  | ok outcomes =>
    cases houtcomes' : other.registry.traverse other.infoOutcome with
    | error crash =>
      rw [h.symm.traverse_info_error houtcomes'] at houtcomes
      cases houtcomes
    | ok outcomes' => exact .reply (h.report houtcomes houtcomes')

theorem agreesBut_success {value value' : Json} {counted : String → Prop}
    (huncounted : value.uncounted = value'.uncounted) (hsame : ¬ counted handle → value = value') :
    (Response.success (Dict.empty.insert handle value)).AgreesBut counted
      (.success (Dict.empty.insert handle value')) := by
  constructor
  · simp only [Response.success, Response.uncounted, Response.mapValues, Option.map_some,
      Dict.map_insert, huncounted]
  · intro other hcounted
    simp only [Response.value?, Response.success, Option.bind_some, Dict.get?_insert]
    by_cases hother : handle = other
    · subst hother
      rw [hsame hcounted]
    · rw [if_neg hother, if_neg hother]

theorem singleInfo_crashed {crash : Crash} (hget : daemon.registry.get? handle = some provider)
    (hcrash : daemon.infoOutcome provider = .error crash) :
    daemon.singleInfo handle = .error crash := by
  simp only [Daemon.singleInfo, lookup_eq_ok_iff.2 hget, hcrash]

theorem Alike.singleInfo (h : daemon.Alike other) (handle : String) :
    AnswersAgree (fun asked => asked = handle ∧ CountsAt daemon.registry asked)
      ((daemon.singleInfo handle).map replyOf) ((other.singleInfo handle).map replyOf) := by
  rcases h.get?_cases handle with ⟨hget, hget'⟩ | ⟨provider, provider', hget, hget', hundated⟩
  · refine .of_eq ?_
    rw [singleInfo_unregistered hget, singleInfo_unregistered hget']
  · have huncounted := h.infoOutcome_uncounted hundated
    cases houtcome : daemon.infoOutcome provider with
    | error crash =>
      have houtcome' := (h.infoOutcome_eq_error_iff hundated).1 houtcome
      rw [singleInfo_crashed hget houtcome, singleInfo_crashed hget' houtcome']
      exact .crash crash
    | ok outcome =>
      rw [houtcome] at huncounted
      obtain ⟨outcome', houtcome', hseen⟩ := map_eq_ok_iff.1 huncounted.symm
      rw [singleInfo_registered hget houtcome, singleInfo_registered hget' houtcome']
      cases outcome with
      | error error =>
        cases map_eq_error_iff.1 hseen
        exact .of_eq rfl
      | ok value =>
        obtain ⟨value', rfl, hvalue⟩ := map_eq_ok_iff.1 hseen
        refine .reply (agreesBut_success hvalue.symm fun hcounted => ?_)
        have hprovider : ¬ TellsCounts provider := fun htells =>
          hcounted ⟨rfl, provider, hget, htells⟩
        rw [h.infoOutcome_eq hundated hprovider, houtcome'] at houtcome
        cases houtcome
        rfl

/-- The reply to a request may hold the daemon's counts under a handle. -/
def Counted (daemon : Daemon) (request : Request) (handle : String) : Prop :=
  request.AsksInfo handle ∧ CountsAt daemon.registry handle

theorem AnswersAgree.mono {counted counted' : String → Prop}
    {answer answer' : Except Crash Response} (h : AnswersAgree counted answer answer')
    (hmono : ∀ handle, counted handle → counted' handle) : AnswersAgree counted' answer answer' := by
  cases h with
  | crash crash => exact .crash crash
  | reply h =>
    exact .reply ⟨h.uncounted, fun handle hnot => h.elsewhere handle fun hc => hnot (hmono handle hc)⟩

/-- Alike daemons answer a request alike. -/
theorem Alike.dispatch (h : daemon.Alike other) (request : Request) :
    AnswersAgree (daemon.Counted request) (daemon.dispatch request) (other.dispatch request) := by
  by_cases hall : request.WantsAllInfo
  · rw [dispatch_of_wantsAllInfo hall, dispatch_of_wantsAllInfo hall]
    refine h.allInfo.mono fun handle htells => ⟨?_, htells⟩
    exact hall.imp_right fun hinfo => ⟨hinfo.1, Or.inl hinfo.2⟩
  · cases haction : request.action with
    | allServices => exact absurd (Or.inl haction) hall
    | info =>
      cases hhandle : request.handle with
      | none =>
        refine .of_eq ?_
        rw [Daemon.dispatch, Daemon.dispatch, outcome, outcome, haction, hhandle]
      | some handle =>
        have hne : handle ≠ allHandles := fun heq => hall (Or.inr ⟨haction, heq ▸ hhandle⟩)
        rw [Daemon.dispatch, Daemon.dispatch, outcome_info haction hhandle hne,
          outcome_info haction hhandle hne]
        refine (h.singleInfo handle).mono ?_
        rintro _ ⟨rfl, htells⟩
        exact ⟨Or.inr ⟨haction, Or.inr hhandle⟩, htells⟩
    | cacheStats =>
      refine .of_eq ?_
      rw [Daemon.dispatch, Daemon.dispatch, outcome_cacheStats haction, outcome_cacheStats haction,
        h.cacheStats_eq]
    | config =>
      refine .of_eq ?_
      rw [Daemon.dispatch, Daemon.dispatch, outcome, outcome, haction, h.configView]
    | other name =>
      refine .of_eq ?_
      rw [Daemon.dispatch, Daemon.dispatch, outcome, outcome, haction]

theorem Alike.answerFrame (h : daemon.Alike other) {frame : List UInt8} {request : Request}
    (hdecode : Request.decode frame = .ok request) :
    (daemon.answerFrame frame).AgreesBut (daemon.Counted request) (other.answerFrame frame) := by
  have hagree := h.dispatch request
  rw [Daemon.answerFrame, Daemon.answerFrame, hdecode]
  dsimp only
  generalize daemon.dispatch request = answer at hagree
  generalize other.dispatch request = answer' at hagree
  cases hagree with
  | crash crash => exact .refl _ _
  | reply hreply => exact hreply

/-- Frames that are no requests get the same reply from every daemon. -/
theorem answerFrame_eq_of_decode_error {frame : List UInt8} {error : ProtocolError}
    (hdecode : Request.decode frame = .error error) (daemon other : Daemon) :
    daemon.answerFrame frame = other.answerFrame frame := by
  rw [answerFrame_of_decode_error hdecode, answerFrame_of_decode_error hdecode]

/-- A daemon that has answered a frame is like the daemon that has not. -/
theorem alike_handleFrame (daemon : Daemon) (frame : List UInt8) :
    (daemon.handleFrame frame).2.Alike daemon := ⟨rfl, rfl, rfl, rfl⟩

theorem alike_atClock (daemon : Daemon) (clock : Duration) : (daemon.atClock clock).Alike daemon :=
  ⟨rfl, rfl, rfl, rfl⟩

end Daemon

end StatQuery
