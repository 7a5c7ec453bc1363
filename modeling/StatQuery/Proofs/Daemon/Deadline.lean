import StatQuery.Proofs.Daemon.CacheReport
import StatQuery.Proofs.Daemon.Crash
import StatQuery.Proofs.Daemon.InfoReport

/-!
# Reports under a laxer limit

A laxer limit never takes a value out of a report. A call is seen alike under two limits, unless the
stricter one cuts it off (`Call.Yields.relaxed`), and reports are put together handle by handle
(`relaxes_report`), so a provider that does not look at the clock has the same standing in both
(`dispatch_relaxed`). The limit is on each call alone: a value is told exactly if its own call comes to
it in time, however long the others take (`value_iff_offers`).
-/

namespace StatQuery

/-- Whatever keeps to the first limit keeps to the second, which may be none. -/
def Laxer (limit limit' : Option Duration) : Prop :=
  ∀ bound', limit' = some bound' → ∃ bound, limit = some bound ∧ bound ≤ bound'

/-- The limit has cut a call off. -/
def CutOff {α : Type} (limit : Option Duration) (outcome : Except ProviderError α) : Prop :=
  ∃ bound, limit = some bound ∧ outcome = .error (.timedOut bound)

namespace Call

variable {α : Type} {limit limit' : Option Duration} {call : Call α}

theorem InTime.relaxed {time : Duration} (h : InTime limit time) (hlaxer : Laxer limit limit') :
    InTime limit' time := by
  intro bound' hbound'
  obtain ⟨bound, hbound, hle⟩ := hlaxer bound' hbound'
  exact Nat.le_trans (h bound hbound) hle

/-- A laxer limit lets the same be seen of a call that the stricter one has not cut off. -/
theorem Yields.relaxed {outcome outcome' : Except ProviderError α} (h : call.Yields limit outcome)
    (h' : call.Yields limit' outcome') (hlaxer : Laxer limit limit') :
    outcome = outcome' ∨ CutOff limit outcome := by
  cases h with
  | refused crash => exact .inl (Yields.unique (.refused crash) h')
  | crashed crash htime => exact .inl (Yields.unique (.crashed crash (htime.relaxed hlaxer)) h')
  | late hlimit hlate => exact .inr ⟨_, hlimit, rfl⟩
  | finished _ htime => exact .inl (Yields.unique (.finished _ (htime.relaxed hlaxer)) h')

/-- A crash that gets past the guard in time does so under a laxer limit too. -/
theorem Escapes.relaxed {crash : Crash} (h : call.Escapes limit crash)
    (hlaxer : Laxer limit limit') : call.Escapes limit' crash := by
  obtain ⟨time, result, hcall, htime⟩ := h
  exact ⟨time, result, hcall, htime.relaxed hlaxer⟩

/-- A value is seen exactly if the call comes to it in time. -/
theorem yields_ok_iff {value : α} : call.Yields limit (.ok value) ↔
    ∃ time, call = .finished time (.ok value) none ∧ InTime limit time := by
  constructor
  · intro h
    cases h with
    | finished result htime => exact ⟨_, rfl, htime⟩
  · rintro ⟨time, rfl, htime⟩
    exact .finished (.ok value) htime

end Call

/-- A reply under a laxer limit next to one under a stricter limit: each handle stands as before, unless
the stricter limit has cut its provider off. -/
structure Response.Relaxes (limit : Option Duration) (reply reply' : Response) : Prop where
  ok : reply.ok = reply'.ok
  error : reply.error = reply'.error
  standing : ∀ handle,
    reply.value? handle = reply'.value? handle ∧ reply.note? handle = reply'.note? handle ∨
      ∃ bound, limit = some bound ∧ reply.value? handle = none ∧
        reply.note? handle = some s!"timed out after {bound.text}"

/-- No value is lost. -/
theorem Response.Relaxes.value?_eq {limit : Option Duration} {reply reply' : Response}
    (h : reply.Relaxes limit reply') {handle : String} {value : Json}
    (hvalue : reply.value? handle = some value) : reply'.value? handle = some value := by
  rcases h.standing handle with ⟨hsame, -⟩ | ⟨bound, -, hnone, -⟩
  · rw [← hsame, hvalue]
  · rw [hnone] at hvalue
    cases hvalue

/-- The request gathers what several providers tell, or the counters of one. -/
def Request.Gathers (request : Request) : Prop :=
  request.WantsAllInfo ∨ request.action = .cacheStats

theorem Response.Relaxes.refl (limit : Option Duration) (reply : Response) :
    reply.Relaxes limit reply := ⟨rfl, rfl, fun _ => .inl ⟨rfl, rfl⟩⟩

namespace Daemon

variable {daemon : Daemon} {request : Request} {handle : String} {provider : Provider}
  {limit limit' : Option Duration} {clock clock' : Duration}

/-- The daemon at a moment, with a limit on each call. -/
def under (daemon : Daemon) (limit : Option Duration) (clock : Duration) : Daemon :=
  { daemon with limit := limit, clock := clock }

/-- What comes of a provider is the same at every moment. -/
structure Ageless (daemon : Daemon) (provider : Provider) : Prop where
  info : ∀ clock, provider.info (daemon.atClock clock).world = provider.info daemon.world
  cacheAccess : ∀ clock,
    provider.cacheAccess (daemon.atClock clock).world = provider.cacheAccess daemon.world

/-- What comes of each registered provider is the same at every moment. -/
def Steady (daemon : Daemon) : Prop :=
  ∀ handle provider, daemon.registry.get? handle = some provider → daemon.Ageless provider

theorem Ageless.info_under (h : daemon.Ageless provider) :
    provider.info (daemon.under limit clock).world = provider.info daemon.world :=
  h.info clock

theorem Ageless.cacheAccess_under (h : daemon.Ageless provider) :
    provider.cacheAccess (daemon.under limit clock).world = provider.cacheAccess daemon.world :=
  h.cacheAccess clock

/-! ### Entry by entry -/

theorem value?_report (outcomes : Dict (Except ProviderError Json)) (handle : String) :
    (report outcomes).value? handle = (outcomes.get? handle).bind outcomeValue? := by
  rw [report, Response.value?_partialSuccess, Dict.get?_filterMap]

theorem note?_report (outcomes : Dict (Except ProviderError Json)) (handle : String) :
    (report outcomes).note? handle = (outcomes.get? handle).bind outcomeNote? := by
  rw [report, Response.note?_partialSuccess, Dict.get?_filterMap]

theorem relaxes_report {outcomes outcomes' : Dict (Except ProviderError Json)}
    (h : ∀ handle, outcomes.get? handle = outcomes'.get? handle ∨
      ∃ outcome, outcomes.get? handle = some outcome ∧ CutOff limit outcome) :
    (report outcomes).Relaxes limit (report outcomes') where
  ok := rfl
  error := rfl
  standing handle := by
    simp only [value?_report, note?_report]
    rcases h handle with hsame | ⟨_, hget, bound, hlimit, rfl⟩
    · exact .inl ⟨by rw [hsame], by rw [hsame]⟩
    · exact .inr ⟨bound, hlimit, by rw [hget]; rfl, by rw [hget]; rfl⟩

/-- Entries of two traversals of the same providers. -/
theorem get?_traverse_relaxed {α : Type} {f f' : Provider → Except Crash α} {targets : Dict Provider}
    {seen seen' : Dict α} (hseen : targets.traverse f = .ok seen)
    (hseen' : targets.traverse f' = .ok seen') {R : α → Prop}
    (handle : String)
    (h : ∀ provider, targets.get? handle = some provider → ∀ a a', f provider = .ok a →
      f' provider = .ok a' → a = a' ∨ R a) :
    seen.get? handle = seen'.get? handle ∨ ∃ a, seen.get? handle = some a ∧ R a := by
  cases hget : targets.get? handle with
  | none =>
    rw [(Dict.get?_traverse_eq_none hseen).2 hget, (Dict.get?_traverse_eq_none hseen').2 hget]
    exact .inl rfl
  | some provider =>
    obtain ⟨a, ha⟩ := Dict.exists_of_traverse_ok hseen hget
    obtain ⟨a', ha'⟩ := Dict.exists_of_traverse_ok hseen' hget
    have hentry := (Dict.get?_traverse_eq_some hseen).2 ⟨provider, hget, ha⟩
    have hentry' := (Dict.get?_traverse_eq_some hseen').2 ⟨provider, hget, ha'⟩
    rcases h provider hget a a' ha ha' with rfl | hR
    · exact .inl (hentry.trans hentry'.symm)
    · exact .inr ⟨a, hentry, hR⟩

theorem infoOutcome_relaxed (hageless : daemon.Ageless provider) (hlaxer : Laxer limit limit')
    {outcome outcome' : Except ProviderError Json}
    (h : (daemon.under limit clock).infoOutcome provider = .ok outcome)
    (h' : (daemon.under limit' clock').infoOutcome provider = .ok outcome') :
    outcome = outcome' ∨ CutOff limit outcome := by
  rw [infoOutcome_eq_ok_iff, hageless.info_under] at h h'
  exact h.relaxed h' hlaxer

theorem cacheOutcome_relaxed (hageless : daemon.Ageless provider) (hlaxer : Laxer limit limit')
    {seen seen' : Option (Except ProviderError CacheStats)}
    (h : (daemon.under limit clock).cacheOutcome provider = .ok seen)
    (h' : (daemon.under limit' clock').cacheOutcome provider = .ok seen') :
    seen = seen' ∨ ∃ outcome, seen = some outcome ∧ CutOff limit outcome := by
  unfold cacheOutcome at h h'
  rw [hageless.cacheAccess_under] at h h'
  cases haccess : provider.cacheAccess daemon.world with
  | absent =>
    rw [haccess] at h h'
    exact .inl (Except.ok.inj (h.symm.trans h'))
  | crashed crash =>
    rw [haccess] at h h'
    exact .inl (Except.ok.inj (h.symm.trans h'))
  | present call =>
    rw [haccess] at h h'
    obtain ⟨outcome, houtcome, rfl⟩ := map_eq_ok_iff.1 h
    obtain ⟨outcome', houtcome', rfl⟩ := map_eq_ok_iff.1 h'
    rcases (Call.guarded_eq_ok_iff.1 houtcome).relaxed (Call.guarded_eq_ok_iff.1 houtcome') hlaxer with
      rfl | hcut
    · exact .inl rfl
    · exact .inr ⟨outcome, rfl, hcut⟩

/-! ### Whole reports -/

theorem allInfo_relaxes (hsteady : daemon.Steady) (hlaxer : Laxer limit limit')
    {reply reply' : Response} (h : (daemon.under limit clock).allInfo = .ok reply)
    (h' : (daemon.under limit' clock').allInfo = .ok reply') : reply.Relaxes limit reply' := by
  rw [allInfo_eq] at h h'
  obtain ⟨outcomes, houtcomes, rfl⟩ := map_eq_ok_iff.1 h
  obtain ⟨outcomes', houtcomes', rfl⟩ := map_eq_ok_iff.1 h'
  refine relaxes_report fun handle => get?_traverse_relaxed houtcomes houtcomes' handle ?_
  intro provider hget outcome outcome' houtcome houtcome'
  exact infoOutcome_relaxed (hsteady handle provider hget) hlaxer houtcome houtcome'

theorem cacheReport_relaxes {targets : Dict Provider}
    (hageless : ∀ handle provider, targets.get? handle = some provider → daemon.Ageless provider)
    (hlaxer : Laxer limit limit') {reply reply' : Response}
    (h : (daemon.under limit clock).cacheReport targets = .ok reply)
    (h' : (daemon.under limit' clock').cacheReport targets = .ok reply') :
    reply.Relaxes limit reply' := by
  rw [cacheReport_eq] at h h'
  obtain ⟨seen, hseen, rfl⟩ := map_eq_ok_iff.1 h
  obtain ⟨seen', hseen', rfl⟩ := map_eq_ok_iff.1 h'
  refine relaxes_report fun handle => ?_
  have hentry := get?_traverse_relaxed hseen hseen' handle
    fun provider hget _ _ => cacheOutcome_relaxed (hageless handle provider hget) hlaxer
  simp only [Dict.get?_map, Dict.get?_filterMap]
  rcases hentry with hsame | ⟨_, hget, _, rfl, bound, hlimit, rfl⟩
  · exact .inl (by rw [hsame])
  · exact .inr ⟨.error (.timedOut bound), by rw [hget]; rfl, bound, hlimit, rfl⟩

theorem cacheStats_relaxes (hsteady : daemon.Steady) (hlaxer : Laxer limit limit')
    (haction : request.action = .cacheStats) {result result' : Except QueryError Response}
    (h : (daemon.under limit clock).cacheStats request = .ok result)
    (h' : (daemon.under limit' clock').cacheStats request = .ok result') :
    (replyOf result).Relaxes limit (replyOf result') := by
  rcases cacheStats_cases haction daemon.registry with
    ⟨-, error, herror⟩ | ⟨targets, htargets, hreport⟩
  · cases (herror (daemon.under limit clock) rfl).symm.trans h
    cases (herror (daemon.under limit' clock') rfl).symm.trans h'
    exact .refl limit _
  · rw [hreport (daemon.under limit clock) rfl] at h
    rw [hreport (daemon.under limit' clock') rfl] at h'
    obtain ⟨reply, hreply, rfl⟩ := map_eq_ok_iff.1 h
    obtain ⟨reply', hreply', rfl⟩ := map_eq_ok_iff.1 h'
    refine cacheReport_relaxes (fun handle provider hget => ?_) hlaxer hreply hreply'
    exact hsteady handle provider ((htargets handle provider).1 hget).1

theorem relaxes_of_dispatch (hsteady : daemon.Steady) (hlaxer : Laxer limit limit')
    (hgathers : request.Gathers) {reply reply' : Response}
    (h : (daemon.under limit clock).dispatch request = .ok reply)
    (h' : (daemon.under limit' clock').dispatch request = .ok reply') :
    reply.Relaxes limit reply' := by
  rcases hgathers with hwants | haction
  · rw [dispatch_of_wantsAllInfo hwants] at h h'
    exact allInfo_relaxes hsteady hlaxer h h'
  · rw [dispatch, outcome_cacheStats haction] at h h'
    obtain ⟨result, hresult, rfl⟩ := map_eq_ok_iff.1 h
    obtain ⟨result', hresult', rfl⟩ := map_eq_ok_iff.1 h'
    exact cacheStats_relaxes hsteady hlaxer haction hresult hresult'

theorem Escapes.relaxed (hsteady : daemon.Steady) (hlaxer : Laxer limit limit') {crash : Crash}
    (h : (daemon.under limit clock).Escapes request crash) :
    (daemon.under limit' clock').Escapes request crash := by
  cases h with
  | @info handle provider hasks hget hcrash =>
    have hageless := hsteady handle provider hget
    refine .info hasks hget ?_
    rw [hageless.info_under] at hcrash ⊢
    exact hcrash.relaxed hlaxer
  | @cache handle provider call hasks hget hcall hcrash =>
    have hageless := hsteady handle provider hget
    rw [hageless.cacheAccess_under] at hcall
    exact .cache hasks hget (hageless.cacheAccess_under.trans hcall) (hcrash.relaxed hlaxer)

/-! ### One provider's own time -/

/-- With no limit set, the provider under a handle comes in some time to a value that the request
asks for. -/
inductive Offers (daemon : Daemon) (request : Request) (handle : String) (time : Duration) :
    Json → Prop
  | info {provider : Provider} {value : Json} (hasks : request.AsksInfo handle)
      (hget : daemon.registry.get? handle = some provider)
      (hcall : provider.info daemon.world = .finished time (.ok value) none) :
      Offers daemon request handle time value
  | cache {provider : Provider} {stats : CacheStats} (hasks : request.AsksCache handle)
      (hget : daemon.registry.get? handle = some provider)
      (hcall : provider.cacheAccess daemon.world = .present (.finished time (.ok stats) none)) :
      Offers daemon request handle time stats.toJson

theorem value?_allInfo_iff {reply : Response} (h : daemon.allInfo = .ok reply) {value : Json} :
    reply.value? handle = some value ↔ ∃ provider time,
      daemon.registry.get? handle = some provider ∧
      provider.info daemon.world = .finished time (.ok value) none ∧
      Call.InTime daemon.limit time := by
  rw [allInfo_eq] at h
  obtain ⟨outcomes, houtcomes, rfl⟩ := map_eq_ok_iff.1 h
  simp only [(tellsInfo_report houtcomes).value_iff, Call.yields_ok_iff, exists_and_left]

theorem value?_cacheReport_iff {targets : Dict Provider} {reply : Response}
    (h : daemon.cacheReport targets = .ok reply) {value : Json} :
    reply.value? handle = some value ↔ ∃ provider time stats, targets.get? handle = some provider ∧
      provider.cacheAccess daemon.world = .present (.finished time (.ok stats) none) ∧
      stats.toJson = value ∧ Call.InTime daemon.limit time := by
  rw [cacheReport_eq] at h
  obtain ⟨seen, hseen, rfl⟩ := map_eq_ok_iff.1 h
  rw [value?_report_eq_some]
  constructor
  · intro hvalue
    obtain ⟨stats, hstats, htext⟩ := cacheOutcomes_get?_ok.1 hvalue
    obtain ⟨provider, hget, houtcome⟩ := (Dict.get?_traverse_eq_some hseen).1 hstats
    obtain ⟨call, hcall, hyields⟩ := cacheOutcome_eq_stats_iff.1 houtcome
    obtain ⟨time, rfl, htime⟩ := Call.yields_ok_iff.1 hyields
    exact ⟨provider, time, stats, hget, hcall, htext, htime⟩
  · rintro ⟨provider, time, stats, hget, hcall, htext, htime⟩
    have houtcome := cacheOutcome_eq_stats_iff.2 ⟨_, hcall, Call.yields_ok_iff.2 ⟨time, rfl, htime⟩⟩
    exact cacheOutcomes_get?_ok.2
      ⟨stats, (Dict.get?_traverse_eq_some hseen).2 ⟨provider, hget, houtcome⟩, htext⟩

theorem asksInfo_of_wantsAllInfo (h : request.WantsAllInfo) (handle : String) :
    request.AsksInfo handle := h.imp_right fun h => ⟨h.1, .inl h.2⟩

theorem not_asksCache_of_wantsAllInfo (h : request.WantsAllInfo) (handle : String) :
    ¬ request.AsksCache handle := by
  rintro ⟨haction, -⟩
  rcases h with h | ⟨h, -⟩ <;> rw [haction] at h <;> cases h

/-- A value is told exactly if its provider comes to it in time: the others count for nothing. -/
theorem value_iff_offers (hgathers : request.Gathers) {reply : Response}
    (h : daemon.dispatch request = .ok reply) {value : Json} :
    reply.value? handle = some value ↔
      ∃ time, daemon.Offers request handle time value ∧ Call.InTime daemon.limit time := by
  rcases hgathers with hwants | haction
  · rw [dispatch_of_wantsAllInfo hwants] at h
    rw [value?_allInfo_iff h]
    constructor
    · rintro ⟨provider, time, hget, hcall, htime⟩
      exact ⟨time, .info (asksInfo_of_wantsAllInfo hwants handle) hget hcall, htime⟩
    · rintro ⟨time, hoffers, htime⟩
      cases hoffers with
      | info hasks hget hcall => exact ⟨_, time, hget, hcall, htime⟩
      | cache hasks => exact absurd hasks (not_asksCache_of_wantsAllInfo hwants handle)
  · have hinfo : ¬ request.AsksInfo handle := by
      rintro (hother | ⟨hother, -⟩) <;> rw [haction] at hother <;> cases hother
    rw [dispatch, outcome_cacheStats haction] at h
    rcases cacheStats_cases haction daemon.registry with
      ⟨hnone, error, herror⟩ | ⟨targets, htargets, hreport⟩
    · cases (congrArg (Except.map replyOf) (herror daemon rfl)).symm.trans h
      constructor
      · intro hvalue
        cases hvalue
      · rintro ⟨time, hoffers, -⟩
        cases hoffers with
        | info hasks => exact absurd hasks hinfo
        | cache hasks hget =>
          rw [hnone handle hasks] at hget
          cases hget
    · rw [hreport daemon rfl] at h
      obtain ⟨result, hresult, rfl⟩ := map_eq_ok_iff.1 h
      obtain ⟨reply, hreply, rfl⟩ := map_eq_ok_iff.1 hresult
      rw [replyOf, value?_cacheReport_iff hreply]
      constructor
      · rintro ⟨provider, time, stats, hget, hcall, rfl, htime⟩
        obtain ⟨hregistered, hasks⟩ := (htargets handle provider).1 hget
        exact ⟨time, .cache hasks hregistered hcall, htime⟩
      · rintro ⟨time, hoffers, htime⟩
        cases hoffers with
        | info hasks => exact absurd hasks hinfo
        | cache hasks hget hcall =>
          exact ⟨_, time, _, (htargets handle _).2 ⟨hget, hasks⟩, hcall, rfl, htime⟩

/-- The limit and the moment do not show in what steady providers offer. -/
theorem offers_under_iff (hsteady : daemon.Steady) {time : Duration} {value : Json} :
    (daemon.under limit clock).Offers request handle time value ↔
      daemon.Offers request handle time value := by
  constructor
  · intro h
    cases h with
    | info hasks hget hcall =>
      exact .info hasks hget ((hsteady _ _ hget).info_under.symm.trans hcall)
    | cache hasks hget hcall =>
      exact .cache hasks hget ((hsteady _ _ hget).cacheAccess_under.symm.trans hcall)
  · intro h
    cases h with
    | info hasks hget hcall =>
      exact .info hasks hget ((hsteady _ _ hget).info_under.trans hcall)
    | cache hasks hget hcall =>
      exact .cache hasks hget ((hsteady _ _ hget).cacheAccess_under.trans hcall)

/-- Of providers that do not look at the clock, a request is told the same under a laxer limit, but for
those that the stricter one cuts off. So no value is lost, and exactly the providers whose own calls come
to a value within the laxer limit have it in the reply: all that come to one, if no limit is set. -/
theorem dispatch_relaxed (daemon : Daemon) (hsteady : daemon.Steady)
    (limit limit' : Option Duration) (hlaxer : Laxer limit limit') (clock clock' : Duration)
    (request : Request) (hgathers : request.Gathers)
    (hescapes : ∀ crash, ¬ (daemon.under limit' clock').Escapes request crash) :
    ∃ reply reply', (daemon.under limit clock).dispatch request = .ok reply ∧
      (daemon.under limit' clock').dispatch request = .ok reply' ∧
      reply.Relaxes limit reply' ∧
      (∀ handle value, reply.value? handle = some value → reply'.value? handle = some value) ∧
      (∀ handle value, reply'.value? handle = some value ↔
        ∃ time, daemon.Offers request handle time value ∧ Call.InTime limit' time) ∧
      (limit' = none → ∀ handle time value, daemon.Offers request handle time value →
        reply'.value? handle = some value) := by
  have hstricter : ¬ ∃ crash, (daemon.under limit clock).Escapes request crash :=
    fun ⟨crash, hcrash⟩ => hescapes crash (hcrash.relaxed hsteady hlaxer)
  obtain ⟨reply, hreply⟩ := dispatch_of_not_escapes hstricter
  obtain ⟨reply', hreply'⟩ := dispatch_of_not_escapes fun ⟨crash, hcrash⟩ => hescapes crash hcrash
  have hrelaxes := relaxes_of_dispatch hsteady hlaxer hgathers hreply hreply'
  have hoffers : ∀ handle value, reply'.value? handle = some value ↔
      ∃ time, daemon.Offers request handle time value ∧ Call.InTime limit' time := by
    intro handle value
    rw [value_iff_offers hgathers hreply']
    exact exists_congr fun time => and_congr_left' (offers_under_iff hsteady)
  refine ⟨reply, reply', hreply, hreply', hrelaxes, fun _ _ => hrelaxes.value?_eq, hoffers, ?_⟩
  rintro rfl handle time value hvalue
  exact (hoffers handle value).2 ⟨time, hvalue, nofun⟩

/-- A provider that answers after some time. -/
def slow (time : Duration) : Provider := .scripted (.finished time (.ok (.string "late")) none) .absent

theorem steady_sole_slow (time : Duration) : (sole "x" (slow time)).Steady := by
  intro handle provider hget
  rw [sole, Dict.get?_insert, Dict.get?_empty] at hget
  split at hget
  · cases hget
    exact ⟨fun _ => rfl, fun _ => rfl⟩
  · cases hget

/-- An answer that takes longer than the limit is noted as late, and told if there is none. -/
theorem dispatch_relaxed_slow : ∃ reply reply',
    ((sole "x" (slow ⟨20⟩)).under (some ⟨10⟩) ⟨0⟩).dispatch (.ofAction .allServices none) = .ok reply ∧
    ((sole "x" (slow ⟨20⟩)).under none ⟨5⟩).dispatch (.ofAction .allServices none) = .ok reply' ∧
    reply.note? "x" = some "timed out after 10ns" ∧ reply'.value? "x" = some (.string "late") := by
  have hescapes : ∀ crash, ¬ ((sole "x" (slow ⟨20⟩)).under none ⟨5⟩).Escapes
      (.ofAction .allServices none) crash := by
    intro crash hcrash
    have hreply : ((sole "x" (slow ⟨20⟩)).under none ⟨5⟩).outcome (.ofAction .allServices none) =
        .ok (.ok (report (Dict.empty.insert "x" (.ok (.string "late"))))) := rfl
    exact not_escapes_of_outcome hreply crash hcrash
  obtain ⟨reply, reply', hreply, hreply', hrelaxes, -, -, hall⟩ :=
    dispatch_relaxed (sole "x" (slow ⟨20⟩)) (steady_sole_slow ⟨20⟩) (some ⟨10⟩) none nofun ⟨0⟩ ⟨5⟩
      (.ofAction .allServices none) (.inl (.inl rfl)) hescapes
  have hvalue : reply'.value? "x" = some (.string "late") :=
    hall rfl "x" ⟨20⟩ _ (.info (.inl rfl) rfl rfl)
  have hlate : ((sole "x" (slow ⟨20⟩)).under (some ⟨10⟩) ⟨0⟩).dispatch (.ofAction .allServices none) =
      .ok (report (Dict.empty.insert "x" (.error (.timedOut ⟨10⟩)))) := rfl
  cases hlate.symm.trans hreply
  have htext : (ProviderError.timedOut ⟨10⟩).message = "timed out after 10ns" := by decide +kernel
  exact ⟨_, reply', hreply, hreply', note?_report_eq_some.2 ⟨_, rfl, htext⟩, hvalue⟩

end Daemon

end StatQuery
