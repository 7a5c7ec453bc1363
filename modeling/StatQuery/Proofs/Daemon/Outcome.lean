import StatQuery.Proofs.Daemon.Report

/-!
# What comes of a request

The outcome of a request, by what it asks for, and summed up in one place (`outcome_comes`): a report,
a success or an error, with nothing in the data but what providers answer, what caches count and what
the configuration says.
-/

namespace StatQuery

/-- An error that a request can lead to. -/
def QueryError.OfRequest : QueryError → Prop
  | .protocol (.malformedResponse _) => False
  | _ => True

/-- The reader of requests finds no fault with replies. -/
theorem Request.ofRequest_of_decode {frame : List UInt8} {error : ProtocolError}
    (h : decode frame = .error error) : (QueryError.protocol error).OfRequest := by
  unfold decode at h
  split at h
  · cases h
    trivial
  · unfold ofWire at h
    dsimp only at h
    split at h
    · cases h
      trivial
    · split at h
      · cases h
        trivial
      · cases h

namespace Daemon

variable {daemon : Daemon} {request : Request} {handle : String}

theorem outcome_allServices (h : request.action = .allServices) :
    daemon.outcome request = daemon.allInfo.map .ok := by
  rw [outcome, h]

theorem outcome_info_all (haction : request.action = .info)
    (hhandle : request.handle = some allHandles) :
    daemon.outcome request = daemon.allInfo.map .ok := by
  rw [outcome, haction, hhandle]
  exact if_pos rfl

theorem outcome_info (haction : request.action = .info) (hhandle : request.handle = some handle)
    (hne : handle ≠ allHandles) : daemon.outcome request = daemon.singleInfo handle := by
  rw [outcome, haction, hhandle]
  exact if_neg hne

theorem outcome_cacheStats (h : request.action = .cacheStats) :
    daemon.outcome request = daemon.cacheStats request := by
  rw [outcome, h]

theorem targetsAll_iff : request.targetsAll = true ↔
    request.handle = none ∨ request.handle = some allHandles := by
  unfold Request.targetsAll
  cases request.handle <;> simp

theorem cacheStats_all (h : request.handle = none ∨ request.handle = some allHandles) :
    daemon.cacheStats request = (daemon.cacheReport daemon.registry).map .ok :=
  if_pos (targetsAll_iff.2 h)

theorem cacheStats_one {provider : Provider} (hhandle : request.handle = some handle)
    (hne : handle ≠ allHandles) (hget : daemon.registry.get? handle = some provider) :
    daemon.cacheStats request =
      (daemon.cacheReport (Dict.empty.insert handle provider)).map .ok := by
  have htargets : ¬ request.targetsAll = true := by
    rw [targetsAll_iff, hhandle]
    simp [hne]
  rw [cacheStats, if_neg htargets, hhandle]
  simp only [Option.getD_some, lookup_eq_ok_iff.2 hget]

theorem cacheStats_unknown (hhandle : request.handle = some handle) (hne : handle ≠ allHandles)
    (hget : daemon.registry.get? handle = none) :
    daemon.cacheStats request = .ok (.error (.unknownHandle handle)) := by
  have htargets : ¬ request.targetsAll = true := by
    rw [targetsAll_iff, hhandle]
    simp [hne]
  rw [cacheStats, if_neg htargets, hhandle]
  simp only [Option.getD_some, lookup_eq_error_iff.2 ⟨hget, rfl⟩, QueryError.ofRegistry]

/-! ### All outcomes at once -/

/-- A value that the daemon may put in a reply. -/
inductive Tells (daemon : Daemon) : Json → Prop
  | info {handle : String} {provider : Provider} {value : Json}
      (hget : daemon.registry.get? handle = some provider)
      (h : (provider.info daemon.world).Yields daemon.limit (.ok value)) : Tells daemon value
  | stats (stats : CacheStats) : Tells daemon stats.toJson
  | config {key : String} {value : Json} (h : daemon.configView.get? key = some value) :
      Tells daemon value

/-- A request comes to a report, to a success without notes or to an error. -/
inductive Comes (daemon : Daemon) : Except QueryError Response → Prop
  | report (outcomes : Dict (Except ProviderError Json))
      (h : ∀ handle value, outcomes.get? handle = some (.ok value) → daemon.Tells value) :
      Comes daemon (.ok (report outcomes))
  | success (data : Dict Json) (h : ∀ key value, data.get? key = some value → daemon.Tells value) :
      Comes daemon (.ok (.success data))
  | failure (error : QueryError) (h : error.OfRequest) : Comes daemon (.error error)

theorem allInfo_comes {reply : Response} (h : daemon.allInfo = .ok reply) :
    daemon.Comes (.ok reply) := by
  rw [allInfo_eq] at h
  obtain ⟨outcomes, houtcomes, rfl⟩ := map_eq_ok_iff.1 h
  refine .report outcomes fun handle value hvalue => ?_
  obtain ⟨provider, hget, hyields⟩ := (infoOutcomes_get? houtcomes).1 hvalue
  exact .info hget hyields

theorem cacheReport_comes {targets : Dict Provider} {reply : Response}
    (h : daemon.cacheReport targets = .ok reply) : daemon.Comes (.ok reply) := by
  rw [cacheReport_eq] at h
  obtain ⟨seen, -, rfl⟩ := map_eq_ok_iff.1 h
  refine .report _ fun handle value hvalue => ?_
  rw [Dict.get?_map] at hvalue
  obtain ⟨outcome, -, hmap⟩ := Option.map_eq_some_iff.1 hvalue
  obtain ⟨stats, -, rfl⟩ := map_eq_ok_iff.1 hmap
  exact .stats stats

theorem singleInfo_comes {result : Except QueryError Response}
    (h : daemon.singleInfo handle = .ok result) : daemon.Comes result := by
  unfold singleInfo at h
  split at h
  · next hlookup =>
    obtain ⟨-, rfl⟩ := lookup_eq_error_iff.1 hlookup
    cases h
    exact .failure _ trivial
  · next provider hlookup =>
    split at h
    · cases h
    · cases h
      exact .failure _ trivial
    · next value hvalue =>
      cases h
      refine .success _ fun key found hfound => ?_
      rw [Dict.get?_insert, Dict.get?_empty] at hfound
      split at hfound
      · cases hfound
        exact .info (lookup_eq_ok_iff.1 hlookup) (infoOutcome_eq_ok_iff.1 hvalue)
      · cases hfound

theorem cacheStats_comes {result : Except QueryError Response}
    (h : daemon.cacheStats request = .ok result) : daemon.Comes result := by
  unfold cacheStats at h
  split at h
  · obtain ⟨reply, hreply, rfl⟩ := map_eq_ok_iff.1 h
    exact cacheReport_comes hreply
  · dsimp only at h
    split at h
    · next hlookup =>
      obtain ⟨-, rfl⟩ := lookup_eq_error_iff.1 hlookup
      cases h
      exact .failure _ trivial
    · obtain ⟨reply, hreply, rfl⟩ := map_eq_ok_iff.1 h
      exact cacheReport_comes hreply

theorem outcome_comes {result : Except QueryError Response} (h : daemon.outcome request = .ok result) :
    daemon.Comes result := by
  unfold outcome at h
  split at h
  · obtain ⟨reply, hreply, rfl⟩ := map_eq_ok_iff.1 h
    exact allInfo_comes hreply
  · split at h
    · cases h
      exact .failure _ trivial
    · split at h
      · obtain ⟨reply, hreply, rfl⟩ := map_eq_ok_iff.1 h
        exact allInfo_comes hreply
      · exact singleInfo_comes h
  · exact cacheStats_comes h
  · cases h
    exact .success daemon.configView fun key value hvalue => .config hvalue
  · cases h
    exact .failure _ trivial

/-! ### Frames -/

theorem handleFrame_fst (daemon : Daemon) (frame : List UInt8) :
    (daemon.handleFrame frame).1 = daemon.answerFrame frame := rfl

theorem answerFrame_of_decode_error {frame : List UInt8} {error : ProtocolError}
    (h : Request.decode frame = .error error) :
    daemon.answerFrame frame = (QueryError.protocol error).response := by
  rw [answerFrame, h]

theorem answerFrame_of_ok {frame : List UInt8} {reply : Response}
    (hdecode : Request.decode frame = .ok request) (h : daemon.dispatch request = .ok reply) :
    daemon.answerFrame frame = reply := by
  simp only [answerFrame, hdecode, h]

theorem answerFrame_of_crash {frame : List UInt8} {crash : Crash}
    (hdecode : Request.decode frame = .ok request) (h : daemon.dispatch request = .error crash) :
    daemon.answerFrame frame = (QueryError.internal crash.text).response := by
  simp only [answerFrame, hdecode, h]

end Daemon

end StatQuery
