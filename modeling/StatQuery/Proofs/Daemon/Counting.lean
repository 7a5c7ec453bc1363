import StatQuery.Proofs.Daemon.Reply
import StatQuery.Proofs.Daemon.SingleInfo
import StatQuery.Proofs.Registry.History

/-!
# What the statistics count

While a daemon runs, messages arrive, providers come and go, and requests are answered directly. A
message is counted once it has been answered, and nothing else is: the statistics sum up the replies
(`statistics_serve`), and a reply that tells of the daemon tells of the replies before it
(`serve_counts`).
-/

namespace StatQuery

/-- How many of some replies are failures. -/
def failures (replies : List Response) : Nat := replies.countP fun reply => !reply.ok

/-- The statistics count modulo 2⁶⁴. -/
theorem Statistics.foldl_record (statistics : Statistics) (replies : List Response) :
    replies.foldl record statistics = ⟨statistics.served + .ofNat replies.length,
      statistics.failed + .ofNat (failures replies)⟩ := by
  induction replies generalizing statistics with
  | nil => simp [failures]
  | cons reply rest ih =>
    rw [List.foldl_cons, ih, failures, failures, List.countP_cons]
    cases hok : reply.ok with
    | true => simp [record, hok, UInt64.ofNat_add, UInt64.add_assoc, UInt64.add_comm]
    | false => simp [record, hok, UInt64.ofNat_add, UInt64.add_assoc, UInt64.add_comm]

namespace Daemon

/-- What happens to a daemon. A provider that begins to behave differently is another provider under
the same handle. -/
inductive Event where
  /-- A message of any number of parts arrives. -/
  | message (parts : List (List UInt8))
  | registry (operation : Registry.Operation)
  /-- A request is answered without a message. -/
  | dispatch (request : Request)
  | useCache (counters : String) (activity : Counters.Activity)
  /-- Time passes. -/
  | wait (clock : Duration)

/-- What the daemon does about an event. -/
inductive Effect where
  | sends (reply : Response)
  | registry (result : Registry.Result)
  | returns (outcome : Except Crash Response)
  | none

def Event.isMessage : Event → Bool
  | .message _ => true
  | _ => false

def Event.isDispatch : Event → Bool
  | .dispatch _ => true
  | _ => false

def Effect.reply? : Effect → Option Response
  | .sends reply => some reply
  | _ => Option.none

/-- The part of a message that is its request. -/
def lastPart (parts : List (List UInt8)) : List UInt8 := parts.getLast?.getD []

/-- What the daemon does about an event, and the daemon after it. -/
def meet (daemon : Daemon) : Event → Effect × Daemon
  | .message parts =>
    let (reply, daemon) := daemon.handleFrame (lastPart parts)
    (.sends reply, daemon)
  | .registry operation =>
    let (result, registry) := daemon.registry.apply operation
    (.registry result, { daemon with registry := registry })
  | .dispatch request => (.returns (daemon.dispatch request), daemon)
  | .useCache name activity =>
    let counters := (daemon.world.countersOf name).record activity
    (.none, { daemon with counters := daemon.counters.insert name counters })
  | .wait clock => (.none, daemon.atClock clock)

/-- What the daemon does about some events, and the daemon after them. -/
def serve (daemon : Daemon) (events : List Event) : List Effect × Daemon := runs meet daemon events

/-- The number of messages among some events. -/
def messages (events : List Event) : Nat := events.countP Event.isMessage

/-- The replies among some effects, in order. -/
def replies (effects : List Effect) : List Response := effects.filterMap Effect.reply?

variable {daemon : Daemon} {request : Request} {handle : String}

/-! ### Runs -/

theorem serve_cons (daemon : Daemon) (event : Event) (rest : List Event) :
    daemon.serve (event :: rest) = ((daemon.meet event).1 :: ((daemon.meet event).2.serve rest).1,
      ((daemon.meet event).2.serve rest).2) := rfl

/-- The daemon replies to messages, and to nothing else. -/
theorem isSome_reply?_meet (daemon : Daemon) (event : Event) :
    (daemon.meet event).1.reply?.isSome = event.isMessage := by
  cases event <;> rfl

theorem map_reply?_serve (daemon : Daemon) (events : List Event) :
    (daemon.serve events).1.map (·.reply?.isSome) = events.map Event.isMessage := by
  induction events generalizing daemon with
  | nil => rfl
  | cons event rest ih =>
    exact List.cons_eq_cons.2 ⟨isSome_reply?_meet daemon event, ih (daemon.meet event).2⟩

theorem length_replies (daemon : Daemon) (events : List Event) :
    (replies (daemon.serve events).1).length = messages events := by
  rw [replies, List.length_filterMap_eq_countP]
  calc (daemon.serve events).1.countP (·.reply?.isSome)
      = ((daemon.serve events).1.map (·.reply?.isSome)).countP id := by rw [List.countP_map]; rfl
    _ = (events.map Event.isMessage).countP id := by rw [map_reply?_serve]
    _ = messages events := by rw [List.countP_map]; rfl

/-- The statistics change by the reply to a message, and by nothing else. -/
theorem statistics_meet (daemon : Daemon) (event : Event) : (daemon.meet event).2.statistics =
    (replies [(daemon.meet event).1]).foldl Statistics.record daemon.statistics := by
  cases event <;> rfl

theorem statistics_serve (daemon : Daemon) (events : List Event) :
    (daemon.serve events).2.statistics =
      (replies (daemon.serve events).1).foldl Statistics.record daemon.statistics := by
  induction events generalizing daemon with
  | nil => rfl
  | cons event rest ih =>
    have hrest := ih (daemon.meet event).2
    rw [statistics_meet, ← List.foldl_append, replies, replies, ← List.filterMap_append] at hrest
    exact hrest

theorem failures_le_messages (daemon : Daemon) (events : List Event) :
    failures (replies (daemon.serve events).1) ≤ messages events := by
  rw [← length_replies daemon]
  exact List.countP_le_length

/-- Fewer than 2⁶⁴ messages are counted exactly. -/
theorem counts_serve (hzero : daemon.statistics = .zero) {events : List Event}
    (hbound : messages events < twoTo 64) :
    (daemon.serve events).2.statistics.served.toNat = messages events ∧
      (daemon.serve events).2.statistics.failed.toNat =
        failures (replies (daemon.serve events).1) := by
  have hfailures := failures_le_messages daemon events
  rw [statistics_serve, Statistics.foldl_record, hzero, length_replies]
  rw [twoTo_64] at hbound
  constructor
  · simp [Statistics.zero]
    omega
  · simp [Statistics.zero]
    omega

/-- Direct requests show neither in the replies nor in the daemon. -/
theorem serve_without_dispatches (daemon : Daemon) (events : List Event) :
    replies (daemon.serve (events.filter (!·.isDispatch))).1 = replies (daemon.serve events).1 ∧
      (daemon.serve (events.filter (!·.isDispatch))).2 = (daemon.serve events).2 := by
  induction events generalizing daemon with
  | nil => exact ⟨rfl, rfl⟩
  | cons event rest ih =>
    by_cases hdispatch : event.isDispatch = true
    · rw [List.filter_cons_of_neg (by simp [hdispatch])]
      cases event with
      | dispatch request => exact ih daemon
      | _ => cases hdispatch
    · rw [List.filter_cons_of_pos (by simp [hdispatch])]
      obtain ⟨hreplies, hdaemon⟩ := ih (daemon.meet event).2
      refine ⟨?_, hdaemon⟩
      simp only [serve_cons, replies, List.filterMap_cons] at hreplies ⊢
      rw [hreplies]

/-! ### What a reply tells of the daemon -/

/-- A reply to a request that asks a provider holds what the provider yields. -/
theorem value?_of_dispatch {provider : Provider} {reply : Response} {value : Json}
    (hasks : request.AsksInfo handle) (hget : daemon.registry.get? handle = some provider)
    (h : daemon.dispatch request = .ok reply) :
    reply.value? handle = some value ↔
      (provider.info daemon.world).Yields daemon.limit (.ok value) := by
  by_cases hall : request.WantsAllInfo
  · rw [dispatch_of_wantsAllInfo hall, allInfo_eq] at h
    obtain ⟨outcomes, houtcomes, rfl⟩ := map_eq_ok_iff.1 h
    rw [value?_report_eq_some, infoOutcomes_get? houtcomes, hget]
    simp
  -- What is left is a request for one handle, which is not the one that means all.
  · rcases hasks with haction | ⟨haction, hhandle | hhandle⟩
    · exact absurd (Or.inl haction) hall
    · exact absurd (Or.inr ⟨haction, hhandle⟩) hall
    · have hne : handle ≠ allHandles := fun heq => hall (Or.inr ⟨haction, heq ▸ hhandle⟩)
      obtain ⟨result, hresult, rfl⟩ := map_eq_ok_iff.1 h
      rw [outcome_info haction hhandle hne] at hresult
      rw [← infoOutcome_eq_ok_iff]
      cases houtcome : daemon.infoOutcome provider with
      | error crash =>
        have hescapes := infoOutcome_eq_error_iff.1 houtcome
        exact absurd hescapes (not_escapes_of_singleInfo hresult hget crash)
      | ok outcome =>
        rw [singleInfo_registered hget houtcome] at hresult
        cases hresult
        cases outcome with
        | error error => simp [replyOf, QueryError.response, Response.failure, Response.value?]
        | ok found => simp [replyOf, Response.success, Response.value?, Dict.get?_insert]

theorem member?_ofMembers (name : String) (members : List (String × Json)) :
    (Json.ofMembers members).member? name = Entries.get? name members.reverse :=
  Entries.get?_ofList name members

theorem member?_daemonInfo (world : World) (running : Duration) :
    (Provider.daemonInfo world running).member? "requests_served" =
        some (.natural world.statistics.served.toNat) ∧
      (Provider.daemonInfo world running).member? "requests_failed" =
        some (.natural world.statistics.failed.toNat) ∧
      (Provider.daemonInfo world running).member? "providers" = some (.natural world.registered) := by
  simp only [Provider.daemonInfo, member?_ofMembers]
  exact ⟨rfl, rfl, rfl⟩

/-- The reply to a frame tells of the daemon exactly if it is a success, and then of the daemon as it
was before the frame was counted. -/
theorem value?_answerFrame {frame : List UInt8} {started : Duration}
    (hdecode : Request.decode frame = .ok request) (hasks : request.AsksInfo handle)
    (hget : daemon.registry.get? handle = some (.daemon started false)) (value : Json) :
    (daemon.answerFrame frame).value? handle = some value ↔
      (daemon.answerFrame frame).ok = true ∧ value = Provider.daemonInfo daemon.world
        ⟨daemon.clock.nanoseconds - started.nanoseconds⟩ := by
  cases hdispatch : daemon.dispatch request with
  | error crash =>
    rw [answerFrame_of_crash hdecode hdispatch]
    simp [QueryError.response, Response.failure, Response.value?]
  | ok reply =>
    have hvalue : ∀ value, reply.value? handle = some value ↔ value = Provider.daemonInfo daemon.world
        ⟨daemon.clock.nanoseconds - started.nanoseconds⟩ := by
      intro value
      rw [value?_of_dispatch hasks hget hdispatch]
      exact Call.yields_answer.trans ⟨Except.ok.inj, congrArg Except.ok⟩
    have hok : reply.ok = true := (dispatch_wellFormed hdispatch).ok_of_value? ((hvalue _).2 rfl)
    rw [answerFrame_of_ok hdecode hdispatch, hvalue]
    simp [hok]

/-! ### Whole runs -/

/-- The statistics are in step with the replies to some events. -/
structure InStep (daemon : Daemon) (events : List Event) : Prop where
  /-- Each event has one effect, which is a reply exactly if the event is a message. -/
  replies_iff : (daemon.serve events).1.map (·.reply?.isSome) = events.map Event.isMessage
  served : (daemon.serve events).2.statistics.served.toNat = messages events
  failed : (daemon.serve events).2.statistics.failed.toNat =
    failures (replies (daemon.serve events).1)
  failed_le_served :
    (daemon.serve events).2.statistics.failed ≤ (daemon.serve events).2.statistics.served

/-- The reply to a message that comes between other events. -/
structure RepliesBetween (daemon : Daemon) (before : List Event) (parts : List (List UInt8))
    (after : List Event) (reply : Response) : Prop where
  effect : (daemon.serve (before ++ .message parts :: after)).1[before.length]? = some (.sends reply)
  sent : (daemon.serve before).2.handleMessage parts =
    (reply.encode, (daemon.serve (before ++ [.message parts])).2)
  /-- No part of the message counts but the last. -/
  last_part : ∀ other, lastPart other = lastPart parts →
    daemon.serve (before ++ .message other :: after) =
      daemon.serve (before ++ .message parts :: after)
  /-- What the reply tells of the daemon is how many messages came before this one, how many of them
  were answered with a failure, and how many handles are registered. -/
  tells : ∀ request handle started, Request.decode (lastPart parts) = .ok request →
    request.AsksInfo handle →
    (daemon.serve before).2.registry.get? handle = some (.daemon started false) →
    ((∃ value, reply.value? handle = some value) ↔ reply.ok = true) ∧
    ∀ value, reply.value? handle = some value →
      value.member? "requests_served" = some (.natural (messages before)) ∧
      value.member? "requests_failed" =
        some (.natural (failures (replies (daemon.serve before).1))) ∧
      value.member? "providers" = some (.natural (daemon.serve before).2.registry.keys.length)

theorem inStep (hzero : daemon.statistics = .zero) {events : List Event}
    (hbound : messages events < twoTo 64) : daemon.InStep events := by
  obtain ⟨hserved, hfailed⟩ := counts_serve hzero hbound
  refine ⟨map_reply?_serve daemon events, hserved, hfailed, ?_⟩
  rw [UInt64.le_iff_toNat_le, hserved, hfailed]
  exact failures_le_messages daemon events

theorem repliesBetween (hzero : daemon.statistics = .zero) {before : List Event}
    (hbound : messages before < twoTo 64) (parts : List (List UInt8)) (after : List Event) :
    daemon.RepliesBetween before parts after
      ((daemon.serve before).2.answerFrame (lastPart parts)) where
  effect := getElem?_runs meet daemon before (.message parts) after
  sent := by
    have hnext : (daemon.serve (before ++ [.message parts])).2 =
        ((daemon.serve before).2.meet (.message parts)).2 := runs_concat_snd meet daemon before _
    rw [hnext]
    rfl
  last_part other hlast := by
    have hmeet : ∀ now : Daemon, now.meet (.message other) = now.meet (.message parts) := by
      intro now
      rw [meet, meet, hlast]
    rw [serve, serve, runs_append, runs_append, runs, runs, hmeet]
  tells request handle started hdecode hasks hget := by
    obtain ⟨hserved, hfailed⟩ := counts_serve hzero hbound
    have hvalue := value?_answerFrame hdecode hasks hget
    constructor
    · constructor
      · rintro ⟨value, hsome⟩
        exact ((hvalue value).1 hsome).1
      · intro hok
        exact ⟨_, (hvalue _).2 ⟨hok, rfl⟩⟩
    · intro value hsome
      obtain ⟨-, rfl⟩ := (hvalue value).1 hsome
      obtain ⟨hs, hf, hp⟩ := member?_daemonInfo (daemon.serve before).2.world _
      rw [hs, hf, hp, ← hserved, ← hfailed, Dict.length_keys]
      exact ⟨rfl, rfl, rfl⟩

/-- The statistics of a daemon that begins with zero stay in step with its replies while it serves
fewer than 2⁶⁴ messages, each of which gets one reply; requests that come without a message do not
show. -/
theorem serve_counts (daemon : Daemon) (hzero : daemon.statistics = .zero) (events : List Event)
    (hbound : messages events < twoTo 64) :
    daemon.InStep events ∧
    (∀ before parts after, events = before ++ .message parts :: after →
      daemon.RepliesBetween before parts after
        ((daemon.serve before).2.answerFrame (lastPart parts))) ∧
    replies (daemon.serve (events.filter (!·.isDispatch))).1 = replies (daemon.serve events).1 ∧
    (daemon.serve (events.filter (!·.isDispatch))).2 = (daemon.serve events).2 := by
  refine ⟨inStep hzero hbound, ?_, serve_without_dispatches daemon events⟩
  rintro before parts after rfl
  have hbefore : messages before < twoTo 64 := by
    rw [messages, List.countP_append] at hbound
    exact Nat.lt_of_le_of_lt (Nat.le_add_right _ _) hbound
  exact repliesBetween hzero hbefore parts after

/-- A daemon that reports on itself tells of a message that it could not read. -/
theorem serve_counts_unreadable :
    ∃ reply value, (sole "tally" (.daemon ⟨0⟩ false)).RepliesBetween [.message []]
        [[], (Request.ofAction .allServices none).encode] [] reply ∧
      reply.value? "tally" = some value ∧
      value.member? "requests_served" = some (.natural 1) ∧
      value.member? "requests_failed" = some (.natural 1) := by
  have hdecode : Request.decode (Request.ofAction .allServices none).encode =
      .ok (.ofAction .allServices none) := Request.decode_encode_of_eq rfl
  obtain ⟨-, hreplies, -, -⟩ := serve_counts (sole "tally" (.daemon ⟨0⟩ false)) rfl
    [.message [], .message [[], (Request.ofAction .allServices none).encode]] (by decide)
  have hreply := hreplies [.message []] _ [] rfl
  obtain ⟨hok, htells⟩ := hreply.tells _ "tally" ⟨0⟩ hdecode (Or.inl rfl) rfl
  obtain ⟨answer, hanswer, htrue⟩ : ∃ answer,
      ((sole "tally" (.daemon ⟨0⟩ false)).serve [.message []]).2.dispatch
        (.ofAction .allServices none) = .ok answer ∧ answer.ok = true := ⟨_, rfl, rfl⟩
  rw [← answerFrame_of_ok hdecode hanswer] at htrue
  obtain ⟨value, hvalue⟩ := hok.2 htrue
  obtain ⟨hserved, hfailed, -⟩ := htells value hvalue
  exact ⟨_, value, hreply, hvalue, hserved, hfailed⟩

end Daemon

end StatQuery
