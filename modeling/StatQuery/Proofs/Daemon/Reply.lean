import StatQuery.Proofs.Daemon.Crash
import StatQuery.Proofs.Protocol.Request

/-!
# The shape of a reply

Whatever arrives, the reply is a success with data or a failure with one of seven codes, and never a
mixture (`handleFrame_wellFormed`).
-/

namespace StatQuery

/-- The codes of the failures that a daemon reports. -/
def failureCodes : List String :=
  ["MalformedRequest", "UnsupportedVersion", "MissingField", "UnknownAction", "UnknownHandle",
    "ProviderFailure", "InternalError"]

/-- A reply is a success with data and possibly notes, all of them on handles that are not in the
data, or a failure with a known code and a detail. -/
inductive Response.WellFormed : Response → Prop
  | success (data : Dict Json) (notes : Option (Dict String))
      (hnotes : ∀ errors, notes = some errors → errors.isEmpty = false ∧
        ∀ handle, data.contains handle = true → errors.contains handle = false) :
      WellFormed ⟨true, some data, notes, none, none⟩
  | failure (code detail : String) (hcode : code ∈ failureCodes) :
      WellFormed ⟨false, none, none, some code, some detail⟩

theorem QueryError.OfRequest.wellFormed {error : QueryError} (h : error.OfRequest) :
    error.response.WellFormed := by
  refine .failure error.code error.message ?_
  cases error with
  | protocol error =>
    cases error with
    | malformedResponse reason => exact h.elim
    | _ => simp [code, ProtocolError.code, failureCodes]
  | _ => simp [code, failureCodes]

theorem Response.wellFormed_success (data : Dict Json) : (success data).WellFormed :=
  .success data none nofun

/-- A failure has no data. -/
theorem Response.WellFormed.ok_of_value? {reply : Response} {handle : String} {value : Json}
    (h : reply.WellFormed) (hvalue : reply.value? handle = some value) : reply.ok = true := by
  cases h with
  | success data notes hnotes => rfl
  | failure code detail hcode => cases hvalue

namespace Daemon

variable {daemon : Daemon} {request : Request}

theorem wellFormed_report (outcomes : Dict (Except ProviderError Json)) :
    (report outcomes).WellFormed := by
  refine .success _ _ fun errors herrors => ?_
  have hnote : ∀ handle, (report outcomes).note? handle = errors.get? handle := by
    intro handle
    rw [Response.note?, show (report outcomes).errors = some errors from herrors]
    rfl
  constructor
  · split at herrors
    · cases herrors
    · next hempty =>
      cases herrors
      exact Bool.eq_false_iff.2 hempty
  · intro handle hhandle
    -- Data and notes come from the same outcome, which has a value or an error.
    obtain ⟨value, hvalue⟩ := Dict.contains_iff.1 hhandle
    have hnone : (report outcomes).note? handle = none := note?_report_eq_none_of_value? hvalue
    rw [hnote] at hnone
    rw [Dict.contains, hnone]
    rfl

theorem Comes.wellFormed {result : Except QueryError Response} (h : daemon.Comes result) :
    (replyOf result).WellFormed := by
  cases h with
  | report outcomes => exact wellFormed_report outcomes
  | success data => exact Response.wellFormed_success data
  | failure error h => exact h.wellFormed

theorem dispatch_wellFormed {reply : Response} (h : daemon.dispatch request = .ok reply) :
    reply.WellFormed := by
  obtain ⟨result, hresult, rfl⟩ := map_eq_ok_iff.1 h
  exact (outcome_comes hresult).wellFormed

/-! ### Replies to frames -/

theorem answerFrame_wellFormed (daemon : Daemon) (frame : List UInt8) :
    (daemon.answerFrame frame).WellFormed := by
  cases hdecode : Request.decode frame with
  | error error =>
    rw [answerFrame_of_decode_error hdecode]
    exact (Request.ofRequest_of_decode hdecode).wellFormed
  | ok request =>
    cases hdispatch : daemon.dispatch request with
    | error crash =>
      rw [answerFrame_of_crash hdecode hdispatch]
      have hof : (QueryError.internal crash.text).OfRequest := trivial
      exact hof.wellFormed
    | ok reply =>
      rw [answerFrame_of_ok hdecode hdispatch]
      exact dispatch_wellFormed hdispatch

/-- A failure has one of the codes that a daemon reports. -/
theorem error_mem_failureCodes {reply : Response} {code : String} (h : reply.WellFormed)
    (hcode : reply.error = some code) : code ∈ failureCodes := by
  cases h with
  | success data notes hnotes => cases hcode
  | failure code detail hmem =>
    cases hcode
    exact hmem

/-- An escaped crash leaves nothing of the reply but its own text. -/
theorem answerFrame_of_escapes {frame : List UInt8} (hdecode : Request.decode frame = .ok request)
    (hescapes : ∃ crash, daemon.Escapes request crash) :
    ∃ crash, daemon.Escapes request crash ∧
      daemon.answerFrame frame = (QueryError.internal crash.text).response := by
  cases houtcome : daemon.outcome request with
  | ok result =>
    obtain ⟨crash, hcrash⟩ := hescapes
    exact absurd hcrash (not_escapes_of_outcome houtcome crash)
  | error crash =>
    have hdispatch : daemon.dispatch request = .error crash := map_eq_error_iff.2 houtcome
    exact ⟨crash, escapes_of_outcome houtcome, answerFrame_of_crash hdecode hdispatch⟩

/-- A provider that answers, and crashes when its answer has been taken. -/
def crashingCleanup : Provider :=
  .scripted (.finished ⟨0⟩ (.ok .null) (some (.message "boom"))) .absent

/-- Every frame gets a well-formed reply. If a crash escapes from an asked provider, the reply says
so and has no data, and the providers stay as they are; otherwise it is what the request comes to. -/
theorem handleFrame_wellFormed (daemon : Daemon) (frame : List UInt8) :
    (daemon.handleFrame frame).1.WellFormed ∧
    (∀ code ∈ ["DuplicateHandle", "EncodeError", "MalformedResponse"],
      (daemon.handleFrame frame).1.error ≠ some code) ∧
    (daemon.handleFrame frame).2.registry = daemon.registry ∧
    ∀ request, Request.decode frame = .ok request →
      ((∃ crash, daemon.Escapes request crash) → ∃ crash, daemon.Escapes request crash ∧
        (daemon.handleFrame frame).1 =
          .failure "InternalError" s!"internal error: {crash.text}") ∧
      ((¬ ∃ crash, daemon.Escapes request crash) →
        daemon.dispatch request = .ok (daemon.handleFrame frame).1) := by
  have hwellFormed : (daemon.handleFrame frame).1.WellFormed := answerFrame_wellFormed daemon frame
  refine ⟨hwellFormed, ?_, rfl, ?_⟩
  · intro code hmem hcode
    have hknown := error_mem_failureCodes hwellFormed hcode
    simp only [List.mem_cons, List.not_mem_nil, or_false] at hmem
    rcases hmem with rfl | rfl | rfl <;> exact absurd hknown (by decide)
  · intro request hdecode
    constructor
    · exact answerFrame_of_escapes hdecode
    · intro hnone
      obtain ⟨reply, hreply⟩ := dispatch_of_not_escapes hnone
      rw [hreply]
      exact congrArg Except.ok (answerFrame_of_ok hdecode hreply).symm

/-- A provider whose answer cannot be cleaned up costs the query its data. -/
theorem handleFrame_of_crashing_cleanup :
    ∃ crash, (sole "x" crashingCleanup).Escapes (.ofAction .allServices none) crash ∧
      ((sole "x" crashingCleanup).handleFrame (Request.ofAction .allServices none).encode).1 =
        .failure "InternalError" s!"internal error: {crash.text}" := by
  have hdecode : Request.decode (Request.ofAction .allServices none).encode =
      .ok (.ofAction .allServices none) := Request.decode_encode_of_eq rfl
  have hget : (sole "x" crashingCleanup).registry.get? "x" = some crashingCleanup := rfl
  have hescapes : (sole "x" crashingCleanup).Escapes (.ofAction .allServices none)
      (.message "boom") := .info (Or.inl rfl) hget ⟨⟨0⟩, .ok .null, rfl, nofun⟩
  obtain ⟨-, -, -, hreply⟩ := handleFrame_wellFormed (sole "x" crashingCleanup)
    (Request.ofAction .allServices none).encode
  exact (hreply _ hdecode).1 ⟨_, hescapes⟩

end Daemon

end StatQuery
