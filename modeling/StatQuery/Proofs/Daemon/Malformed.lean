import StatQuery.Proofs.Daemon.Verdict
import StatQuery.Proofs.Json.Unblurred
import StatQuery.Proofs.Protocol.Spelling

/-!
# Which frames are malformed

A frame is refused as malformed unless it spells the members of a request, which an array can do as
well as an object (`refused_iff_of_not_isObject`). So a frame that is no object gets through only as an
array, or as an object in which a member that nobody asks for holds bytes of no text.
-/

namespace StatQuery

open Json Json.Reader

/-- An object is UTF-8. -/
theorem Json.IsObject.whole {text : List UInt8} (h : IsObject text) : Utf8.Whole text := by
  obtain ⟨before, body, behind, hbefore, hbehind, hbody, rfl⟩ := h
  have hobject := (IsText.object hbody).whole.append (clear_of_blanks hbehind).whole
  exact (clear_of_blanks hbefore).whole.append hobject

namespace Request

variable {frame : List UInt8} {members : List (String × List UInt8)}

/-- A frame in whole characters that spells members is an object or an array. -/
theorem Spells.isObject_or_isArray (h : Spells frame members) (hwhole : Utf8.Whole frame) :
    IsObject frame ∨ IsArray frame := by
  obtain ⟨hvalues, before, written, behind, hbefore, hbehind, hspells, rfl⟩ := h
  cases hspells with
  | @object _ body hbody =>
    have hclear : Clear (before ++ [0x7B]) :=
      clear_append (clear_of_blanks hbefore) (clear_cons (by decide) (List.forall_mem_nil _))
    have hrest : Utf8.Whole (body ++ 0x7D :: behind) :=
      hclear.whole_rest (by simpa using hwhole)
    have htexts := hbody.isText_of_skipped hrest fun member hmem =>
      (hvalues member hmem).imp_right And.right
    exact .inl ⟨before, body, behind, hbefore, hbehind, hbody.isMembers htexts, rfl⟩
  | @array items body hlength hbody =>
    have hitems := isText_of_mem_items hlength hvalues
    exact .inr ⟨before, body, behind, hbefore, hbehind, hbody.isItems hitems, rfl⟩

end Request

namespace Daemon

/-- The frame is malformed: it cannot be read, and every daemon says so. -/
structure Refused (frame : List UInt8) : Prop where
  decode : ∃ reason, Request.decode frame = .error (.malformedRequest reason)
  ok (daemon : Daemon) : (daemon.handleFrame frame).1.ok = false
  error (daemon : Daemon) : (daemon.handleFrame frame).1.error = some "MalformedRequest"

/-- A daemon says that a frame is malformed exactly if it cannot be read. -/
theorem error_eq_malformed_iff (daemon : Daemon) (frame : List UInt8) :
    (daemon.handleFrame frame).1.error = some "MalformedRequest" ↔
      ∃ reason, Request.decode frame = .error (.malformedRequest reason) := by
  rw [handleFrame_fst]
  constructor
  · intro hcode
    cases hdecode : Request.decode frame with
    | error error =>
      rw [answerFrame_of_decode_error hdecode] at hcode
      have hcode : error.code = "MalformedRequest" := Option.some.inj hcode
      cases error with
      | malformedRequest reason => exact ⟨reason, rfl⟩
      | _ => simp [ProtocolError.code] at hcode
    | ok request =>
      cases hdispatch : daemon.dispatch request with
      | error crash =>
        rw [answerFrame_of_crash hdecode hdispatch] at hcode
        simp [QueryError.response, QueryError.code, Response.failure] at hcode
      | ok reply =>
        rw [answerFrame_of_ok hdecode hdispatch] at hcode
        obtain ⟨error, hfails, hcode⟩ := (error_eq_some_iff hdispatch).1 hcode
        have hmem := hfails.code_mem
        rw [hcode] at hmem
        exact absurd hmem (by decide)
  · rintro ⟨reason, hdecode⟩
    rw [answerFrame_of_decode_error hdecode]
    rfl

theorem refused_iff (frame : List UInt8) :
    Refused frame ↔ ∃ reason, Request.decode frame = .error (.malformedRequest reason) := by
  constructor
  · exact Refused.decode
  · intro hdecode
    refine ⟨hdecode, fun daemon => ?_, fun daemon => (daemon.error_eq_malformed_iff frame).2 hdecode⟩
    obtain ⟨reason, hdecode⟩ := hdecode
    rw [handleFrame_fst, answerFrame_of_decode_error hdecode]
    rfl

/-- A frame that is no object is refused as malformed unless it spells members that are not ill-formed.
It can still do so as an array of their values, or as an object of which a member that nobody asks for
holds bytes of no text; it is then read as these members call for. -/
theorem refused_iff_of_not_isObject {frame : List UInt8} (h : ¬ IsObject frame) :
    (Refused frame ↔ ∀ members, Request.Spells frame members → Request.IllFormed members) ∧
    (¬ Refused frame → (IsArray frame ∨ Utf8.decode? frame = none) ∧
      ∀ daemon : Daemon, (daemon.handleFrame frame).1.error ≠ some "MalformedRequest") ∧
    ∀ members, Request.Spells frame members → Request.Classified members (Request.decode frame) := by
  refine ⟨(refused_iff frame).trans (Request.decode_malformed_iff frame), fun hread => ?_,
    fun members => Request.decode_of_spells⟩
  rw [refused_iff, not_exists] at hread
  constructor
  · obtain ⟨members, hspells, -⟩ := Request.exists_spells hread
    cases hdecode : Utf8.decode? frame with
    | none => exact .inr rfl
    | some text =>
      have hwhole := Utf8.exists_decode?_iff.1 ⟨text, hdecode⟩
      exact .inl ((hspells.isObject_or_isArray hwhole).resolve_left h)
  · intro daemon hcode
    obtain ⟨reason, hreason⟩ := (daemon.error_eq_malformed_iff frame).1 hcode
    exact hread reason hreason

/-- An array of three numbers is no object, and it is refused: its second item is no action. -/
theorem refused_numbers :
    ¬ IsObject (Utf8.encode "[1, 2, 3]") ∧ Refused (Utf8.encode "[1, 2, 3]") ∧
      ∀ members, Request.Spells (Utf8.encode "[1, 2, 3]") members → Request.IllFormed members := by
  have hobject : ¬ IsObject (Utf8.encode "[1, 2, 3]") := fun h => by
    have hhead : (0x5B : UInt8) = 0x7B := h.head_eq (by decide)
    exact absurd hhead (by decide)
  have hrefused : Refused (Utf8.encode "[1, 2, 3]") := (refused_iff _).2 ⟨_, rfl⟩
  exact ⟨hobject, hrefused, (refused_iff_of_not_isObject hobject).1.1 hrefused⟩

/-- A version and an action in an array. -/
def arrayRequest : List UInt8 := Utf8.encode "[1,\"all_services\"]"

/-- An action, and a member that nobody asks for, whose string holds a byte of no character. -/
def brokenRequest : List UInt8 :=
  Utf8.encode "\x7b\"action\":\"config\",\"x\":\"" ++ 0xFF :: Utf8.encode "\"\x7d"

/-- Neither an array nor an object with broken text is a JSON object, and both are answered. -/
theorem ok_without_object :
    (¬ IsObject arrayRequest ∧
      Request.decode arrayRequest = .ok (.ofAction .allServices none) ∧
      ((idle none .empty).handleFrame arrayRequest).1.ok = true) ∧
    ¬ IsObject brokenRequest ∧
      Request.decode brokenRequest = .ok (.ofAction .config none) ∧
      ((idle none .empty).handleFrame brokenRequest).1.ok = true := by
  refine ⟨⟨fun h => ?_, by rfl, by rfl⟩, fun h => ?_, by rfl, by rfl⟩
  · have hhead : (0x5B : UInt8) = 0x7B := h.head_eq (by decide)
    exact absurd hhead (by decide)
  · obtain ⟨text, htext⟩ := Utf8.exists_decode?_iff.2 h.whole
    have hbroken : Utf8.decode? brokenRequest = none := by rfl
    rw [hbroken] at htext
    cases htext

end Daemon

end StatQuery
