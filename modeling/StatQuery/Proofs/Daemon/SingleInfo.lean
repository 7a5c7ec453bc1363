import StatQuery.Proofs.Daemon.InfoReport

/-!
# Information on one handle

A provider is called in the same way whether it is asked alone or among all, so the reply on its
handle can be read off the reply on all handles: a value stands alone in the data, a note becomes the
failure of the query, and a handle without either is not registered (`dispatch_info`).
-/

namespace StatQuery.Daemon

variable {daemon : Daemon} {handle : String} {provider : Provider}

/-- The reply on one handle says of it what the reply on all handles does. -/
structure AgreesOn (daemon : Daemon) (whole : Response) (handle : String) (reply : Response) : Prop where
  of_value : ∀ value, whole.value? handle = some value →
    reply = .success (Dict.empty.insert handle value)
  of_note : ∀ note, whole.note? handle = some note →
    reply = .failure "ProviderFailure" s!"provider '{handle}' failed: {note}"
  of_neither : whole.value? handle = none → whole.note? handle = none →
    daemon.registry.contains handle = false ∧
      reply = .failure "UnknownHandle" s!"unknown handle '{handle}'"
  exclusive : whole.value? handle = none ∨ whole.note? handle = none

theorem singleInfo_unregistered (hget : daemon.registry.get? handle = none) :
    daemon.singleInfo handle = .ok (.error (.unknownHandle handle)) := by
  simp only [singleInfo, lookup_eq_error_iff.2 ⟨hget, rfl⟩, QueryError.ofRegistry]

theorem singleInfo_registered (hget : daemon.registry.get? handle = some provider)
    {outcome : Except ProviderError Json} (houtcome : daemon.infoOutcome provider = .ok outcome) :
    daemon.singleInfo handle = .ok (match outcome with
      | .ok value => .ok (.success (Dict.empty.insert handle value))
      | .error error => .error (.providerFailure handle error)) := by
  simp only [singleInfo, lookup_eq_ok_iff.2 hget, houtcome]
  cases outcome <;> rfl

/-- What the reply on one handle is, from what came of asking each provider. -/
theorem agreesOn_report {outcomes : Dict (Except ProviderError Json)}
    (h : daemon.registry.traverse daemon.infoOutcome = .ok outcomes) (handle : String) :
    ∃ result, daemon.singleInfo handle = .ok result ∧
      daemon.AgreesOn (report outcomes) handle (replyOf result) := by
  have hexclusive : (report outcomes).value? handle = none ∨ (report outcomes).note? handle = none :=
    (tellsInfo_report h).disjoint handle
  cases hget : daemon.registry.get? handle with
  | none =>
    have hnone : outcomes.get? handle = none := (Dict.get?_traverse_eq_none h).2 hget
    obtain ⟨hvalue, hnote⟩ := value?_report_eq_none_and_note?_report_eq_none.2 hnone
    refine ⟨_, singleInfo_unregistered hget, ?_, ?_, ?_, hexclusive⟩
    · intro value hsome
      rw [hvalue] at hsome
      cases hsome
    · intro note hsome
      rw [hnote] at hsome
      cases hsome
    · intro _ _
      refine ⟨?_, rfl⟩
      rw [Dict.contains, hget]
      rfl
  | some provider =>
    obtain ⟨outcome, houtcome⟩ := Dict.exists_of_traverse_ok h hget
    have hseen : outcomes.get? handle = some outcome :=
      (Dict.get?_traverse_eq_some h).2 ⟨provider, hget, houtcome⟩
    refine ⟨_, singleInfo_registered hget houtcome, ?_, ?_, ?_, hexclusive⟩
    · intro value hvalue
      have hok := value?_report_eq_some.1 hvalue
      rw [hseen] at hok
      cases hok
      rfl
    · intro note hnote
      obtain ⟨error, herror, rfl⟩ := note?_report_eq_some.1 hnote
      rw [hseen] at herror
      cases herror
      rfl
    · intro hvalue hnote
      -- Every outcome shows as a value or as a note.
      have hnone := value?_report_eq_none_and_note?_report_eq_none.1 ⟨hvalue, hnote⟩
      rw [hseen] at hnone
      cases hnone

/-- The idle daemon with a provider under the handle that means all, and another one. -/
def besideAll (handle : String) (provider : Provider) : Daemon :=
  { idle none .empty with
    registry := (Dict.empty.insert allHandles provider).insert handle provider }

theorem infoContained_besideAll
    (h : (provider.info (besideAll handle provider).world).Contained) :
    (besideAll handle provider).InfoContained := by
  intro other found hfound
  have hsame : found = provider := by
    rw [besideAll, Dict.get?_insert, Dict.get?_insert, Dict.get?_empty] at hfound
    split at hfound
    · cases hfound
      rfl
    · split at hfound <;> cases hfound
      rfl
  rw [hsame]
  exact h

/-- Asked for one handle, the daemon replies what its reply on all handles says of it. The handle
that means all is never looked up, even if a provider has it. -/
theorem dispatch_info (daemon : Daemon) (h : daemon.InfoContained) :
    ∃ whole, whole.ok = true ∧ whole.data.isSome = true ∧ whole.error = none ∧
      (∀ version handle, daemon.dispatch ⟨version, .allServices, handle⟩ = .ok whole) ∧
      (∀ version, daemon.dispatch ⟨version, .info, some allHandles⟩ = .ok whole) ∧
      ∀ version handle, handle ≠ allHandles → ∃ reply,
        daemon.dispatch ⟨version, .info, some handle⟩ = .ok reply ∧
          daemon.AgreesOn whole handle reply := by
  obtain ⟨outcomes, houtcomes⟩ := exists_infoOutcomes h
  have hwhole : daemon.allInfo = .ok (report outcomes) := allInfo_of_traverse houtcomes
  refine ⟨report outcomes, rfl, rfl, rfl, ?_, ?_, ?_⟩
  · intro version handle
    rw [dispatch_of_wantsAllInfo (Or.inl rfl), hwhole]
  · intro version
    rw [dispatch_of_wantsAllInfo (Or.inr ⟨rfl, rfl⟩), hwhole]
  · intro version handle hne
    obtain ⟨result, hresult, hagrees⟩ := agreesOn_report houtcomes handle
    refine ⟨replyOf result, ?_, hagrees⟩
    rw [dispatch, outcome_info rfl rfl hne, hresult]
    rfl

/-- A provider that crashes fails the query on its handle, and is noted in the reply on all, which is
also the reply on the handle that means all. -/
theorem dispatch_info_crashingCall :
    ∃ whole, (besideAll "x" crashingCall).dispatch (.ofAction .info (some allHandles)) = .ok whole ∧
      whole.note? "x" = some "panicked: boom" ∧
      (besideAll "x" crashingCall).dispatch (.ofAction .info (some "x")) =
        .ok (.failure "ProviderFailure" "provider 'x' failed: panicked: boom") := by
  have hcontained : (besideAll "x" crashingCall).InfoContained := infoContained_besideAll trivial
  obtain ⟨whole, -, -, -, -, hall, hone⟩ := dispatch_info (besideAll "x" crashingCall) hcontained
  obtain ⟨reply, hreply, hagrees⟩ := hone protocolVersion "x" (by decide)
  have hnote : whole.note? "x" = some "panicked: boom" := by
    have hexpected : (besideAll "x" crashingCall).dispatch (.ofAction .info (some allHandles)) =
        .ok (report ((Dict.empty.insert allHandles (.error (.crashed "boom"))).insert "x"
          (.error (.crashed "boom")))) := rfl
    cases hexpected.symm.trans (hall protocolVersion)
    rfl
  have hfailure := hagrees.of_note _ hnote
  rw [hfailure] at hreply
  exact ⟨whole, hall protocolVersion, hnote, hreply⟩

end StatQuery.Daemon
