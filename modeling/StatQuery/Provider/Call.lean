import StatQuery.Provider.Error

/-!
# Calls of a provider

A `Call` is what happens when a provider is called, with no limit set on it. `Call.guarded` is what
the daemon makes of it: a crash before or during the call, and a call that overruns the limit, become
errors of the provider. Only a crash while a finished call is cleaned up gets past the guard
(`Call.Contained.exists_guarded`).
-/

namespace StatQuery

/-- What happens when a provider is called. -/
inductive Call (α : Type) where
  /-- It crashes before there is anything to wait for. -/
  | refused (crash : Crash)
  /-- It takes some time and then crashes. -/
  | crashed (time : Duration) (crash : Crash)
  /-- It takes some time and then answers or fails; cleaning up after it may crash. -/
  | finished (time : Duration) (result : Except ProviderError α) (cleanup : Option Crash)
  deriving Inhabited

namespace Call

variable {α : Type}

/-- A call that answers at once. -/
def answer (value : α) : Call α := finished ⟨0⟩ (.ok value) none

/-- A call that fails at once. -/
def failure (error : ProviderError) : Call α := finished ⟨0⟩ (.error error) none

/-- How long the call takes. -/
def time : Call α → Duration
  | refused _ => ⟨0⟩
  | crashed time _ => time
  | finished time _ _ => time

/-- Whether a span is longer than a limit; none is without one. -/
def overruns (limit : Option Duration) (time : Duration) : Option Duration :=
  limit.filter fun limit => ¬ time ≤ limit

/-- What the daemon sees of a call under a limit: the provider's answer or error, or a crash that
gets past the guard. -/
def guarded (limit : Option Duration) (call : Call α) : Except Crash (Except ProviderError α) :=
  match call with
  | refused crash => .ok (.error (.crashed crash.text))
  | crashed time crash =>
    match overruns limit time with
    | some limit => .ok (.error (.timedOut limit))
    | none => .ok (.error (.crashed crash.text))
  | finished time result cleanup =>
    match overruns limit time with
    | some limit => .ok (.error (.timedOut limit))
    | none =>
      match cleanup with
      | some crash => .error crash
      | none => .ok result

/-- What is seen of a call without any guard. -/
def unguarded : Call α → Except Crash (Except ProviderError α)
  | refused crash => .error crash
  | crashed _ crash => .error crash
  | finished _ _ (some crash) => .error crash
  | finished _ result none => .ok result

/-- A call is contained if cleaning up after it does not crash. -/
def Contained : Call α → Prop
  | finished _ _ (some _) => False
  | _ => True

/-- No crash of a contained call gets past the guard. -/
theorem Contained.exists_guarded {call : Call α} (h : call.Contained) (limit : Option Duration) :
    ∃ outcome, call.guarded limit = .ok outcome := by
  cases call with
  | refused crash => exact ⟨_, rfl⟩
  | crashed time crash =>
    simp only [guarded]
    cases overruns limit time <;> exact ⟨_, rfl⟩
  | finished time result cleanup =>
    cases cleanup with
    | some crash => exact h.elim
    | none =>
      simp only [guarded]
      cases overruns limit time <;> exact ⟨_, rfl⟩

end Call

end StatQuery
