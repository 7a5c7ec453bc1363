import StatQuery.Provider.Call

/-!
# What the guard makes of a call

`Call.Yields` says case by case what is seen of a call under a limit, and `Call.Escapes` which crash
no guard catches. A call either yields an outcome or lets a crash escape, and `Call.guarded` tells the
two apart (`guarded_eq_ok_iff`, `guarded_eq_error_iff`).
-/

namespace StatQuery.Call

variable {α : Type}

/-- A span keeps to a limit, as every span does if none is set. -/
def InTime (limit : Option Duration) (time : Duration) : Prop :=
  ∀ bound, limit = some bound → time ≤ bound

/-- What is seen of a call under a limit. -/
inductive Yields (limit : Option Duration) : Call α → Except ProviderError α → Prop
  | refused (crash : Crash) : Yields limit (.refused crash) (.error (.crashed crash.text))
  | crashed {time : Duration} (crash : Crash) (h : InTime limit time) :
      Yields limit (.crashed time crash) (.error (.crashed crash.text))
  /-- It takes longer than it may. -/
  | late {call : Call α} {bound : Duration} (hlimit : limit = some bound)
      (h : ¬ call.time ≤ bound) : Yields limit call (.error (.timedOut bound))
  | finished {time : Duration} (result : Except ProviderError α) (h : InTime limit time) :
      Yields limit (.finished time result none) result

/-- A crash that no guard catches: the call has ended in time, and cleaning up after it crashes. -/
def Escapes (limit : Option Duration) (call : Call α) (crash : Crash) : Prop :=
  ∃ time result, call = .finished time result (some crash) ∧ InTime limit time

theorem overruns_eq_none_iff {limit : Option Duration} {time : Duration} :
    overruns limit time = none ↔ InTime limit time := by
  simp [overruns, InTime, Option.filter_eq_none_iff]

theorem overruns_eq_some_iff {limit : Option Duration} {time bound : Duration} :
    overruns limit time = some bound ↔ limit = some bound ∧ ¬ time ≤ bound := by
  simp [overruns, Option.filter_eq_some_iff]

/-- A call that crashes at once is never late. -/
theorem inTime_refused (limit : Option Duration) (crash : Crash) :
    InTime limit (refused crash : Call α).time := by
  intro bound _
  exact Nat.zero_le bound.nanoseconds

/-- A span is in time or longer than a limit that is set. -/
theorem inTime_or_late (limit : Option Duration) (time : Duration) :
    InTime limit time ∨ ∃ bound, limit = some bound ∧ ¬ time ≤ bound := by
  cases hover : overruns limit time with
  | none => exact Or.inl (overruns_eq_none_iff.1 hover)
  | some bound => exact Or.inr ⟨bound, overruns_eq_some_iff.1 hover⟩

theorem Yields.guarded {limit : Option Duration} {call : Call α} {outcome : Except ProviderError α}
    (h : call.Yields limit outcome) : call.guarded limit = .ok outcome := by
  cases h with
  | refused crash => rfl
  | crashed crash htime => rw [Call.guarded, overruns_eq_none_iff.2 htime]
  | finished result htime => rw [Call.guarded, overruns_eq_none_iff.2 htime]
  | @late _ bound hlimit hlate =>
    have hover : overruns limit call.time = some bound := overruns_eq_some_iff.2 ⟨hlimit, hlate⟩
    cases call with
    -- There was nothing to wait for, so nothing can be late.
    | refused crash => exact absurd (inTime_refused limit crash bound hlimit) hlate
    | crashed time crash =>
      simp only [Call.time] at hover
      simp only [Call.guarded, hover]
    | finished time result cleanup =>
      simp only [Call.time] at hover
      simp only [Call.guarded, hover]

theorem Escapes.guarded {limit : Option Duration} {call : Call α} {crash : Crash}
    (h : call.Escapes limit crash) : call.guarded limit = .error crash := by
  obtain ⟨time, result, rfl, htime⟩ := h
  rw [Call.guarded, overruns_eq_none_iff.2 htime]

/-- Nothing else can come of a call. -/
theorem exists_yields_or_escapes (limit : Option Duration) (call : Call α) :
    (∃ outcome, call.Yields limit outcome) ∨ ∃ crash, call.Escapes limit crash := by
  rcases inTime_or_late limit call.time with htime | ⟨bound, hlimit, hlate⟩
  · cases call with
    | refused crash => exact Or.inl ⟨_, .refused crash⟩
    | crashed time crash => exact Or.inl ⟨_, .crashed crash htime⟩
    | finished time result cleanup =>
      cases cleanup with
      | none => exact Or.inl ⟨_, .finished result htime⟩
      | some crash => exact Or.inr ⟨crash, time, result, rfl, htime⟩
  · exact Or.inl ⟨_, .late hlimit hlate⟩

/-- The guard passes on what a call yields, and only that. -/
theorem guarded_eq_ok_iff {limit : Option Duration} {call : Call α}
    {outcome : Except ProviderError α} : call.guarded limit = .ok outcome ↔ call.Yields limit outcome := by
  constructor
  · intro h
    rcases exists_yields_or_escapes limit call with ⟨seen, hseen⟩ | ⟨crash, hcrash⟩
    · rw [hseen.guarded] at h
      cases h
      exact hseen
    · rw [hcrash.guarded] at h
      cases h
  · exact Yields.guarded

/-- The guard lets through the crashes that escape, and only those. -/
theorem guarded_eq_error_iff {limit : Option Duration} {call : Call α} {crash : Crash} :
    call.guarded limit = .error crash ↔ call.Escapes limit crash := by
  constructor
  · intro h
    rcases exists_yields_or_escapes limit call with ⟨seen, hseen⟩ | ⟨other, hother⟩
    · rw [hseen.guarded] at h
      cases h
    · rw [hother.guarded] at h
      cases h
      exact hother
  · exact Escapes.guarded

/-- One thing only is seen of a call. -/
theorem Yields.unique {limit : Option Duration} {call : Call α} {a b : Except ProviderError α}
    (ha : call.Yields limit a) (hb : call.Yields limit b) : a = b := by
  have heq := ha.guarded.symm.trans hb.guarded
  cases heq
  rfl

theorem yields_answer {limit : Option Duration} {value : α} {outcome : Except ProviderError α} :
    (answer value).Yields limit outcome ↔ outcome = .ok value := by
  have hyields : (answer value).Yields limit (.ok value) :=
    .finished (.ok value) fun bound _ => Nat.zero_le bound.nanoseconds
  constructor
  · intro h
    exact h.unique hyields
  · rintro rfl
    exact hyields

theorem Contained.not_escapes {call : Call α} (h : call.Contained) (limit : Option Duration)
    (crash : Crash) : ¬ call.Escapes limit crash := by
  rintro ⟨time, result, rfl, -⟩
  exact h

end StatQuery.Call
