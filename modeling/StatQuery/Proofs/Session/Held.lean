import StatQuery.Proofs.Session.Interference

/-!
# Where the providers of a session come from

A session has the providers that are registered and those that were kept under a name. Each of them was
there at the start or has been made by a step that registers it (`holds_runAt`); taking a provider out,
keeping it and registering it again makes no other one of it.
-/

namespace StatQuery

/-- What becomes of a source in some session. A provider that was kept is not made. -/
inductive ProviderSource.Makes : ProviderSource → Provider → Prop
  | service {value : Json} {entry : ServiceEntry} (h : ServiceEntry.ofJson value = .ok entry) :
      Makes (.service value) (.service entry)
  | cache (description counters : String) (capacity : Option UInt64) :
      Makes (.cache description counters capacity) (.cache description counters capacity)
  | daemon (orphan : Bool) (started : Duration) : Makes (.daemon orphan) (.daemon started orphan)
  | scripted (info : Call Json) (access : CacheAccess) :
      Makes (.scripted info access) (.scripted info access)

namespace Session

/-- The session has the provider registered or has kept it. -/
def Holds (session : Session) (provider : Provider) : Prop :=
  (∃ handle, session.daemon.registry.get? handle = some provider) ∨
    ∃ name, session.saved.get? name = some provider

variable {session : Session} {provider : Provider}

theorem makes_of_makeProvider {source : ProviderSource} (h : session.makeProvider source = .ok provider) :
    source.Makes provider ∨ session.Holds provider := by
  cases source with
  | service value =>
    rw [makeProvider] at h
    split at h
    · next entry hentry =>
      cases h
      exact Or.inl (.service hentry)
    · cases h
  | cache description counters capacity =>
    cases h
    exact Or.inl (.cache description counters capacity)
  | daemon orphan =>
    cases h
    exact Or.inl (.daemon orphan _)
  | scripted info access =>
    cases h
    exact Or.inl (.scripted info access)
  | saved name =>
    rw [makeProvider] at h
    split at h
    · next kept hkept =>
      cases h
      exact Or.inr (Or.inr ⟨name, hkept⟩)
    · cases h

theorem holds_insert {handle : String} {inserted : Provider}
    (h : (session.setRegistry (session.daemon.registry.insert handle inserted)).Holds provider) :
    provider = inserted ∨ session.Holds provider := by
  rcases h with ⟨other, hother⟩ | hsaved
  · rw [setRegistry, Dict.get?_insert] at hother
    split at hother
    · cases hother
      exact Or.inl rfl
    · exact Or.inr (Or.inl ⟨other, hother⟩)
  · exact Or.inr (Or.inr hsaved)

theorem holds_erase {handle : String}
    (h : (session.setRegistry (session.daemon.registry.erase handle)).Holds provider) :
    session.Holds provider := by
  rcases h with ⟨other, hother⟩ | hsaved
  · rw [setRegistry, Dict.get?_erase] at hother
    split at hother
    · cases hother
    · exact Or.inl ⟨other, hother⟩
  · exact Or.inr hsaved

theorem holds_save {name : String} {kept : Provider} (h : (session.save name kept).Holds provider) :
    provider = kept ∨ session.Holds provider := by
  unfold save at h
  split at h
  · exact Or.inr h
  · rcases h with hregistered | ⟨other, hother⟩
    · exact Or.inr (Or.inl hregistered)
    · rw [Dict.get?_insert] at hother
      split at hother
      · cases hother
        exact Or.inl rfl
      · exact Or.inr (Or.inr ⟨other, hother⟩)

/-- A step brings in no provider but the one that it makes and registers. -/
theorem holds_of_leads {step : Step} {next : Session} (hleads : session.Leads step next)
    (h : next.Holds provider) : session.Holds provider ∨
      ∃ handle source, step = .register handle source ∧ source.Makes provider := by
  cases hleads with
  | @register handle source made hmake =>
    rcases holds_insert h with rfl | hheld
    · rcases makes_of_makeProvider hmake with hmakes | hkept
      · exact Or.inr ⟨handle, source, rfl, hmakes⟩
      · exact Or.inl hkept
    · exact Or.inl hheld
  | @unregister handle found name hget =>
    rcases holds_save h with rfl | hheld
    · exact Or.inl (Or.inl ⟨handle, hget⟩)
    · exact Or.inl (holds_erase hheld)
  | @lookup handle found name hget =>
    rcases holds_save h with rfl | hheld
    · exact Or.inl (Or.inl ⟨handle, hget⟩)
    · exact Or.inl hheld
  | _ => exact Or.inl h

/-- Every provider of a session was there at the start or has been made by one of its steps. -/
theorem holds_runAt {steps : List (Duration × Step)} (h : (session.runAt steps).2.Holds provider) :
    session.Holds provider ∨
      ∃ clock handle source, (clock, .register handle source) ∈ steps ∧ source.Makes provider := by
  induction steps generalizing session with
  | nil => exact Or.inl h
  | cons timed rest ih =>
    obtain ⟨clock, step⟩ := timed
    rcases ih h with hheld | ⟨later, handle, source, hmem, hmakes⟩
    · rcases holds_of_leads (leads_step _ step) hheld with hstart | ⟨handle, source, rfl, hmakes⟩
      · exact Or.inl hstart
      · exact Or.inr ⟨clock, handle, source, List.mem_cons_self, hmakes⟩
    · exact Or.inr ⟨later, handle, source, List.mem_cons_of_mem _ hmem, hmakes⟩

end Session

end StatQuery
