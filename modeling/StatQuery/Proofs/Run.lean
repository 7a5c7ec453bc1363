/-!
# Runs

A system that meets one event after another answers each of them and moves on (`runs`). What is to hold
of whole runs is proved of one event and carried over by `runs_preserves`.
-/

namespace StatQuery

variable {σ ε α : Type}

/-- The answers to some events, and the state after them. -/
def runs (step : σ → ε → α × σ) (state : σ) : List ε → List α × σ
  | [] => ([], state)
  | event :: rest =>
    let (answer, state) := step state event
    let (answers, state) := runs step state rest
    (answer :: answers, state)

variable {step : σ → ε → α × σ}

theorem runs_append (step : σ → ε → α × σ) (state : σ) (before after : List ε) :
    runs step state (before ++ after) =
      ((runs step state before).1 ++ (runs step (runs step state before).2 after).1,
        (runs step (runs step state before).2 after).2) := by
  induction before generalizing state with
  | nil => rfl
  | cons event rest ih => simp only [List.cons_append, runs, ih]

theorem length_runs (step : σ → ε → α × σ) (state : σ) (events : List ε) :
    (runs step state events).1.length = events.length := by
  induction events generalizing state with
  | nil => rfl
  | cons event rest ih => simp only [runs, List.length_cons, ih]

/-- The state after one more event. -/
theorem runs_concat_snd (step : σ → ε → α × σ) (state : σ) (events : List ε) (event : ε) :
    (runs step state (events ++ [event])).2 = (step (runs step state events).2 event).2 := by
  rw [runs_append]
  rfl

/-- The answer to an event that comes between others. -/
theorem getElem?_runs (step : σ → ε → α × σ) (state : σ) (before : List ε) (event : ε)
    (after : List ε) : (runs step state (before ++ event :: after)).1[before.length]? =
      some (step (runs step state before).2 event).1 := by
  have hlength : (runs step state before).1.length ≤ before.length :=
    Nat.le_of_eq (length_runs step state before)
  rw [runs_append, List.getElem?_append_right hlength, length_runs, Nat.sub_self]
  rfl

/-- What holds at first and is preserved by one more event holds after every run. -/
theorem runs_preserves {P : List ε → List α → σ → Prop} {state : σ} (h : P [] [] state)
    (hstep : ∀ events answers state event, P events answers state →
      P (events ++ [event]) (answers ++ [(step state event).1]) (step state event).2)
    (events : List ε) : P events (runs step state events).1 (runs step state events).2 := by
  suffices hrun : ∀ before answers state, P before answers state →
      P (before ++ events) (answers ++ (runs step state events).1) (runs step state events).2 from
    hrun [] [] state h
  clear h
  induction events with
  | nil =>
    intro before answers state h
    simpa [runs] using h
  | cons event rest ih =>
    intro before answers state h
    have hrest := ih _ _ _ (hstep before answers state event h)
    rwa [List.append_assoc, List.append_assoc] at hrest

/-- A run of what one system shows of another is what the run of the other shows. -/
theorem runs_view {τ : Type} {view : σ → τ} {shown : τ → ε → α × τ}
    (h : ∀ state event, shown (view state) event = ((step state event).1, view (step state event).2))
    (state : σ) (events : List ε) : runs shown (view state) events =
      ((runs step state events).1, view (runs step state events).2) := by
  induction events generalizing state with
  | nil => rfl
  | cons event rest ih => simp only [runs, h, ih]

end StatQuery
