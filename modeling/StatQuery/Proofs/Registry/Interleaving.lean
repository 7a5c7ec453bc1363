import StatQuery.Daemon.Dispatch
import StatQuery.Proofs.Registry.History

/-!
# Registering from several sides

Several clients register providers at once. Each call is carried out as a whole, and the calls of a
client come in its own order; otherwise they may come in any order (`Interleaves`). Whichever it is, a
handle goes to the first call that asks for it, unless it is taken from the start
(`get?_run_registrations`). So nothing is lost and nothing is registered twice, and the order does not
show at all if no two calls ask for one handle (`run_interleaved`).
-/

namespace StatQuery.Registry

/-- The elements of some lists in one order that keeps the order of each list. -/
inductive Interleaves {α : Type} : List (List α) → List α → Prop
  | done {lists : List (List α)} : (∀ list ∈ lists, list = []) → Interleaves lists []
  | next {before after : List (List α)} {x : α} {rest order : List α} :
      Interleaves (before ++ rest :: after) order →
      Interleaves (before ++ (x :: rest) :: after) (x :: order)

/-- A handle and the provider that a client registers under it. -/
abbrev Registration := String × Provider

/-- The calls that register, in order. -/
def registrations (order : List Registration) : List Operation :=
  order.map fun call => .register call.1 call.2

/-- Some client asks for the handle. -/
def Requested (clients : List (List Registration)) (handle : String) : Prop :=
  ∃ client ∈ clients, ∃ provider, (handle, provider) ∈ client

/-- The call at a place of the history, and what it yielded. -/
def AnsweredAt (history : History) (index : Nat) (call : Operation) (result : Result) : Prop :=
  history[index]? = some (call, result)

/-- The handle goes to one call, the first that asks for it. -/
def AwardedOnce (history : History) (handle : String) : Prop :=
  ∃ first provider, AnsweredAt history first (.register handle provider) .done ∧
    ∀ index other result, AnsweredAt history index (.register handle other) result →
      index = first ∨ first < index ∧ result = .refused (.duplicateHandle handle)

/-- What comes of registering in some order. -/
structure Settles (initial : Registry) (clients : List (List Registration))
    (order : List Registration) : Prop where
  /-- Every call has its answer. -/
  answered : (run initial (registrations order)).1.map (·.1) = registrations order
  awarded : ∀ handle, ¬ initial.contains handle = true → Requested clients handle →
    AwardedOnce (run initial (registrations order)).1 handle
  taken : ∀ handle, initial.contains handle = true → ∀ index provider result,
    AnsweredAt (run initial (registrations order)).1 index (.register handle provider) result →
      result = .refused (.duplicateHandle handle)
  /-- A call that is refused has no effect. -/
  refused : ∀ before call after error, order = before ++ call :: after →
    AnsweredAt (run initial (registrations order)).1 before.length (.register call.1 call.2)
        (.refused error) →
      (run initial (registrations (before ++ [call]))).2 = (run initial (registrations before)).2
  handles : ∀ handle, (run initial (registrations order)).2.contains handle = true ↔
    initial.contains handle = true ∨ Requested clients handle

/-- No two calls ask for one handle, and none for a handle that is taken from the start. -/
structure Disjoint (initial : Registry) (clients : List (List Registration)) : Prop where
  nodup : (clients.flatten.map (·.1)).Nodup
  untaken : ∀ handle, Requested clients handle → ¬ initial.contains handle = true

/-! ### Orders -/

section

variable {α : Type} {lists : List (List α)} {order : List α}

theorem Interleaves.perm (h : Interleaves lists order) : order.Perm lists.flatten := by
  induction h with
  | done hempty => rw [List.flatten_eq_nil_iff.2 hempty]
  | next _ ih =>
    rw [List.flatten_append, List.flatten_cons, List.cons_append]
    refine (ih.cons _).trans ?_
    rw [List.flatten_append, List.flatten_cons]
    exact List.perm_middle.symm

/-- The order of each list is kept. -/
theorem Interleaves.sublist (h : Interleaves lists order) : ∀ list ∈ lists, list.Sublist order := by
  induction h with
  | done hempty =>
    intro list hmem
    obtain rfl := hempty list hmem
    exact List.Sublist.refl []
  | @next before after x rest order _ ih =>
    intro list hmem
    rcases List.mem_append.1 hmem with hbefore | hmem
    · exact (ih list (List.mem_append_left _ hbefore)).cons x
    · rcases List.mem_cons.1 hmem with rfl | hafter
      · exact (ih rest (by simp)).cons_cons x
      · exact (ih list (by simp [hafter])).cons x

end

variable {initial : Registry} {clients : List (List Registration)} {order : List Registration}

theorem Interleaves.requested_iff (h : Interleaves clients order) {handle : String} :
    Requested clients handle ↔ handle ∈ order.map (·.1) := by
  constructor
  · rintro ⟨client, hclient, provider, hmem⟩
    exact List.mem_map_of_mem ((h.sublist client hclient).subset hmem)
  · intro hmem
    obtain ⟨⟨name, provider⟩, hcall, rfl⟩ := List.mem_map.1 hmem
    obtain ⟨client, hclient, hasked⟩ := List.mem_flatten.1 (h.perm.mem_iff.1 hcall)
    exact ⟨client, hclient, provider, hasked⟩

/-! ### The registry after some calls -/

theorem get?_apply_register (initial : Registry) (call : Registration) (handle : String) :
    (initial.apply (.register call.1 call.2)).2.get? handle =
      (initial.get? handle).or (if call.1 = handle then some call.2 else none) := by
  by_cases hcontains : initial.contains call.1 = true
  · rw [apply_register_of_contains hcontains]
    obtain ⟨found, hfound⟩ := Dict.contains_iff.1 hcontains
    by_cases hhandle : call.1 = handle
    · rw [← hhandle, hfound, Option.some_or]
    · rw [if_neg hhandle, Option.or_none]
  · rw [apply_register_of_not_contains hcontains, Dict.get?_insert]
    by_cases hhandle : call.1 = handle
    · have hnone : initial.get? handle = none := by
        rw [← hhandle]
        exact Option.not_isSome_iff_eq_none.1 hcontains
      rw [if_pos hhandle, if_pos hhandle, hnone, Option.none_or]
    · rw [if_neg hhandle, if_neg hhandle, Option.or_none]

/-- The first call for a handle decides, unless the handle is taken from the start. -/
theorem get?_run_registrations (initial : Registry) (order : List Registration) (handle : String) :
    (run initial (registrations order)).2.get? handle =
      (initial.get? handle).or (Entries.get? handle order) := by
  induction order generalizing initial with
  | nil => exact (Option.or_none).symm
  | cons call rest ih =>
    calc (run initial (registrations (call :: rest))).2.get? handle
        = ((initial.apply (.register call.1 call.2)).2.get? handle).or
            (Entries.get? handle rest) := ih _
      _ = (initial.get? handle).or (Entries.get? handle (call :: rest)) := by
        rw [get?_apply_register, Option.or_assoc, Entries.get?_cons]
        split <;> rfl

theorem contains_run_registrations (initial : Registry) (order : List Registration)
    (handle : String) : (run initial (registrations order)).2.contains handle = true ↔
      initial.contains handle = true ∨ handle ∈ order.map (·.1) := by
  rw [Dict.contains, get?_run_registrations, Option.isSome_or, Bool.or_eq_true,
    Entries.mem_map_fst_iff, Dict.contains]

/-! ### The answers -/

/-- The answer to a call that comes after some others. -/
def answerAfter (initial : Registry) (before : List Registration) (handle : String) : Result :=
  if initial.contains handle = true ∨ handle ∈ before.map (·.1) then
    .refused (.duplicateHandle handle)
  else .done

theorem apply_run_registrations (initial : Registry) (before : List Registration)
    (call : Registration) :
    ((run initial (registrations before)).2.apply (.register call.1 call.2)).1 =
      answerAfter initial before call.1 := by
  by_cases hcontains : (run initial (registrations before)).2.contains call.1 = true
  · rw [apply_register_of_contains hcontains, answerAfter,
      if_pos ((contains_run_registrations initial before call.1).1 hcontains)]
  · rw [apply_register_of_not_contains hcontains, answerAfter,
      if_neg fun h => hcontains ((contains_run_registrations initial before call.1).2 h)]

theorem answeredAt_run (initial : Registry) (before : List Registration) (call : Registration)
    (after : List Registration) :
    AnsweredAt (run initial (registrations (before ++ call :: after))).1 before.length
      (.register call.1 call.2) (answerAfter initial before call.1) := by
  have hlength : (registrations before).length = before.length := List.length_map _
  have happend : registrations (before ++ call :: after) =
      registrations before ++ .register call.1 call.2 :: registrations after := List.map_append
  rw [AnsweredAt, happend, ← hlength, run, getElem?_runs, ← apply_run_registrations]
  rfl

theorem map_fst_run (initial : Registry) (operations : List Operation) :
    (run initial operations).1.map (·.1) = operations := by
  induction operations generalizing initial with
  | nil => rfl
  | cons operation rest ih => exact congrArg (operation :: ·) (ih _)

theorem eq_take_append_drop {index : Nat} {call : Registration} (h : order[index]? = some call) :
    order = order.take index ++ call :: order.drop (index + 1) := by
  obtain ⟨hlt, hget⟩ := List.getElem?_eq_some_iff.1 h
  rw [← hget, List.getElem_cons_drop, List.take_append_drop]

/-- A history holds nothing but the answers to the calls at their places. -/
theorem AnsweredAt.eq {index : Nat} {handle : String} {provider : Provider} {result : Result}
    (h : AnsweredAt (run initial (registrations order)).1 index (.register handle provider) result) :
    order[index]? = some (handle, provider) ∧
      result = answerAfter initial (order.take index) handle := by
  have hoperation : (registrations order)[index]? = some (.register handle provider) := by
    rw [← map_fst_run initial (registrations order), List.getElem?_map, h]
    rfl
  rw [registrations, List.getElem?_map] at hoperation
  obtain ⟨⟨name, found⟩, hcall, heq⟩ := Option.map_eq_some_iff.1 hoperation
  cases heq
  refine ⟨hcall, ?_⟩
  have hanswer := answeredAt_run initial (order.take index) (name, found) (order.drop (index + 1))
  obtain ⟨hlt, -⟩ := List.getElem?_eq_some_iff.1 hcall
  rw [← eq_take_append_drop hcall, List.length_take_of_le (Nat.le_of_lt hlt), AnsweredAt, h] at hanswer
  exact (Prod.mk.inj (Option.some.inj hanswer)).2

theorem answerAfter_of_getElem? {first index : Nat} {handle : String} {provider : Provider}
    (h : order[first]? = some (handle, provider)) (hlt : first < index) :
    answerAfter initial (order.take index) handle = .refused (.duplicateHandle handle) := by
  have hmem : (handle, provider) ∈ order.take index :=
    List.mem_of_getElem? ((List.getElem?_take_of_lt hlt).trans h)
  exact if_pos (Or.inr (List.mem_map_of_mem hmem))

theorem awardedOnce {handle : String} (huntaken : ¬ initial.contains handle = true)
    (hmem : handle ∈ order.map (·.1)) :
    AwardedOnce (run initial (registrations order)).1 handle := by
  obtain ⟨names, others, hnames, hnew⟩ := List.eq_append_cons_of_mem hmem
  obtain ⟨before, tail, rfl, rfl, htail⟩ := List.map_eq_append_iff.1 hnames
  obtain ⟨⟨name, provider⟩, after, rfl, rfl, -⟩ := List.map_eq_cons_iff.1 htail
  refine ⟨before.length, provider, ?_, fun index other result h => ?_⟩
  · have hanswer := answeredAt_run initial before (name, provider) after
    rwa [answerAfter, if_neg (not_or.2 ⟨huntaken, hnew⟩)] at hanswer
  · obtain ⟨hcall, rfl⟩ := h.eq
    rcases Nat.lt_trichotomy index before.length with hlt | rfl | hgt
    · rw [List.getElem?_append_left hlt] at hcall
      exact absurd (List.mem_map_of_mem (List.mem_of_getElem? hcall)) hnew
    · exact Or.inl rfl
    · have hfirst : (before ++ (name, provider) :: after)[before.length]? = some (name, provider) := by
        rw [List.getElem?_append_right (Nat.le_refl _), Nat.sub_self]
        rfl
      exact Or.inr ⟨hgt, answerAfter_of_getElem? hfirst hgt⟩

theorem settles (h : Interleaves clients order) : Settles initial clients order where
  answered := map_fst_run initial (registrations order)
  awarded handle huntaken hrequested := awardedOnce huntaken (h.requested_iff.1 hrequested)
  taken handle htaken index provider result hresult := by
    obtain ⟨-, rfl⟩ := hresult.eq
    exact if_pos (Or.inl htaken)
  refused before call after error horder hrefused := by
    have happend : registrations (before ++ [call]) =
        registrations before ++ [.register call.1 call.2] := List.map_append
    have hanswer := answeredAt_run initial before call after
    rw [← horder, AnsweredAt, hrefused, ← apply_run_registrations] at hanswer
    rw [happend, run, runs_concat_snd]
    exact apply_snd_of_refused (Prod.mk.inj (Option.some.inj hanswer)).2.symm
  handles handle := by
    rw [contains_run_registrations, h.requested_iff]

/-! ### Orders without conflicts -/

theorem Disjoint.nodup_order (hdisjoint : Disjoint initial clients)
    (h : Interleaves clients order) : (order.map (·.1)).Nodup :=
  (h.perm.map (·.1)).nodup_iff.2 hdisjoint.nodup

theorem not_mem_take_of_nodup {index : Nat} {handle : String} {provider : Provider}
    (hnodup : (order.map (·.1)).Nodup) (h : order[index]? = some (handle, provider)) :
    handle ∉ (order.take index).map (·.1) := by
  intro hmem
  rw [eq_take_append_drop h, List.map_append, List.map_cons] at hnodup
  exact (List.nodup_append.1 hnodup).2.2 handle hmem handle List.mem_cons_self rfl

theorem done_of_disjoint (h : Interleaves clients order) (hdisjoint : Disjoint initial clients) :
    ∀ entry ∈ (run initial (registrations order)).1, entry.2 = .done := by
  rintro ⟨operation, result⟩ hmem
  have hoperation : operation ∈ registrations order := by
    rw [← map_fst_run initial (registrations order)]
    exact List.mem_map_of_mem hmem
  obtain ⟨⟨handle, provider⟩, hcall, rfl⟩ := List.mem_map.1 hoperation
  obtain ⟨index, hanswered⟩ := List.getElem?_of_mem hmem
  obtain ⟨hget, rfl⟩ := AnsweredAt.eq hanswered
  refine if_neg (not_or.2 ⟨?_, not_mem_take_of_nodup (hdisjoint.nodup_order h) hget⟩)
  exact hdisjoint.untaken handle (h.requested_iff.2 (List.mem_map_of_mem hcall))

theorem run_eq_of_disjoint {other : List Registration} (h : Interleaves clients order)
    (hother : Interleaves clients other) (hdisjoint : Disjoint initial clients) :
    (run initial (registrations order)).2 = (run initial (registrations other)).2 := by
  refine Dict.ext_get? fun handle => ?_
  rw [get?_run_registrations, get?_run_registrations,
    Entries.get?_perm (h.perm.trans hother.perm.symm) (hdisjoint.nodup_order h)]

/-- The reply of a daemon that has some registry. -/
def replyWith (daemon : Daemon) (registry : Registry) (frame : List UInt8) : List UInt8 :=
  (({ daemon with registry := registry }).answerFrame frame).encode

/-- In whichever order the calls of some clients come, each new handle that is asked for goes to one
call. If no two calls ask for one handle, all succeed, and no order can be told from another by what
the registry holds or by the reply to any frame. -/
theorem run_interleaved (initial : Registry) (clients : List (List Registration))
    (order : List Registration) (h : Interleaves clients order) :
    Settles initial clients order ∧
      (Disjoint initial clients →
        (∀ entry ∈ (run initial (registrations order)).1, entry.2 = .done) ∧
        ∀ other, Interleaves clients other →
          (run initial (registrations other)).2 = (run initial (registrations order)).2 ∧
          ∀ (daemon : Daemon) (frame : List UInt8),
            replyWith daemon (run initial (registrations other)).2 frame =
              replyWith daemon (run initial (registrations order)).2 frame) := by
  refine ⟨settles h, fun hdisjoint => ⟨done_of_disjoint h hdisjoint, fun other hother => ?_⟩⟩
  have hsame := run_eq_of_disjoint hother h hdisjoint
  exact ⟨hsame, fun daemon frame => by rw [hsame]⟩

/-- Two clients beside the daemon's own provider: they may ask for one handle, or for different ones. -/
theorem run_interleaved_twoClients :
    let initial : Registry := Dict.empty.insert "tally" (.daemon ⟨0⟩ false)
    let call (handle : String) : Registration := (handle, .service .blank)
    Interleaves [[call "b", call "a"], [call "a"]] [call "b", call "a", call "a"] ∧
      AwardedOnce (run initial (registrations [call "b", call "a", call "a"])).1 "a" ∧
      Interleaves [[call "b", call "a"], [call "c"]] [call "b", call "c", call "a"] ∧
      Disjoint initial [[call "b", call "a"], [call "c"]] ∧
      Interleaves [[call "b", call "a"], [call "c"]] [call "c", call "b", call "a"] ∧
      (run initial (registrations [call "c", call "b", call "a"])).2 =
        (run initial (registrations [call "b", call "c", call "a"])).2 := by
  intro initial call
  have hdone : Interleaves [[], []] ([] : List Registration) := .done (by simp)
  have first {x : Registration} {rest order : List Registration} {after : List (List Registration)}
      (h : Interleaves (rest :: after) order) : Interleaves ((x :: rest) :: after) (x :: order) :=
    @Interleaves.next _ [] after x rest order h
  have second {client : List Registration} {x : Registration} {order : List Registration}
      (h : Interleaves [client, []] order) : Interleaves [client, [x]] (x :: order) :=
    @Interleaves.next _ [client] [] x [] order h
  have hconflict : Interleaves [[call "b", call "a"], [call "a"]] [call "b", call "a", call "a"] :=
    first (second (first hdone))
  have horder : Interleaves [[call "b", call "a"], [call "c"]] [call "b", call "c", call "a"] :=
    first (second (first hdone))
  have hother : Interleaves [[call "b", call "a"], [call "c"]] [call "c", call "b", call "a"] :=
    second (first (first hdone))
  have hdisjoint : Disjoint initial [[call "b", call "a"], [call "c"]] := by
    refine ⟨by decide, fun handle hrequested => ?_⟩
    have huntaken : ∀ handle ∈ ["b", "c", "a"], ¬ initial.contains handle = true := by decide
    exact huntaken handle (horder.requested_iff.1 hrequested)
  have hawarded := (run_interleaved initial _ _ hconflict).1.awarded "a" (by decide)
    ⟨[call "a"], by simp, .service .blank, by simp [call]⟩
  have hsame := ((run_interleaved initial _ _ horder).2 hdisjoint).2 _ hother
  exact ⟨hconflict, hawarded, horder, hdisjoint, hother, hsame.1⟩

end StatQuery.Registry
