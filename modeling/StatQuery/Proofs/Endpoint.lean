import StatQuery.Endpoint

/-!
# Where the address of an endpoint begins

`SplitsAt` says what the first `://` of an endpoint is, without a search for it: no other one begins
before it. The search finds it (`splitScheme_eq_some_iff`), and it stays where it is when the address
behind it is replaced (`SplitsAt.replace`): one that began further to the left would end before the
address. So spelling out a wildcard leaves the scheme alone, and doing it twice is doing it once
(`listening_wildcard`).
-/

namespace StatQuery.Endpoint

/-- What stands between the scheme and the address. -/
def separator : List Char := "://".toList

/-- The first separator of the endpoint stands between the scheme and the address. -/
structure SplitsAt (endpoint scheme address : List Char) : Prop where
  eq : endpoint = scheme ++ separator ++ address
  first : ∀ before after, endpoint = before ++ separator ++ after → scheme.length ≤ before.length

theorem SplitsAt.unique {endpoint scheme scheme' address address' : List Char}
    (h : SplitsAt endpoint scheme address) (h' : SplitsAt endpoint scheme' address') :
    scheme = scheme' ∧ address = address' := by
  have hlength : scheme.length = scheme'.length :=
    Nat.le_antisymm (h.first _ _ h'.eq) (h'.first _ _ h.eq)
  have heq : scheme ++ (separator ++ address) = scheme' ++ (separator ++ address') := by
    rw [← List.append_assoc, ← List.append_assoc, ← h.eq, ← h'.eq]
  obtain ⟨hscheme, hrest⟩ := List.append_inj heq hlength
  exact ⟨hscheme, List.append_cancel_left hrest⟩

/-- The first separator stays where it is, whatever comes to stand behind it. -/
theorem SplitsAt.replace {endpoint scheme address : List Char} (h : SplitsAt endpoint scheme address)
    (other : List Char) : SplitsAt (scheme ++ separator ++ other) scheme other where
  eq := rfl
  first := by
    intro before after heq
    apply Nat.le_of_not_lt
    intro hlt
    -- A separator further to the left ends before the address, so it was there before.
    have hbefore : before ++ separator <+: scheme ++ separator ++ other := ⟨after, heq.symm⟩
    have hscheme : scheme ++ separator <+: scheme ++ separator ++ other := ⟨other, rfl⟩
    have hle : (before ++ separator).length ≤ (scheme ++ separator).length := by
      simp only [List.length_append]
      omega
    obtain ⟨between, hbetween⟩ := List.prefix_of_prefix_length_le hbefore hscheme hle
    apply Nat.not_le_of_lt hlt
    apply h.first before (between ++ address)
    rw [h.eq, ← hbetween, List.append_assoc _ between]

/-! ### The search -/

theorem eq_of_splitScheme {endpoint scheme address : List Char}
    (h : splitScheme endpoint = some (scheme, address)) :
    endpoint = scheme ++ separator ++ address := by
  induction endpoint using splitScheme.induct generalizing scheme with
  | case1 => simp [splitScheme] at h
  | case2 rest =>
    simp only [splitScheme, Option.some.injEq, Prod.mk.injEq] at h
    obtain ⟨rfl, rfl⟩ := h
    rfl
  | case3 c rest hstart ih =>
    rw [splitScheme] at h
    · obtain ⟨⟨front, behind⟩, hsplit, hpair⟩ := Option.map_eq_some_iff.1 h
      simp only [Prod.mk.injEq] at hpair
      obtain ⟨rfl, rfl⟩ := hpair
      rw [ih hsplit]
      rfl
    · exact hstart

/-- Where there is a separator, the search finds one that begins no later. -/
theorem exists_splitScheme (before after : List Char) :
    ∃ scheme address, splitScheme (before ++ separator ++ after) = some (scheme, address) ∧
      scheme.length ≤ before.length := by
  induction before with
  | nil => exact ⟨[], after, rfl, Nat.le_refl 0⟩
  | cons c before ih =>
    obtain ⟨scheme, address, hsplit, hlength⟩ := ih
    rw [List.cons_append, List.cons_append]
    generalize before ++ separator ++ after = rest at hsplit
    by_cases hstart : ∃ tail, c :: rest = ':' :: '/' :: '/' :: tail
    · obtain ⟨tail, htail⟩ := hstart
      rw [htail]
      exact ⟨[], tail, rfl, Nat.zero_le _⟩
    · refine ⟨c :: scheme, address, ?_, Nat.succ_le_succ hlength⟩
      rw [splitScheme, hsplit]
      · rfl
      · intro tail hc hrest
        apply hstart
        exact ⟨tail, by rw [hc, hrest]⟩

theorem splitScheme_eq_some_iff {endpoint scheme address : List Char} :
    splitScheme endpoint = some (scheme, address) ↔ SplitsAt endpoint scheme address := by
  have hsound : ∀ {scheme address}, splitScheme endpoint = some (scheme, address) →
      SplitsAt endpoint scheme address := by
    intro scheme address h
    refine ⟨eq_of_splitScheme h, ?_⟩
    rintro before after rfl
    obtain ⟨found, left, hfound, hlength⟩ := exists_splitScheme before after
    rw [hfound] at h
    simp only [Option.some.injEq, Prod.mk.injEq] at h
    exact h.1 ▸ hlength
  constructor
  · exact hsound
  · intro h
    obtain ⟨found, left, hfound, -⟩ := exists_splitScheme scheme address
    rw [← h.eq] at hfound
    obtain ⟨rfl, rfl⟩ := h.unique (hsound hfound)
    exact hfound

/-! ### Spelling out a wildcard -/

theorem listeningChars_of_wildcard {endpoint scheme rest : List Char}
    (h : SplitsAt endpoint scheme ('*' :: ':' :: rest)) :
    listeningChars endpoint = scheme ++ separator ++ ("0.0.0.0".toList ++ ':' :: rest) := by
  rw [listeningChars, splitScheme_eq_some_iff.2 h]
  simp [separator]

theorem listeningChars_of_no_wildcard {endpoint : List Char}
    (h : ∀ scheme rest, ¬ SplitsAt endpoint scheme ('*' :: ':' :: rest)) :
    listeningChars endpoint = endpoint := by
  rw [listeningChars]
  split
  · next scheme rest hsplit => exact absurd (splitScheme_eq_some_iff.1 hsplit) (h scheme rest)
  · rfl

/-- No wildcard is left: the address begins where it did, and no longer with one. -/
theorem not_splitsAt_listeningChars (endpoint scheme rest : List Char) :
    ¬ SplitsAt (listeningChars endpoint) scheme ('*' :: ':' :: rest) := by
  intro hleft
  by_cases h : ∃ scheme rest, SplitsAt endpoint scheme ('*' :: ':' :: rest)
  · obtain ⟨front, behind, hsplit⟩ := h
    rw [listeningChars_of_wildcard hsplit] at hleft
    obtain ⟨-, haddress⟩ := hleft.unique (hsplit.replace _)
    simp at haddress
  · simp only [not_exists] at h
    rw [listeningChars_of_no_wildcard h] at hleft
    exact h scheme rest hleft

theorem toList_listening (endpoint : String) :
    (listening endpoint).toList = listeningChars endpoint.toList := String.toList_ofList

/-- The wildcard host behind the first separator is spelled out and nothing else changes; without one
the endpoint is left as it is, and so it is the second time. -/
theorem listening_wildcard (endpoint : String) :
    (∀ scheme rest, SplitsAt endpoint.toList scheme ('*' :: ':' :: rest) →
      (listening endpoint).toList = scheme ++ separator ++ ("0.0.0.0".toList ++ ':' :: rest)) ∧
    ((∀ scheme rest, ¬ SplitsAt endpoint.toList scheme ('*' :: ':' :: rest)) →
      listening endpoint = endpoint) ∧
    listening (listening endpoint) = listening endpoint ∧
    ∀ scheme rest, ¬ SplitsAt (listening endpoint).toList scheme ('*' :: ':' :: rest) := by
  have hunchanged : ∀ e : String,
      (∀ scheme rest, ¬ SplitsAt e.toList scheme ('*' :: ':' :: rest)) → listening e = e := by
    intro e h
    rw [listening, listeningChars_of_no_wildcard h, String.ofList_toList]
  have hnone : ∀ scheme rest, ¬ SplitsAt (listening endpoint).toList scheme ('*' :: ':' :: rest) := by
    rw [toList_listening]
    exact not_splitsAt_listeningChars endpoint.toList
  refine ⟨?_, hunchanged endpoint, hunchanged _ hnone, hnone⟩
  intro scheme rest h
  rw [toList_listening, listeningChars_of_wildcard h]

/-- A scheme that ends in a colon and a slash, and a wildcard behind a second separator. -/
example : listening "a:/://*:1://*:2" = "a:/://0.0.0.0:1://*:2" := by decide +kernel

end StatQuery.Endpoint
