import StatQuery.Proofs.Json.Record

/-!
# What the members of an object tell

The members of an object are given by their names and the texts of their values, which may be any
JSON. `Tells form texts x` says what the texts of one name tell of a field whose values have a form,
and `Malformed form texts` that they tell nothing, being too many or of another form. Neither depends
on the order of the members. A draft has in a field what the texts of its name tell (`Met.join_eq`),
which a record keeps up along its members (`Record.readMember_field`).
-/

namespace StatQuery.Json

open Reader

variable {α σ : Type} {form : α → List UInt8 → Prop}

/-- The text is an object of these members, with any blanks around it, and each value is JSON. -/
structure ObjectText (members : List (String × List UInt8)) (text : List UInt8) : Prop where
  values : ∀ member ∈ members, IsText member.2
  written : ∃ before body behind, Blanks before ∧ Blanks behind ∧
    MembersText members true body ∧ text = before ++ ((0x7B :: (body ++ [0x7D])) ++ behind)

/-! ### The texts of a name -/

/-- The texts of the members with a name, as they stand. -/
def textsOf (name : String) (members : List (String × List UInt8)) : List (List UInt8) :=
  (members.filter (·.1 = name)).map (·.2)

theorem textsOf_append (name : String) (xs ys : List (String × List UInt8)) :
    textsOf name (xs ++ ys) = textsOf name xs ++ textsOf name ys := by
  simp [textsOf]

@[simp] theorem textsOf_cons_self (name : String) (text : List UInt8)
    (members : List (String × List UInt8)) :
    textsOf name ((name, text) :: members) = text :: textsOf name members := by
  simp [textsOf]

theorem textsOf_cons_of_ne {name other : String} (h : other ≠ name) (text : List UInt8)
    (members : List (String × List UInt8)) :
    textsOf name ((other, text) :: members) = textsOf name members := by
  simp [textsOf, h]

theorem textsOf_perm (name : String) {members members' : List (String × List UInt8)}
    (h : members.Perm members') : (textsOf name members).Perm (textsOf name members') :=
  (h.filter _).map _

theorem textsOf_concat_self (name : String) (text : List UInt8)
    (members : List (String × List UInt8)) :
    textsOf name (members ++ [(name, text)]) = textsOf name members ++ [text] := by
  rw [textsOf_append, textsOf_cons_self]
  rfl

theorem textsOf_concat_of_ne {name other : String} (h : other ≠ name) (text : List UInt8)
    (members : List (String × List UInt8)) :
    textsOf name (members ++ [(other, text)]) = textsOf name members := by
  rw [textsOf_append, textsOf_cons_of_ne h]
  exact List.append_nil _

/-! ### What they tell -/

/-- The texts of one name are too many, or one of them is neither `null` nor of the form. -/
inductive Malformed (form : α → List UInt8 → Prop) (texts : List (List UInt8)) : Prop
  | repeated (h : 1 < texts.length)
  | formless {text : List UInt8} (hmem : text ∈ texts) (hnull : text ≠ nullText)
      (hform : ∀ x, ¬ form x text)

/-- What the texts of one name tell: nothing if they are all `null`, else what one of them is a form
of. -/
def Tells (form : α → List UInt8 → Prop) (texts : List (List UInt8)) : Option α → Prop
  | none => ∀ text ∈ texts, text = nullText
  | some x => ∃ text ∈ texts, form x text

theorem Malformed.append {texts : List (List UInt8)} (h : Malformed form texts)
    (more : List (List UInt8)) : Malformed form (texts ++ more) := by
  cases h with
  | repeated h =>
    refine .repeated ?_
    rw [List.length_append]
    omega
  | formless hmem hnull hform => exact .formless (List.mem_append_left more hmem) hnull hform

theorem malformed_perm {texts texts' : List (List UInt8)} (h : texts.Perm texts')
    (hbad : Malformed form texts) : Malformed form texts' := by
  cases hbad with
  | repeated hlength => exact .repeated (h.length_eq ▸ hlength)
  | formless hmem hnull hform => exact .formless (h.mem_iff.1 hmem) hnull hform

theorem tells_perm {texts texts' : List (List UInt8)} (h : texts.Perm texts') {x : Option α}
    (htells : Tells form texts x) : Tells form texts' x := by
  cases x with
  | none =>
    intro text hmem
    exact htells text (h.mem_iff.2 hmem)
  | some x =>
    obtain ⟨text, hmem, hx⟩ := htells
    exact ⟨text, h.mem_iff.1 hmem, hx⟩

/-- Texts that are not malformed tell something. -/
theorem exists_tells {texts : List (List UInt8)} (h : ¬ Malformed form texts) :
    ∃ x, Tells form texts x := by
  by_cases hnull : ∀ text ∈ texts, text = nullText
  · exact ⟨none, hnull⟩
  · obtain ⟨text, hmem, hne⟩ : ∃ text ∈ texts, text ≠ nullText := by simpa using hnull
    have hform : ∃ x, form x text := by
      by_contra hnone
      exact h (.formless hmem hne (not_exists.1 hnone))
    obtain ⟨x, hx⟩ := hform
    exact ⟨some x, text, hmem, hx⟩

/-- Every text is a form of one thing at most, and `null` is a form of nothing. -/
structure IsForm (form : α → List UInt8 → Prop) : Prop where
  unique {x y : α} {text : List UInt8} : form x text → form y text → x = y
  ne_null (x : α) : ¬ form x nullText

theorem isForm_unsigned : IsForm UnsignedWritten where
  unique hx hy := (unsigned_takes hx).unique (unsigned_takes hy)
  ne_null n h := by
    have hdigit := isDigit_of_mem_decimal n.toNat 0x6E (h ▸ by decide)
    exact absurd hdigit (by decide)

theorem isForm_string : IsForm StringWritten where
  unique hx hy := (text_reads _ _ hx).unique (text_reads _ _ hy)
  ne_null s := by
    rintro ⟨content, -, h⟩
    cases h

/-! ### A field along the members -/

/-- A field of a draft is what the texts of its name tell so far: it was met once or not at all. -/
inductive Met (form : α → List UInt8 → Prop) : List (List UInt8) → Option (Option α) → Prop
  | absent : Met form [] none
  | given {text : List UInt8} {x : Option α} (h : NullOr form x text) : Met form [text] (some x)

/-- A member of another name adds nothing to a field. -/
theorem Met.concat {name other : String} {members : List (String × List UInt8)}
    {met : Option (Option α)} (h : Met form (textsOf name members) met) (hne : other ≠ name)
    (text : List UInt8) : Met form (textsOf name (members ++ [(other, text)])) met := by
  rw [textsOf_concat_of_ne hne]
  exact h

theorem Met.not_malformed {texts : List (List UInt8)} {met : Option (Option α)}
    (h : Met form texts met) : ¬ Malformed form texts := by
  intro hbad
  cases h with
  | absent =>
    cases hbad with
    | repeated h => exact absurd h (by simp)
    | formless hmem => exact absurd hmem (by simp)
  | @given text x h =>
    cases hbad with
    | repeated h => exact absurd h (by simp)
    | formless hmem hnull hform =>
      obtain rfl := List.mem_singleton.1 hmem
      cases x with
      | none => exact hnull h
      | some x => exact hform x h

/-- A draft has in a field what the texts of its name tell, since a text is a form of one thing. -/
theorem Met.join_eq {texts : List (List UInt8)} {met : Option (Option α)} (h : Met form texts met)
    (hform : IsForm form) {x : Option α} (htells : Tells form texts x) : met.join = x := by
  cases h with
  | absent =>
    cases x with
    | none => rfl
    | some x =>
      obtain ⟨text, hmem, -⟩ := htells
      exact absurd hmem (by simp)
  | @given text y h =>
    cases x with
    | none =>
      obtain rfl : text = nullText := htells text (by simp)
      cases y with
      | none => rfl
      | some y => exact absurd h (hform.ne_null y)
    | some x =>
      obtain ⟨text', hmem, hx⟩ := htells
      obtain rfl := List.mem_singleton.1 hmem
      cases y with
      | none =>
        obtain rfl : text' = nullText := h
        exact absurd hx (hform.ne_null x)
      | some y => exact congrArg some (hform.unique h hx)

/-- A value is read into a field, or refused because it is of another form. -/
theorem read_field {β : Type} {form : β → List UInt8 → Prop} {field : Field σ} {draft : σ}
    {reader : Reader β} {text : List UInt8} (put : Option β → σ)
    (hread : field.read draft = (do return put (← reader.optional))) (hreader : reader.Decides form)
    (hform : IsForm form) (htext : IsText text) :
    (∃ x, (field.read draft).Takes text (put x) ∧ Met form [text] (some x)) ∨
    ((field.read draft).Refuses text ∧ Malformed form [text]) := by
  have hdecides := hreader.optional hform.ne_null
  rw [hread]
  by_cases hmeant : ∃ x, NullOr form x text
  · obtain ⟨x, hx⟩ := hmeant
    exact .inl ⟨x, (hdecides.takes htext hx).bind_pure put, .given hx⟩
  · have hnone : ∀ x, ¬ NullOr form x text := not_exists.1 hmeant
    refine .inr ⟨(hdecides.refuses htext hnone).bind_pure put, ?_⟩
    exact .formless (List.mem_singleton_self text) (hnone none) fun x => hnone (some x)

/-- A member of a known name is read into the draft, or refused because the texts of its name have
become malformed with it. -/
theorem Record.readMember_field (record : Record σ α) (name : String) {β : Type}
    {form : β → List UInt8 → Prop} {field : Field σ} {draft : σ} {reader : Reader β}
    {met : Option (Option β)} {members : List (String × List UInt8)} {text : List UInt8}
    (put : Option β → σ) (hfield : record.fields.find? (·.name = name) = some field)
    (hpresent : field.isPresent draft = met.isSome)
    (hread : field.read draft = (do return put (← reader.optional)))
    (hreader : reader.Decides form) (hform : IsForm form) (hmet : Met form (textsOf name members) met)
    (htext : IsText text) :
    (∃ x, TakesMember (record.readMember name draft) text (put x) ∧
      Met form (textsOf name (members ++ [(name, text)])) (some x)) ∨
    (RefusesMember (record.readMember name draft) text ∧
      Malformed form (textsOf name (members ++ [(name, text)]))) := by
  rw [textsOf_concat_self]
  generalize textsOf name members = texts at hmet
  cases hmet with
  | given h => exact .inr ⟨readMember_present hfield hpresent text, .repeated (by simp)⟩
  | absent =>
    rw [readMember_of_new hfield hpresent]
    rcases read_field put hread hreader hform htext with ⟨x, htakes, hmet⟩ | ⟨hrefuses, hbad⟩
    · exact .inl ⟨x, colon_takes htakes, hmet⟩
    · exact .inr ⟨colon_refuses hrefuses, hbad⟩

/-! ### Texts that tell the same -/

/-- The texts of a name tell the same. -/
structure TellsAlike (form : α → List UInt8 → Prop) (texts texts' : List (List UInt8)) : Prop where
  malformed : Malformed form texts ↔ Malformed form texts'
  tells (x : Option α) : Tells form texts x ↔ Tells form texts' x

theorem TellsAlike.symm {texts texts' : List (List UInt8)} (h : TellsAlike form texts texts') :
    TellsAlike form texts' texts where
  malformed := h.malformed.symm
  tells x := (h.tells x).symm

theorem TellsAlike.trans {texts texts' texts'' : List (List UInt8)}
    (h : TellsAlike form texts texts') (h' : TellsAlike form texts' texts'') :
    TellsAlike form texts texts'' where
  malformed := h.malformed.trans h'.malformed
  tells x := (h.tells x).trans (h'.tells x)

theorem tellsAlike_perm (form : α → List UInt8 → Prop) {texts texts' : List (List UInt8)}
    (h : texts.Perm texts') : TellsAlike form texts texts' where
  malformed := ⟨malformed_perm h, malformed_perm h.symm⟩
  tells _ := ⟨tells_perm h, tells_perm h.symm⟩

/-- Nothing and `null` tell the same. -/
theorem tellsAlike_null (hform : IsForm form) : TellsAlike form [] [nullText] where
  malformed := by
    have habsent : ¬ Malformed form [] := Met.absent.not_malformed
    have hgiven : ¬ Malformed form [nullText] := (Met.given (x := none) rfl).not_malformed
    exact iff_of_false habsent hgiven
  tells x := by
    cases x with
    | none => simp [Tells]
    | some x => simp [Tells, hform.ne_null x]

end StatQuery.Json
