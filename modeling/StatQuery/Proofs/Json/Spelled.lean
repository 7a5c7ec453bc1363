import StatQuery.Proofs.Json.Leaves
import StatQuery.Proofs.Json.Record

/-!
# How records are spelled

A record is spelled as an object of its members or as an array of their values, in the order of the
fields and with the last of them left out (`SpellsRecord`). Whatever a record was read from is spelled so
(`Record.read_leaves`). What the members tell is left to the record: the proofs go along the members, and
carry an invariant between them and the draft.
-/

namespace StatQuery.Json

open Reader

/-- The text lists items, up to the closing bracket; `first` tells that no item precedes it. -/
def ItemsText : List (List UInt8) → (first : Bool) → List UInt8 → Prop
  | [], _, body => Blanks body
  | text :: rest, first, body => ∃ separator more, Separates first separator ∧
      ItemsText rest false more ∧ body = separator ++ (text ++ more)

/-- The text spells members of a record with fields of some names: as an object, or as an array of
their values. -/
inductive SpellsRecord (names : List String) : List (String × List UInt8) → List UInt8 → Prop
  | object {members : List (String × List UInt8)} {body : List UInt8}
      (h : MembersText members true body) : SpellsRecord names members (0x7B :: (body ++ [0x7D]))
  | array {items : List (List UInt8)} {body : List UInt8} (hlength : items.length ≤ names.length)
      (h : ItemsText items true body) :
      SpellsRecord names (names.zip items) (0x5B :: (body ++ [0x5D]))

/-- The text is one JSON object, with any blanks around it. -/
def IsObject (text : List UInt8) : Prop :=
  ∃ before body behind, Blanks before ∧ Blanks behind ∧ IsMembers true body ∧
    text = before ++ ((0x7B :: (body ++ [0x7D])) ++ behind)

/-- The text is one JSON array, with any blanks around it. -/
def IsArray (text : List UInt8) : Prop :=
  ∃ before body behind, Blanks before ∧ Blanks behind ∧ IsItems true body ∧
    text = before ++ ((0x5B :: (body ++ [0x5D])) ++ behind)

/-- An object begins with a brace, if not with a blank. -/
theorem IsObject.head_eq {b : UInt8} {tail : List UInt8} (h : IsObject (b :: tail))
    (hb : isBlank b = false) : b = 0x7B := by
  obtain ⟨before, body, behind, hbefore, -, -, htext⟩ := h
  cases before with
  | nil => exact (List.cons.inj htext).1
  | cons first before =>
    obtain ⟨rfl, -⟩ := List.cons.inj htext
    rw [hbefore b (by simp)] at hb
    cases hb

theorem ItemsText.isItems {items : List (List UInt8)} {first : Bool} {body : List UInt8}
    (h : ItemsText items first body) (hitems : ∀ item ∈ items, IsText item) : IsItems first body := by
  induction items generalizing first body with
  | nil => exact .nil h
  | cons item items ih =>
    obtain ⟨separator, more, hseparator, hmore, rfl⟩ := h
    have hrest := ih hmore fun item hmem => hitems item (List.mem_cons_of_mem _ hmem)
    exact .cons hseparator (hitems item (by simp)) hrest

theorem MembersText.isMembers {members : List (String × List UInt8)} {first : Bool}
    {body : List UInt8} (h : MembersText members first body)
    (hvalues : ∀ member ∈ members, IsText member.2) : IsMembers first body := by
  induction members generalizing first body with
  | nil => exact .nil h
  | cons member members ih =>
    obtain ⟨separator, nameText, before, behind, more, hseparator, hname, hbefore, hbehind, hmore,
      rfl⟩ := h
    have hrest := ih hmore fun member hmem => hvalues member (List.mem_cons_of_mem _ hmem)
    exact .cons hseparator (isString_of_stringWritten hname) hbefore hbehind (hvalues member (by simp))
      hrest

theorem ItemsText.delimited {items : List (List UInt8)} {body : List UInt8}
    (h : ItemsText items false body) (rest : List UInt8) : Delimited (body ++ 0x5D :: rest) := by
  cases items with
  | nil => exact Delimited.blanks_append h (delimited_cons _ (by decide))
  | cons item items =>
    obtain ⟨separator, more, hseparator, -, rfl⟩ := h
    rw [List.append_assoc]
    exact hseparator.delimited _

namespace Reader

variable {α σ : Type} {text rest : List UInt8}

/-! ### Between the parts -/

theorem colon_leaves {x : Unit} (h : colon.Leaves text x rest) :
    ∃ blanks, Blanks blanks ∧ text = blanks ++ 0x3A :: rest := by
  rw [colon] at h
  obtain ⟨blanks, b, tail, hblanks, rfl, -, hnext⟩ := h.pastBlanks_some (fails_failNext _)
  split at hnext
  · next hb => cases hb
  · next hb =>
    cases hb
    exact ⟨blanks, hblanks, by rw [hnext.advance_only]⟩
  · exact absurd hnext (fails_failNext _).not_leaves

theorem someString_leaves {name : Option String}
    (h : (do return some (← stringBody) : Reader (Option String)).Leaves text name rest) :
    ∃ s nameText, name = some s ∧ StringWritten s nameText ∧ 0x22 :: text = nameText ++ rest := by
  obtain ⟨s, between, hname, hpure⟩ := h.bind
  obtain ⟨rfl, rfl⟩ := hpure.pure
  obtain ⟨content, hcontent, rfl⟩ := stringBody_leaves hname
  exact ⟨s, 0x22 :: (content ++ [0x22]), rfl, ⟨content, hcontent, rfl⟩, by simp⟩

/-- Behind the members stands the closing brace, or the name of another member behind its separator. -/
theorem nextName_leaves {first : Bool} {name : Option String}
    (h : (nextName first).Leaves text name rest) :
    (name = none ∧ ∃ blanks tail, Blanks blanks ∧ rest = 0x7D :: tail ∧ text = blanks ++ rest) ∨
    ∃ s separator nameText, name = some s ∧ Separates first separator ∧ StringWritten s nameText ∧
      text = separator ++ (nameText ++ rest) := by
  rw [nextName] at h
  obtain ⟨blanks, b, tail, hblanks, rfl, -, hnext⟩ := h.pastBlanks_some (fails_failNext _)
  split at hnext
  · next hb => cases hb
  · next hb =>
    cases hb
    obtain ⟨rfl, rfl⟩ := hnext.pure
    exact .inl ⟨rfl, blanks, tail, hblanks, rfl, rfl⟩
  · next hb =>
    cases hb
    split at hnext
    · next hfirst =>
      split at hnext
      · next hquote =>
        obtain ⟨s, nameText, rfl, hname, hsplit⟩ := someString_leaves hnext.advance
        rw [hfirst, hquote, hsplit]
        exact .inr ⟨s, blanks, nameText, rfl, hblanks, hname, rfl⟩
      · exact absurd hnext (fails_failNext _).not_leaves
    · next hfirst =>
      rw [Bool.not_eq_true] at hfirst
      split at hnext
      · next hcomma =>
        obtain ⟨behind, b, tail, hbehind, rfl, -, hlast⟩ :=
          hnext.advance.pastBlanks_some (fails_failNext _)
        split at hlast
        · next hb => cases hb
        · next hb =>
          cases hb
          obtain ⟨s, nameText, rfl, hname, hsplit⟩ := someString_leaves hlast.advance
          rw [hfirst, hcomma, hsplit]
          exact .inr ⟨s, blanks ++ 0x2C :: behind, nameText, rfl,
            ⟨blanks, behind, hblanks, hbehind, rfl⟩, hname, by simp⟩
        · exact absurd hlast (fails_failNext _).not_leaves
        · exact absurd hlast (fails_failNext _).not_leaves
      · exact absurd hnext (fails_failNext _).not_leaves

/-- Behind the items stands the closing bracket, or the separator of another item. -/
theorem anotherItem_leaves {first another : Bool} (h : (anotherItem first).Leaves text another rest) :
    ∃ separator, text = separator ++ rest ∧
      if another then Separates first separator else Blanks separator := by
  rw [anotherItem] at h
  obtain ⟨blanks, b, tail, hblanks, rfl, -, hnext⟩ := h.pastBlanks_some (fails_failNext _)
  split at hnext
  · next hb => cases hb
  · obtain ⟨rfl, rfl⟩ := hnext.pure
    exact ⟨blanks, rfl, hblanks⟩
  · next hb =>
    cases hb
    split at hnext
    · next hfirst =>
      obtain ⟨rfl, rfl⟩ := hnext.pure
      rw [hfirst]
      exact ⟨blanks, rfl, hblanks⟩
    · next hfirst =>
      rw [Bool.not_eq_true] at hfirst
      split at hnext
      · next hcomma =>
        obtain ⟨behind, b, tail, hbehind, rfl, -, hlast⟩ :=
          hnext.advance.pastBlanks_some (fails_failNext _)
        split at hlast
        · next hb => cases hb
        · exact absurd hlast (fails_failNext _).not_leaves
        · obtain ⟨rfl, rfl⟩ := hlast.pure
          rw [hfirst, hcomma]
          exact ⟨blanks ++ 0x2C :: behind, by simp, blanks, behind, hblanks, hbehind, rfl⟩
      · exact absurd hnext (fails_failNext _).not_leaves

/-! ### Loops -/

/-- What a loop over members has read: a list of members that the last state tells of, if every reader
of a member keeps that up. -/
theorem foldMembersUpTo_leaves {member : String → σ → Reader σ}
    {tells : σ → List (String × List UInt8) → Prop}
    (hmember : ∀ {name state before text next rest}, tells state before →
      (member name state).Leaves text next rest → ∃ front behind written, Blanks front ∧
        Blanks behind ∧ text = front ++ 0x3A :: (behind ++ (written ++ rest)) ∧
        tells next (before ++ [(name, written)]))
    {limit : Nat} {first : Bool} {state last : σ} {before : List (String × List UInt8)}
    (hstate : tells state before)
    (h : (foldMembersUpTo member limit first state).Leaves text last rest) :
    ∃ members body tail, MembersText members first body ∧ tells last (before ++ members) ∧
      rest = 0x7D :: tail ∧ text = body ++ rest := by
  induction limit generalizing first state before text with
  | zero => exact absurd h (fails_failHere _).not_leaves
  | succ limit ih =>
    rw [foldMembersUpTo] at h
    obtain ⟨name, between, hname, hnext⟩ := h.bind
    rcases nextName_leaves hname with
      ⟨rfl, blanks, tail, hblanks, rfl, rfl⟩ | ⟨s, separator, nameText, rfl, hseparator, hs, rfl⟩
    · obtain ⟨rfl, rfl⟩ := hnext.pure
      exact ⟨[], blanks, tail, hblanks, by rwa [List.append_nil], rfl, rfl⟩
    · obtain ⟨next, between, hread, hloop⟩ := Leaves.bind hnext
      obtain ⟨front, behind, written, hfront, hbehind, rfl, htells⟩ := hmember hstate hread
      obtain ⟨members, body, tail, hbody, hlast, rfl, rfl⟩ := ih htells hloop
      refine ⟨(s, written) :: members, _, tail, .cons hseparator hs hfront hbehind hbody, ?_, rfl,
        by simp⟩
      simpa using hlast

end Reader

namespace Record

variable {σ α : Type} {record : Record σ α} {text rest : List UInt8}

/-- What the reader of a member has taken if it takes a colon and leaves the value to a reader. -/
theorem colon_demands {β : Type} {reader : Reader β} {form : β → List UInt8 → Prop}
    (hreader : reader.Demands form) {x : β} (h : (do colon; reader).Leaves text x rest) :
    ∃ front behind written, Blanks front ∧ Blanks behind ∧ form x written ∧
      text = front ++ 0x3A :: (behind ++ (written ++ rest)) := by
  obtain ⟨u, between, hcolon, hread⟩ := h.bind
  obtain ⟨front, hfront, rfl⟩ := colon_leaves hcolon
  obtain ⟨behind, written, hbehind, hwritten, rfl⟩ := hreader hread
  exact ⟨front, behind, written, hfront, hbehind, hwritten, rfl⟩

theorem closeItems_leaves {x : Unit} (h : closeItems.Leaves text x rest) :
    ∃ blanks, Blanks blanks ∧ text = blanks ++ 0x5D :: rest := by
  rw [closeItems] at h
  obtain ⟨blanks, b, tail, hblanks, rfl, -, hnext⟩ := h.pastBlanks_some (fails_failNext _)
  split at hnext
  · next hb => cases hb
  · next hb =>
    cases hb
    exact ⟨blanks, hblanks, by rw [hnext.advance_only]⟩
  · obtain ⟨head, between, -, hlast⟩ := hnext.advance.bind
    split at hlast
    · exact absurd hlast (fails_failNext _).not_leaves
    · exact absurd hlast (fails_failNext _).not_leaves
  · exact absurd hnext (fails_failNext _).not_leaves

/-- Drafts keep telling of the members that have been read into them, from an object or an array. -/
structure Tracks (record : Record σ α) (tells : σ → List (String × List UInt8) → Prop) : Prop where
  start : tells record.draft []
  member {name : String} {draft next : σ} {before : List (String × List UInt8)}
    {text rest : List UInt8} : tells draft before →
    (record.readMember name draft).Leaves text next rest → ∃ front behind written, Blanks front ∧
      Blanks behind ∧ text = front ++ 0x3A :: (behind ++ (written ++ rest)) ∧
      tells next (before ++ [(name, written)])
  item {field : Field σ} {draft next : σ} {before : List (String × List UInt8)}
    {text rest : List UInt8} : field ∈ record.fields → tells draft before →
    (∀ member ∈ before, member.1 ≠ field.name) → (field.read draft).Leaves text next rest →
      ∃ blanks written, Blanks blanks ∧ text = blanks ++ (written ++ rest) ∧
        tells next (before ++ [(field.name, written)])

variable {tells : σ → List (String × List UInt8) → Prop}

/-- A member named for one field leaves the names of the other fields new. -/
theorem forall_concat_ne {fields : List (Field σ)} {field : Field σ}
    {members : List (String × List UInt8)} (hnodup : ((field :: fields).map (·.name)).Nodup)
    (hnew : ∀ other ∈ field :: fields, ∀ member ∈ members, member.1 ≠ other.name)
    (text : List UInt8) :
    ∀ other ∈ fields, ∀ member ∈ members ++ [(field.name, text)], member.1 ≠ other.name := by
  intro other hother member hmem
  rw [List.map_cons, List.nodup_cons] at hnodup
  rcases List.mem_append.1 hmem with hmem | hmem
  · exact hnew other (List.mem_cons_of_mem _ hother) member hmem
  · obtain rfl := List.mem_singleton.1 hmem
    intro heq
    exact hnodup.1 (List.mem_map.2 ⟨other, hother, heq.symm⟩)

/-- What the loop over items has read: the values of fields in order, of which the last draft tells. -/
theorem readItems_leaves (htracks : record.Tracks tells) {fields : List (Field σ)}
    (hfields : ∀ field ∈ fields, field ∈ record.fields) (hnodup : (fields.map (·.name)).Nodup)
    {first : Bool} {draft last : σ} {left : List (Field σ)} {before : List (String × List UInt8)}
    (hnew : ∀ field ∈ fields, ∀ member ∈ before, member.1 ≠ field.name) (hdraft : tells draft before)
    (h : (readItems fields first draft).Leaves text (last, left) rest) :
    ∃ items body, items.length ≤ fields.length ∧
      tells last (before ++ (fields.map (·.name)).zip items) ∧ text = body ++ rest ∧
      ∀ blanks, Blanks blanks → ItemsText items first (body ++ blanks) := by
  induction fields generalizing first draft before text with
  | nil =>
    obtain ⟨hresult, rfl⟩ := h.pure
    cases hresult
    exact ⟨[], [], Nat.le_refl _, by simpa using hdraft, rfl, fun blanks hblanks => hblanks⟩
  | cons field fields ih =>
    rw [readItems] at h
    obtain ⟨another, between, hanother, hnext⟩ := h.bind
    obtain ⟨separator, rfl, hseparator⟩ := anotherItem_leaves hanother
    cases another with
    | false =>
      obtain ⟨hresult, rfl⟩ := hnext.pure
      cases hresult
      refine ⟨[], separator, Nat.zero_le _, by simpa using hdraft, rfl, fun blanks hblanks => ?_⟩
      exact List.forall_mem_append.2 ⟨hseparator, hblanks⟩
    | true =>
      obtain ⟨next, between, hread, hloop⟩ := Leaves.bind hnext
      obtain ⟨blanks, written, hblanks, rfl, htells⟩ :=
        htracks.item (hfields field (by simp)) hdraft (hnew field (by simp)) hread
      have hseparates : Separates first (separator ++ blanks) := by
        have hfirst : Separates first separator := hseparator
        exact hfirst.append_blanks hblanks
      have hnext := forall_concat_ne hnodup hnew written
      obtain ⟨items, body, hlength, hlast, rfl, hbody⟩ :=
        ih (fun other hmem => hfields other (List.mem_cons_of_mem _ hmem)) (List.nodup_cons.1 hnodup).2
          hnext htells hloop
      refine ⟨written :: items, separator ++ blanks ++ (written ++ body), ?_, ?_, by simp, ?_⟩
      · simpa using hlength
      · simpa using hlast
      · intro behind hbehind
        exact ⟨separator ++ blanks, body ++ behind, hseparates, hbody behind hbehind, by simp⟩

theorem readObject_leaves (htracks : record.Tracks tells) {x : α}
    (h : record.readObject.Leaves text x rest) :
    ∃ members body draft, MembersText members true body ∧ tells draft members ∧
      x = record.build draft ∧ text = body ++ 0x7D :: rest := by
  rw [readObject] at h
  obtain ⟨draft, between, hfold, hnext⟩ := h.bind
  rw [foldMembers] at hfold
  obtain ⟨members, body, tail, hbody, htells, rfl, rfl⟩ :=
    foldMembersUpTo_leaves (fun hdraft hread => htracks.member hdraft hread) htracks.start
      hfold.remaining
  have hlast := hnext.advance
  split at hlast
  · exact absurd hlast (fails_failHere _).not_leaves
  · obtain ⟨rfl, rfl⟩ := hlast.pure
    exact ⟨members, body, draft, hbody, htells, rfl, rfl⟩

theorem readArray_leaves (htracks : record.Tracks tells)
    (hnodup : (record.fields.map (·.name)).Nodup) {x : α} (h : record.readArray.Leaves text x rest) :
    ∃ items body draft, items.length ≤ record.fields.length ∧ ItemsText items true body ∧
      tells draft ((record.fields.map (·.name)).zip items) ∧ x = record.build draft ∧
      text = body ++ 0x5D :: rest := by
  rw [readArray] at h
  obtain ⟨⟨draft, left⟩, between, hitems, hnext⟩ := h.bind
  obtain ⟨items, body, hlength, htells, rfl, hbody⟩ :=
    readItems_leaves htracks (fun _ h => h) hnodup (by simp) htracks.start hitems
  obtain ⟨u, between, hclose, hlast⟩ := hnext.bind
  obtain ⟨blanks, hblanks, rfl⟩ := closeItems_leaves hclose
  split at hlast
  · exact absurd hlast (fails_failHere _).not_leaves
  · obtain ⟨rfl, rfl⟩ := hlast.pure
    exact ⟨items, body ++ blanks, draft, hlength, hbody blanks hblanks, htells, rfl, by simp⟩

/-- Whatever a record was read from is spelled as a record, and the record tells of its members. -/
theorem read_leaves (htracks : record.Tracks tells) (hnodup : (record.fields.map (·.name)).Nodup)
    {x : α} (h : record.read.Leaves text x rest) :
    ∃ blanks written members draft, Blanks blanks ∧ text = blanks ++ (written ++ rest) ∧
      SpellsRecord (record.fields.map (·.name)) members written ∧ tells draft members ∧
      x = record.build draft := by
  rw [read] at h
  obtain ⟨blanks, b, tail, hblanks, rfl, -, hnext⟩ := h.value
  split at hnext
  · obtain ⟨items, body, draft, hlength, hbody, htells, rfl, rfl⟩ :=
      readArray_leaves htracks hnodup hnext.advance
    have hlength : items.length ≤ (record.fields.map (·.name)).length := by rwa [List.length_map]
    exact ⟨blanks, _, _, draft, hblanks, by simp, .array hlength hbody, htells, rfl⟩
  · obtain ⟨members, body, draft, hbody, htells, rfl, rfl⟩ :=
      readObject_leaves htracks hnext.advance
    exact ⟨blanks, _, _, draft, hblanks, by simp, .object hbody, htells, rfl⟩
  · exact absurd hnext (fails_wrongKind _).not_leaves

/-! ### Reading arrays -/

/-- Items are read into fields, in order, which leads a draft to another and leaves the last fields. -/
inductive Fills : List (Field σ) → σ → List (List UInt8) → σ → List (Field σ) → Prop
  | done (fields : List (Field σ)) (draft : σ) : Fills fields draft [] draft fields
  | item {field : Field σ} {fields left : List (Field σ)} {draft next last : σ} {text : List UInt8}
      {items : List (List UInt8)} (htext : IsText text) (htakes : (field.read draft).Takes text next)
      (h : Fills fields next items last left) :
      Fills (field :: fields) draft (text :: items) last left

/-- One of some items is refused by its field, the items before it having been read. -/
inductive BreaksAtItem : List (Field σ) → σ → List (List UInt8) → Prop
  | here {field : Field σ} {fields : List (Field σ)} {draft : σ} {text : List UInt8}
      {items : List (List UInt8)} (htext : IsText text) (hrefuses : (field.read draft).Refuses text) :
      BreaksAtItem (field :: fields) draft (text :: items)
  | later {field : Field σ} {fields : List (Field σ)} {draft next : σ} {text : List UInt8}
      {items : List (List UInt8)} (htext : IsText text) (htakes : (field.read draft).Takes text next)
      (h : BreaksAtItem fields next items) : BreaksAtItem (field :: fields) draft (text :: items)

theorem anotherItem_text {first : Bool} {separator text : List UInt8} (more : List UInt8) (p : Position)
    (hseparator : Separates first separator) (htext : IsText text) :
    anotherItem first ⟨separator ++ (text ++ more), p⟩ =
      .ok (true, ⟨text ++ more, p.afterAll separator⟩) := by
  obtain ⟨b, tail, rfl, hblank, hclose, -⟩ := htext.exists_cons
  exact anotherItem_separates _ p hseparator hblank hclose

/-- The loop over items stops before the closing bracket or before blanks that stand there. -/
theorem readItems_fills {fields left : List (Field σ)} {draft last : σ} {items : List (List UInt8)}
    (h : Fills fields draft items last left) {first : Bool} {body : List UInt8}
    (hbody : ItemsText items first body) (rest : List UInt8) (p : Position) :
    ∃ front blanks, body = front ++ blanks ∧ Blanks blanks ∧
      readItems fields first draft ⟨body ++ 0x5D :: rest, p⟩ =
        .ok ((last, left), ⟨blanks ++ 0x5D :: rest, p.afterAll front⟩) := by
  induction h generalizing first body p with
  | done fields draft =>
    cases fields with
    | nil => exact ⟨[], body, rfl, hbody, rfl⟩
    | cons field fields =>
      refine ⟨body, [], (List.append_nil body).symm, Blanks.nil, ?_⟩
      rw [readItems, bind_of_ok (anotherItem_close rest p hbody)]
      rfl
  | @item _ _ _ _ _ _ text _ htext htakes _ ih =>
    obtain ⟨separator, more, hseparator, hmore, rfl⟩ := hbody
    obtain ⟨front, blanks, rfl, hblanks, hloop⟩ := ih hmore ((p.afterAll separator).afterAll text)
    have hread := htakes [] _ (p.afterAll separator) Blanks.nil (hmore.delimited rest)
    rw [List.nil_append, List.nil_append] at hread
    refine ⟨separator ++ (text ++ front), blanks, by simp, hblanks, ?_⟩
    rw [List.append_assoc, List.append_assoc, readItems,
      bind_of_ok (anotherItem_text _ p hseparator htext)]
    simp only [if_true]
    rw [bind_of_ok hread, hloop]
    simp only [Position.afterAll_append]

theorem readItems_breaks {fields : List (Field σ)} {draft : σ} {items : List (List UInt8)}
    (h : BreaksAtItem fields draft items) {first : Bool} {body : List UInt8}
    (hbody : ItemsText items first body) (rest : List UInt8) (p : Position) :
    ∃ e, readItems fields first draft ⟨body ++ 0x5D :: rest, p⟩ = .error e := by
  induction h generalizing first body p with
  | here htext hrefuses =>
    obtain ⟨separator, more, hseparator, hmore, rfl⟩ := hbody
    obtain ⟨e, hread⟩ := hrefuses [] _ (p.afterAll separator) Blanks.nil (hmore.delimited rest)
    rw [List.nil_append] at hread
    refine ⟨e, ?_⟩
    rw [List.append_assoc, List.append_assoc, readItems,
      bind_of_ok (anotherItem_text _ p hseparator htext)]
    simp only [if_true]
    rw [bind_of_error hread]
  | later htext htakes _ ih =>
    obtain ⟨separator, more, hseparator, hmore, rfl⟩ := hbody
    obtain ⟨e, hloop⟩ := ih hmore ((p.afterAll separator).afterAll _)
    have hread := htakes [] _ (p.afterAll separator) Blanks.nil (hmore.delimited rest)
    rw [List.nil_append, List.nil_append] at hread
    refine ⟨e, ?_⟩
    rw [List.append_assoc, List.append_assoc, readItems,
      bind_of_ok (anotherItem_text _ p hseparator htext)]
    simp only [if_true]
    rw [bind_of_ok hread, ← hloop]

theorem closeItems_blanks {blanks : List UInt8} (rest : List UInt8) (p : Position) (h : Blanks blanks) :
    closeItems ⟨blanks ++ 0x5D :: rest, p⟩ = .ok ((), ⟨rest, p.afterAll (blanks ++ [0x5D])⟩) := by
  rw [closeItems, bind_of_ok (peekPastBlanks_cons rest p h (by decide)), Position.afterAll_append]
  rfl

/-- An array is read as the record that the draft after its last item stands for. -/
theorem read_items {items : List (List UInt8)} {draft : σ} {left : List (Field σ)}
    (h : Fills record.fields record.draft items draft left)
    (hrequired : left.findIdx? (·.required) = none) {body : List UInt8}
    (hbody : ItemsText items true body) :
    record.read.Takes (0x5B :: (body ++ [0x5D])) (record.build draft) := by
  refine takes_peekValue (by decide) fun rest p _ => ?_
  change (advance >>= fun _ => record.readArray) _ = _
  obtain ⟨front, blanks, rfl, hblanks, hitems⟩ := readItems_fills h hbody rest (p.after 0x5B)
  rw [List.append_assoc, List.singleton_append, bind_of_ok (advance_cons _ _ p), readArray,
    bind_of_ok hitems]
  simp only
  rw [bind_of_ok (closeItems_blanks rest _ hblanks), hrequired]
  simp only [Position.afterAll_cons, Position.afterAll_append]
  rfl

theorem read_items_breaks {items : List (List UInt8)}
    (h : BreaksAtItem record.fields record.draft items) {body : List UInt8}
    (hbody : ItemsText items true body) : record.read.Refuses (0x5B :: (body ++ [0x5D])) := by
  refine refuses_peekValue (by decide) fun rest p _ => ?_
  obtain ⟨e, he⟩ := readItems_breaks h hbody rest (p.after 0x5B)
  refine ⟨e, ?_⟩
  change (advance >>= fun _ => record.readArray) _ = _
  rw [List.append_assoc, List.singleton_append, bind_of_ok (advance_cons _ _ p), readArray,
    bind_of_error he]

end Record

end StatQuery.Json
