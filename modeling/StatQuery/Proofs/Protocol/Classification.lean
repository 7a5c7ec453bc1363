import StatQuery.Proofs.Json.Blurred
import StatQuery.Proofs.Json.Fields
import StatQuery.Proofs.Json.Writer
import StatQuery.Protocol.Request

/-!
# How requests are classified

What a request frame is read as depends on its known members alone, and not on their order. A member
that occurs twice or holds the wrong kind of value makes the frame malformed, whatever else it says;
then the version counts, then the action (`decode_classified`). The members of an object are given by
their names and the texts of their values, which may be any JSON.

Members are read one after the other, so the proof goes along the list: the draft describes the members
so far, or one of them was refused and the whole is ill-formed whatever follows.
-/

namespace StatQuery.Request

open Json Json.Reader

/-- The members that a request has. -/
def fieldNames : List String := ["version", "action", "handle"]

/-- One of the known members occurs twice or holds the wrong kind of value. A string that stands for
no Unicode text, half of a surrogate pair being escaped alone, is of the wrong kind. -/
def IllFormed (members : List (String × List UInt8)) : Prop :=
  Malformed UnsignedWritten (textsOf "version" members) ∨
    Malformed StringWritten (textsOf "action" members) ∨
    Malformed StringWritten (textsOf "handle" members)

/-- Members call for an outcome: the first of four rules that applies. -/
structure Classified (members : List (String × List UInt8))
    (outcome : Except ProtocolError Request) : Prop where
  malformed : IllFormed members → ∃ reason, outcome = .error (.malformedRequest reason)
  unsupported : ¬ IllFormed members → ∀ version,
    Tells UnsignedWritten (textsOf "version" members) (some version) → version ≠ 1 →
    outcome = .error (.unsupportedVersion version 1)
  missing : ¬ IllFormed members →
    (∀ version, Tells UnsignedWritten (textsOf "version" members) (some version) → version = 1) →
    Tells StringWritten (textsOf "action" members) none →
    outcome = .error (.missingField "action")
  accepted : ¬ IllFormed members →
    (∀ version, Tells UnsignedWritten (textsOf "version" members) (some version) → version = 1) →
    ∀ action handle, Tells StringWritten (textsOf "action" members) (some action) →
      Tells StringWritten (textsOf "handle" members) handle →
      outcome = .ok ⟨1, .ofName action, handle⟩

/-- The members differ by nothing that a request is read from: their order, members of other names,
known members that are `null` instead of absent, and the current version instead of none. -/
inductive Alike : List (String × List UInt8) → List (String × List UInt8) → Prop
  | perm {members members' : List (String × List UInt8)} (h : members.Perm members') :
      Alike members members'
  | other {members : List (String × List UInt8)} {name : String} (text : List UInt8)
      (hname : name ∉ fieldNames) : Alike members ((name, text) :: members)
  | null {members : List (String × List UInt8)} {name : String} (hname : name ∈ fieldNames)
      (habsent : textsOf name members = []) : Alike members ((name, nullText) :: members)
  | current {members : List (String × List UInt8)} (habsent : textsOf "version" members = []) :
      Alike members (("version", decimal 1) :: members)
  | symm {members members' : List (String × List UInt8)} (h : Alike members members') :
      Alike members' members
  | trans {members members' members'' : List (String × List UInt8)} (h : Alike members members')
      (h' : Alike members' members'') : Alike members members''

/-! ### Reading the members one after the other -/

/-- The draft has what the members tell. -/
structure Describes (draft : Draft) (members : List (String × List UInt8)) : Prop where
  version : Met UnsignedWritten (textsOf "version" members) draft.version
  action : Met StringWritten (textsOf "action" members) draft.action
  handle : Met StringWritten (textsOf "handle" members) draft.handle

theorem Describes.not_illFormed {draft : Draft} {members : List (String × List UInt8)}
    (h : Describes draft members) : ¬ IllFormed members := by
  rintro (hbad | hbad | hbad)
  · exact h.version.not_malformed hbad
  · exact h.action.not_malformed hbad
  · exact h.handle.not_malformed hbad

theorem IllFormed.append {members : List (String × List UInt8)} (h : IllFormed members)
    (more : List (String × List UInt8)) : IllFormed (members ++ more) := by
  unfold IllFormed at h ⊢
  simp only [textsOf_append]
  rcases h with h | h | h
  · exact .inl (h.append _)
  · exact .inr (.inl (h.append _))
  · exact .inr (.inr (h.append _))

/-- The value of a member can be taken: it is JSON, or nobody asks for it and it is skipped. -/
def Readable (name : String) (text : List UInt8) : Prop :=
  IsText text ∨ (name ∉ fieldNames ∧ Skipped text)

theorem Readable.isText {name : String} {text : List UInt8} (h : Readable name text)
    (hname : name ∈ fieldNames) : IsText text :=
  h.resolve_right fun hother => hother.1 hname

theorem Readable.skipped {name : String} {text : List UInt8} (h : Readable name text) :
    Takes skipValue text () := by
  rcases h with htext | ⟨-, hskipped⟩
  · exact skipValue_isText htext
  · exact skipValue_skipped hskipped

/-- A field of the record holds in a draft what the texts of its name tell. -/
structure Slot {β : Type} (field : Json.Field Draft) (form : β → List UInt8 → Prop) (reader : Reader β)
    (get : Draft → Option (Option β)) (put : Draft → Option β → Draft) : Prop where
  read (draft : Draft) : field.read draft = (do return put draft (← reader.optional))
  isPresent (draft : Draft) : field.isPresent draft = (get draft).isSome
  decides : reader.Decides form
  demands : reader.Demands form
  isForm : IsForm form
  isText {x : β} {text : List UInt8} : form x text → IsText text
  met {draft : Draft} {members : List (String × List UInt8)} : Describes draft members →
    Met form (textsOf field.name members) (get draft)
  describes {draft : Draft} {members : List (String × List UInt8)} {text : List UInt8}
    {x : Option β} : Describes draft members →
    Met form (textsOf field.name (members ++ [(field.name, text)])) (some x) →
      Describes (put draft x) (members ++ [(field.name, text)])
  illFormed {members : List (String × List UInt8)} :
    Malformed form (textsOf field.name members) → IllFormed members

theorem exists_slot {field : Json.Field Draft} (hfield : field ∈ wireRecord.fields) :
    ∃ (β : Type) (form : β → List UInt8 → Prop) (reader : Reader β)
      (get : Draft → Option (Option β)) (put : Draft → Option β → Draft),
      Slot field form reader get put := by
  simp only [wireRecord, List.mem_cons, List.not_mem_nil, or_false] at hfield
  rcases hfield with rfl | rfl | rfl
  · refine ⟨_, UnsignedWritten, unsigned, Draft.version, fun draft x =>
      { draft with version := some x }, fun _ => rfl, fun _ => rfl, decides_unsigned, demands_unsigned,
      isForm_unsigned, isText_of_unsignedWritten, fun h => h.version, fun {_ _ text _} h hmet => ?_,
      .inl⟩
    exact ⟨hmet, h.action.concat (show "version" ≠ "action" by decide) text,
      h.handle.concat (show "version" ≠ "handle" by decide) text⟩
  · refine ⟨_, StringWritten, Reader.text, Draft.action, fun draft x =>
      { draft with action := some x }, fun _ => rfl, fun _ => rfl, decides_text, demands_text,
      isForm_string, isText_of_stringWritten, fun h => h.action, fun {_ _ text _} h hmet => ?_,
      fun hbad => .inr (.inl hbad)⟩
    exact ⟨h.version.concat (show "action" ≠ "version" by decide) text, hmet,
      h.handle.concat (show "action" ≠ "handle" by decide) text⟩
  · refine ⟨_, StringWritten, Reader.text, Draft.handle, fun draft x =>
      { draft with handle := some x }, fun _ => rfl, fun _ => rfl, decides_text, demands_text,
      isForm_string, isText_of_stringWritten, fun h => h.handle, fun {_ _ text _} h hmet => ?_,
      fun hbad => .inr (.inr hbad)⟩
    exact ⟨h.version.concat (show "handle" ≠ "version" by decide) text,
      h.action.concat (show "handle" ≠ "action" by decide) text, hmet⟩

theorem name_mem_fieldNames {field : Json.Field Draft} (hfield : field ∈ wireRecord.fields) :
    field.name ∈ fieldNames := List.mem_map_of_mem (f := fun field => field.name) hfield

/-- A member of another name leaves what a draft describes. -/
theorem Describes.other {draft : Draft} {members : List (String × List UInt8)}
    (h : Describes draft members) {name : String} (hname : name ∉ fieldNames) (text : List UInt8) :
    Describes draft (members ++ [(name, text)]) := by
  have hne {field : String} (hfield : field ∈ fieldNames) : name ≠ field := by
    rintro rfl
    exact hname hfield
  exact ⟨h.version.concat (hne (by decide)) text, h.action.concat (hne (by decide)) text,
    h.handle.concat (hne (by decide)) text⟩

theorem not_mem_fieldNames {name : String}
    (hfield : wireRecord.fields.find? (·.name = name) = none) : name ∉ fieldNames := by
  rintro hname
  obtain ⟨field, hmem, rfl⟩ := List.mem_map.1 (show name ∈ wireRecord.fields.map (·.name) from hname)
  simpa using List.find?_eq_none.1 hfield field hmem

/-- One more member leaves a draft of all members, or it is refused and they are ill-formed. -/
theorem readMember_describes {draft : Draft} {members : List (String × List UInt8)}
    (h : Describes draft members) (name : String) {text : List UInt8} (htext : Readable name text) :
    (∃ next, TakesMember (wireRecord.readMember name draft) text next ∧
      Describes next (members ++ [(name, text)])) ∨
    (RefusesMember (wireRecord.readMember name draft) text ∧
      IllFormed (members ++ [(name, text)])) := by
  cases hfield : wireRecord.fields.find? (·.name = name) with
  | none =>
    exact .inl ⟨draft, Record.readMember_unknown hfield htext.skipped,
      h.other (not_mem_fieldNames hfield) text⟩
  | some field =>
    have hmem := List.mem_of_find?_eq_some hfield
    obtain rfl : field.name = name := by simpa using List.find?_some hfield
    obtain ⟨β, form, reader, get, put, hslot⟩ := exists_slot hmem
    rcases wireRecord.readMember_field field.name (put draft) hfield (hslot.isPresent draft)
      (hslot.read draft) hslot.decides hslot.isForm (hslot.met h)
      (htext.isText (name_mem_fieldNames hmem)) with ⟨x, htakes, hmet⟩ | ⟨hrefuses, hbad⟩
    · exact .inl ⟨_, htakes, hslot.describes h hmet⟩
    · exact .inr ⟨hrefuses, hslot.illFormed hbad⟩

/-- All members leave a draft that describes them, or one is refused and they are ill-formed. -/
theorem folds_or_breaks (members : List (String × List UInt8))
    (hvalues : ∀ member ∈ members, Readable member.1 member.2) {draft : Draft}
    {before : List (String × List UInt8)} (h : Describes draft before) :
    (∃ last, FoldsTexts wireRecord.readMember draft members last ∧
      Describes last (before ++ members)) ∨
    (BreaksAtText wireRecord.readMember draft members ∧ IllFormed (before ++ members)) := by
  induction members generalizing draft before with
  | nil => exact .inl ⟨draft, .nil draft, by rwa [List.append_nil]⟩
  | cons member members ih =>
    obtain ⟨name, text⟩ := member
    have htext : Readable name text := hvalues (name, text) (by simp)
    have hrest : ∀ member ∈ members, Readable member.1 member.2 := fun member hmem =>
      hvalues member (List.mem_cons_of_mem _ hmem)
    have hassoc : before ++ (name, text) :: members = before ++ [(name, text)] ++ members := by simp
    rw [hassoc]
    rcases readMember_describes h name htext with ⟨next, htakes, hnext⟩ | ⟨hrefuses, hbad⟩
    · rcases ih hrest hnext with ⟨last, hfolds, hlast⟩ | ⟨hbreaks, hbad⟩
      · exact .inl ⟨last, .cons htakes hfolds, hlast⟩
      · exact .inr ⟨.later htakes hbreaks, hbad⟩
    · exact .inr ⟨.here hrefuses, hbad.append members⟩

/-! ### The outcome -/

/-- Ill-formed members call for one error, whatever its reason. -/
theorem classified_of_illFormed {members : List (String × List UInt8)} (h : IllFormed members)
    (reason : String) : Classified members (.error (.malformedRequest reason)) where
  malformed _ := ⟨reason, rfl⟩
  unsupported hnot := absurd h hnot
  missing hnot := absurd h hnot
  accepted hnot := absurd h hnot

/-- A draft of the members stands for the outcome that they call for. -/
theorem classified_of_describes {draft : Draft} {members : List (String × List UInt8)}
    (h : Describes draft members) : Classified members (ofWire (wireRecord.build draft)) := by
  have hversion {x : Option UInt64} (hx : Tells UnsignedWritten (textsOf "version" members) x) :
      draft.version.join = x := h.version.join_eq isForm_unsigned hx
  have haction {x : Option String} (hx : Tells StringWritten (textsOf "action" members) x) :
      draft.action.join = x := h.action.join_eq isForm_string hx
  have hhandle {x : Option String} (hx : Tells StringWritten (textsOf "handle" members) x) :
      draft.handle.join = x := h.handle.join_eq isForm_string hx
  have hcurrent (hone : ∀ version,
      Tells UnsignedWritten (textsOf "version" members) (some version) → version = 1) :
      draft.version.join.getD protocolVersion.toUInt64 = protocolVersion.toUInt64 := by
    obtain ⟨x, hx⟩ := exists_tells h.version.not_malformed
    rw [hversion hx]
    cases x with
    | none => rfl
    | some version => exact hone version hx
  change Classified members (ofWire ⟨draft.version.join, draft.action.join, draft.handle.join⟩)
  constructor
  · exact fun hbad => absurd hbad h.not_illFormed
  · intro _ version htells hne
    rw [hversion htells]
    exact if_pos hne
  · intro _ hone htells
    rw [ofWire, haction htells]
    exact if_neg (not_not.2 (hcurrent hone))
  · intro _ hone action handle htells htells'
    rw [ofWire, haction htells, hhandle htells']
    exact if_neg (not_not.2 (hcurrent hone))

/-- An object is read as its members call for. -/
theorem decode_of_members {members : List (String × List UInt8)} {before body behind : List UInt8}
    (hvalues : ∀ member ∈ members, Readable member.1 member.2) (hbefore : Blanks before)
    (hbehind : Blanks behind) (hbody : MembersText members true body) :
    Classified members (decode (before ++ ((0x7B :: (body ++ [0x7D])) ++ behind))) := by
  have hstart : Describes wireRecord.draft [] := ⟨.absent, .absent, .absent⟩
  rcases folds_or_breaks members hvalues hstart with ⟨draft, hfolds, hdraft⟩ | ⟨hbreaks, hbad⟩
  · have hread := run_of_takes (Record.read_texts hfolds (by rfl) hbody) hbefore hbehind
    rw [decode, hread]
    exact classified_of_describes hdraft
  · obtain ⟨e, hread⟩ := run_of_refuses (Record.read_breaks hbreaks hbody) hbefore hbehind
    rw [decode, hread]
    exact classified_of_illFormed hbad e.message

theorem decode_of_objectText {members : List (String × List UInt8)} {frame : List UInt8}
    (h : ObjectText members frame) : Classified members (decode frame) := by
  obtain ⟨hvalues, before, body, behind, hbefore, hbehind, hbody, rfl⟩ := h
  exact decode_of_members (fun member hmem => .inl (hvalues member hmem)) hbefore hbehind hbody

/-! ### Members that are alike -/

/-- Members are read alike: they are ill-formed together and tell the same, but that the current
version may be told or not. -/
structure ReadAlike (members members' : List (String × List UInt8)) : Prop where
  version_malformed : Malformed UnsignedWritten (textsOf "version" members) ↔
    Malformed UnsignedWritten (textsOf "version" members')
  version {version : UInt64} (hne : version ≠ 1) :
    Tells UnsignedWritten (textsOf "version" members) (some version) ↔
      Tells UnsignedWritten (textsOf "version" members') (some version)
  action : TellsAlike StringWritten (textsOf "action" members) (textsOf "action" members')
  handle : TellsAlike StringWritten (textsOf "handle" members) (textsOf "handle" members')

namespace ReadAlike

variable {members members' members'' : List (String × List UInt8)}

theorem symm (h : ReadAlike members members') : ReadAlike members' members where
  version_malformed := h.version_malformed.symm
  version hne := (h.version hne).symm
  action := h.action.symm
  handle := h.handle.symm

theorem trans (h : ReadAlike members members') (h' : ReadAlike members' members'') :
    ReadAlike members members'' where
  version_malformed := h.version_malformed.trans h'.version_malformed
  version hne := (h.version hne).trans (h'.version hne)
  action := h.action.trans h'.action
  handle := h.handle.trans h'.handle

theorem of_tellsAlike
    (hversion : TellsAlike UnsignedWritten (textsOf "version" members) (textsOf "version" members'))
    (haction : TellsAlike StringWritten (textsOf "action" members) (textsOf "action" members'))
    (hhandle : TellsAlike StringWritten (textsOf "handle" members) (textsOf "handle" members')) :
    ReadAlike members members' :=
  ⟨hversion.malformed, fun _ => hversion.tells _, haction, hhandle⟩

theorem of_perm (h : ∀ name ∈ fieldNames, (textsOf name members).Perm (textsOf name members')) :
    ReadAlike members members' := by
  refine of_tellsAlike ?_ ?_ ?_
  · exact tellsAlike_perm _ (h "version" (by decide))
  · exact tellsAlike_perm _ (h "action" (by decide))
  · exact tellsAlike_perm _ (h "handle" (by decide))

/-- An absent member may be written as `null`. -/
theorem of_null {name : String} (habsent : textsOf name members = []) :
    ReadAlike members ((name, nullText) :: members) := by
  have halike {α : Type} {form : α → List UInt8 → Prop} (hform : IsForm form) (other : String) :
      TellsAlike form (textsOf other members) (textsOf other ((name, nullText) :: members)) := by
    by_cases hname : name = other
    · subst hname
      rw [textsOf_cons_self, habsent]
      exact tellsAlike_null hform
    · rw [textsOf_cons_of_ne hname]
      exact tellsAlike_perm form (List.Perm.refl _)
  exact of_tellsAlike (halike isForm_unsigned _) (halike isForm_string _) (halike isForm_string _)

/-- An absent version may be written as the current one. -/
theorem of_current (habsent : textsOf "version" members = []) :
    ReadAlike members (("version", decimal 1) :: members) := by
  have hsame (other : String) (hne : "version" ≠ other) :
      TellsAlike StringWritten (textsOf other members)
        (textsOf other (("version", decimal 1) :: members)) := by
    rw [textsOf_cons_of_ne hne]
    exact tellsAlike_perm _ (List.Perm.refl _)
  have hone : UnsignedWritten 1 (decimal 1) := rfl
  refine ⟨?_, ?_, hsame "action" (by decide), hsame "handle" (by decide)⟩
  · rw [textsOf_cons_self, habsent]
    have hgiven : Met UnsignedWritten [decimal 1] (some (some 1)) := .given hone
    exact iff_of_false Met.absent.not_malformed hgiven.not_malformed
  · intro version hne
    rw [textsOf_cons_self, habsent]
    refine iff_of_false ?_ ?_
    · rintro ⟨text, hmem, -⟩
      exact absurd hmem (by simp)
    · rintro ⟨text, hmem, htext⟩
      obtain rfl := List.mem_singleton.1 hmem
      exact hne (isForm_unsigned.unique htext hone)

theorem illFormed_iff (h : ReadAlike members members') : IllFormed members ↔ IllFormed members' :=
  or_congr h.version_malformed (or_congr h.action.malformed h.handle.malformed)

/-- Members that are read alike call for the same outcomes. -/
theorem classified (h : ReadAlike members members') {outcome : Except ProtocolError Request}
    (hclass : Classified members outcome) : Classified members' outcome := by
  have hcurrent (hone : ∀ version,
      Tells UnsignedWritten (textsOf "version" members') (some version) → version = 1) :
      ∀ version, Tells UnsignedWritten (textsOf "version" members) (some version) → version = 1 := by
    intro version htells
    by_contra hne
    exact hne (hone version ((h.version hne).1 htells))
  constructor
  · intro hbad
    exact hclass.malformed (h.illFormed_iff.2 hbad)
  · intro hgood version htells hne
    have hgood := mt h.illFormed_iff.1 hgood
    exact hclass.unsupported hgood version ((h.version hne).2 htells) hne
  · intro hgood hone htells
    have hgood := mt h.illFormed_iff.1 hgood
    exact hclass.missing hgood (hcurrent hone) ((h.action.tells _).2 htells)
  · intro hgood hone action handle haction hhandle
    have hgood := mt h.illFormed_iff.1 hgood
    exact hclass.accepted hgood (hcurrent hone) action handle ((h.action.tells _).2 haction)
      ((h.handle.tells _).2 hhandle)

end ReadAlike

theorem Alike.readAlike {members members' : List (String × List UInt8)}
    (h : Alike members members') : ReadAlike members members' := by
  induction h with
  | perm h => exact .of_perm fun name _ => textsOf_perm name h
  | @other members name text hname =>
    refine .of_perm fun field hfield => ?_
    have hne : name ≠ field := by
      rintro rfl
      exact hname hfield
    rw [textsOf_cons_of_ne hne]
  | null _ habsent => exact .of_null habsent
  | current habsent => exact .of_current habsent
  | symm _ ih => exact ih.symm
  | trans _ _ ih ih' => exact ih.trans ih'

/-- Members that are not ill-formed call for something else than that error. -/
theorem Classified.ne_malformed {members : List (String × List UInt8)}
    {outcome : Except ProtocolError Request} (h : Classified members outcome)
    (hgood : ¬ IllFormed members) (reason : String) : outcome ≠ .error (.malformedRequest reason) := by
  by_cases hone : ∀ version,
      Tells UnsignedWritten (textsOf "version" members) (some version) → version = 1
  · obtain ⟨action, haction⟩ := exists_tells (mt (fun h => .inr (.inl h)) hgood)
    obtain ⟨handle, hhandle⟩ := exists_tells (mt (fun h => .inr (.inr h)) hgood)
    cases action with
    | none =>
      rw [h.missing hgood hone haction]
      intro heq
      cases heq
    | some action =>
      rw [h.accepted hgood hone action handle haction hhandle]
      intro heq
      cases heq
  · obtain ⟨version, htells, hne⟩ : ∃ version,
        Tells UnsignedWritten (textsOf "version" members) (some version) ∧ version ≠ 1 := by
      simpa using hone
    rw [h.unsupported hgood version htells hne]
    intro heq
    cases heq

/-- Members call for one outcome, up to the reason for which they are malformed. -/
theorem Classified.unique {members : List (String × List UInt8)}
    {outcome outcome' : Except ProtocolError Request} (h : Classified members outcome)
    (h' : Classified members outcome') :
    outcome.mapError ProtocolError.code = outcome'.mapError ProtocolError.code := by
  by_cases hbad : IllFormed members
  · obtain ⟨reason, rfl⟩ := h.malformed hbad
    obtain ⟨reason', rfl⟩ := h'.malformed hbad
    rfl
  by_cases hone : ∀ version,
      Tells UnsignedWritten (textsOf "version" members) (some version) → version = 1
  · obtain ⟨action, haction⟩ := exists_tells (mt (fun h => .inr (.inl h)) hbad)
    obtain ⟨handle, hhandle⟩ := exists_tells (mt (fun h => .inr (.inr h)) hbad)
    cases action with
    | none => rw [h.missing hbad hone haction, h'.missing hbad hone haction]
    | some action =>
      rw [h.accepted hbad hone action handle haction hhandle,
        h'.accepted hbad hone action handle haction hhandle]
  · obtain ⟨version, htells, hne⟩ : ∃ version,
        Tells UnsignedWritten (textsOf "version" members) (some version) ∧ version ≠ 1 := by
      simpa using hone
    rw [h.unsupported hbad version htells hne, h'.unsupported hbad version htells hne]

/-- A frame is read as its members call for, and frames of members that are alike are read alike. -/
theorem decode_classified {members : List (String × List UInt8)} {frame : List UInt8}
    (h : ObjectText members frame) :
    Classified members (decode frame) ∧
      ∀ (members' : List (String × List UInt8)) (frame' : List UInt8), Alike members members' →
        ObjectText members' frame' →
        (decode frame').mapError ProtocolError.code = (decode frame).mapError ProtocolError.code := by
  refine ⟨decode_of_objectText h, fun members' frame' halike h' => ?_⟩
  have hclass : Classified members' (decode frame) :=
    halike.readAlike.classified (decode_of_objectText h)
  exact (decode_of_objectText h').unique hclass

/-- A frame of another version, in which the version stands a second time under an escaped name. -/
def versionTwice : List UInt8 :=
  Utf8.encode "\x7b\"version\":2, \"x\":[[]], \"\\u0076ersion\":null\x7d"

theorem objectText_versionTwice :
    ObjectText [("version", decimal 2), ("x", [0x5B, 0x5B, 0x5D, 0x5D]), ("version", nullText)]
      versionTwice := by
  have hfirst : CharWritten 'v' [0x5C, 0x75, 0x30, 0x30, 0x37, 0x36] :=
    .unit (show hexWord? 0x30 0x30 0x37 0x36 = some 0x76 by rfl) (by decide)
  have hname : StringWritten "version" (0x22 :: ([0x5C, 0x75, 0x30, 0x30, 0x37, 0x36] ++
      Utf8.encodeChars ("ersion".toList.flatMap escape) ++ [0x22])) := by
    refine ⟨_, ?_, rfl⟩
    rw [show "version".toList = 'v' :: "ersion".toList by decide]
    exact ⟨_, _, hfirst, chars_written "ersion".toList, rfl⟩
  have htwo : IsText (decimal 2) := .number (.of 2 .absent .absent)
  have hempty : IsText [0x5B, 0x5D] := .array (.nil Blanks.nil)
  have hseparates : Separates true [] := Blanks.nil
  have harray : IsText [0x5B, 0x5B, 0x5D, 0x5D] := .array (.cons hseparates hempty (.nil Blanks.nil))
  have hspace : Separates false [0x2C, 0x20] := ⟨[], [0x20], Blanks.nil, by simp [Blanks, isBlank], rfl⟩
  have hbody : MembersText
      [("version", decimal 2), ("x", [0x5B, 0x5B, 0x5D, 0x5D]), ("version", nullText)] true _ :=
    .cons hseparates (quoted_written "version") Blanks.nil Blanks.nil
      (.cons hspace (quoted_written "x") Blanks.nil Blanks.nil
        (.cons hspace hname Blanks.nil Blanks.nil Blanks.nil))
  constructor
  · simpa [htwo, harray] using IsText.null
  · exact ⟨[], _, [], Blanks.nil, Blanks.nil, hbody, by decide⟩

/-- The second version makes the frame malformed although it is `null`, and the first is refused too;
it is so in any order and without the member that nobody asks for. -/
theorem decode_versionTwice :
    ObjectText [("version", decimal 2), ("x", [0x5B, 0x5B, 0x5D, 0x5D]), ("version", nullText)]
      versionTwice ∧
    (∃ reason, decode versionTwice = .error (.malformedRequest reason)) ∧
    (decode (Utf8.encode "\x7b\"version\":null,\"version\":2\x7d")).mapError ProtocolError.code =
      .error "MalformedRequest" := by
  obtain ⟨hclass, halike⟩ := decode_classified objectText_versionTwice
  have hbad : IllFormed
      [("version", decimal 2), ("x", [0x5B, 0x5B, 0x5D, 0x5D]), ("version", nullText)] :=
    .inl (.repeated (by decide))
  obtain ⟨reason, hdecode⟩ := hclass.malformed hbad
  refine ⟨objectText_versionTwice, ⟨reason, hdecode⟩, ?_⟩
  have hperm : Alike
      [("version", decimal 2), ("x", [0x5B, 0x5B, 0x5D, 0x5D]), ("version", nullText)]
      [("x", [0x5B, 0x5B, 0x5D, 0x5D]), ("version", nullText), ("version", decimal 2)] :=
    .perm (by decide)
  have hother := hperm.trans (.symm (.other _ (by decide)))
  have hseparates : Separates true [] := Blanks.nil
  have hcomma : Separates false [0x2C] := ⟨[], [], Blanks.nil, Blanks.nil, rfl⟩
  have hbody : MembersText [("version", nullText), ("version", decimal 2)] true _ :=
    .cons hseparates (quoted_written "version") Blanks.nil Blanks.nil
      (.cons hcomma (quoted_written "version") Blanks.nil Blanks.nil Blanks.nil)
  have htwo : IsText (decimal 2) := .number (.of 2 .absent .absent)
  have htext : ObjectText [("version", nullText), ("version", decimal 2)]
      (Utf8.encode "\x7b\"version\":null,\"version\":2\x7d") := by
    constructor
    · simpa [htwo] using IsText.null
    · exact ⟨[], _, [], Blanks.nil, Blanks.nil, hbody, by decide⟩
  rw [halike _ _ hother htext, hdecode]
  rfl

end StatQuery.Request
