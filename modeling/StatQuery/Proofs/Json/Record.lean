import StatQuery.Json.Record
import StatQuery.Proofs.Json.Refusal
import StatQuery.Proofs.Json.Skip

/-!
# Reading written records

What a member of a record's object does to the draft: a field not met before is read into it, a field
met before is refused, and a member of any other name leaves it as it was. An object is read as the
record that its last draft stands for (`read_written`), or refused if one of its members is
(`read_breaks`). What a field makes of its value is left to the record.
-/

namespace StatQuery.Json.Record

open Reader

variable {σ α : Type} {record : Record σ α}

/-! ### One member -/

/-- A field that has not been met is read behind its colon. -/
theorem readMember_of_new {name : String} {field : Field σ} {draft : σ}
    (hfield : record.fields.find? (·.name = name) = some field)
    (hnew : field.isPresent draft = false) :
    record.readMember name draft = (do colon; field.read draft) := by
  rw [readMember, hfield]
  simp only [hnew]
  rfl

theorem readMember_reads {name : String} {field : Field σ} {draft next : σ} {value : Json}
    (hfield : record.fields.find? (·.name = name) = some field)
    (hnew : field.isPresent draft = false) (h : (field.read draft).Reads value next) :
    ReadsMember (record.readMember name draft) value next := by
  rw [readMember_of_new hfield hnew]
  exact colon_reads h

/-- A member of another name is skipped, if its value can be. -/
theorem readMember_unknown {name : String} {draft : σ} {text : List UInt8}
    (hname : record.fields.find? (·.name = name) = none) (hvalue : Takes skipValue text ()) :
    TakesMember (record.readMember name draft) text draft := by
  have hskip : Takes (do skipValue; return draft) text draft := by
    intro blanks rest p hblanks hrest
    rw [bind_of_ok (hvalue blanks rest p hblanks hrest)]
    rfl
  have hmember : record.readMember name draft = (do colon; skipValue; return draft) := by
    rw [readMember, hname]
  rw [hmember]
  exact colon_takes hskip

theorem fails_failAtClose (cause : Cause) : Fails (failAtClose cause : Reader α) := by
  refine .after (fun head => ?_) _
  split
  · exact fails_failNext cause
  · exact fails_failHere cause

/-- A field is not met twice, whatever the second value. -/
theorem readMember_present {name : String} {field : Field σ} {draft : σ}
    (hfield : record.fields.find? (·.name = name) = some field)
    (hpresent : field.isPresent draft = true) (text : List UInt8) :
    RefusesMember (record.readMember name draft) text := by
  have hmember : record.readMember name draft = failAtClose (.mismatch (.duplicate name)) := by
    rw [readMember, hfield]
    simp only [hpresent]
    rfl
  rw [hmember]
  exact fun behind _ => Fails.refuses (fails_failAtClose _) _

/-! ### Whole records -/

theorem read_texts {members : List (String × List UInt8)} {draft : σ}
    (h : FoldsTexts record.readMember record.draft members draft)
    (hrequired : record.fields.find? (fun field => field.required && !field.isPresent draft) = none)
    {body : List UInt8} (hbody : MembersText members true body) :
    record.read.Takes (0x7B :: (body ++ [0x7D])) (record.build draft) := by
  refine takes_peekValue (by decide) fun rest p _ => ?_
  change (advance >>= fun _ => record.readObject) _ = _
  rw [List.append_assoc, List.singleton_append, bind_of_ok (advance_cons _ _ p), readObject,
    bind_of_ok (foldMembers_texts h hbody rest _), bind_of_ok (advance_cons _ rest _), hrequired]
  rw [Position.afterAll_cons, Position.afterAll_append]
  rfl

/-- An object of which a member is refused is refused as a whole. -/
theorem read_breaks {members : List (String × List UInt8)}
    (h : BreaksAtText record.readMember record.draft members) {body : List UInt8}
    (hbody : MembersText members true body) : record.read.Refuses (0x7B :: (body ++ [0x7D])) := by
  refine refuses_peekValue (by decide) fun rest p _ => ?_
  obtain ⟨e, he⟩ := foldMembers_breaks h hbody rest (p.after 0x7B)
  refine ⟨e, ?_⟩
  change (advance >>= fun _ => record.readObject) _ = _
  rw [List.append_assoc, List.singleton_append, bind_of_ok (advance_cons _ _ p), readObject,
    bind_of_error he]

/-- An object of fields is read as the record that the draft after its last member stands for. -/
theorem read_written {members : List (String × Json)} {draft : σ}
    (h : Folds record.readMember record.draft members draft)
    (hrequired : record.fields.find? (fun field => field.required && !field.isPresent draft) = none) :
    record.read.Reads (object members) (record.build draft) := by
  rintro text ⟨body, hbody, rfl⟩
  obtain ⟨texts, hmembers, hfolds⟩ := h.exists_texts hbody
  exact read_texts hfolds hrequired hmembers

end StatQuery.Json.Record
