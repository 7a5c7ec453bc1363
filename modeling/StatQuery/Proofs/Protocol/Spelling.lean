import StatQuery.Proofs.Json.Spelled
import StatQuery.Proofs.Protocol.Classification

/-!
# Which frames are read

A frame is read as a request if it spells members that are not ill-formed, and malformed otherwise
(`decode_malformed_iff`). It may spell them as an object, in which the values of other members need not
be JSON, or as an array of the fields in order.

That a frame that spells its members is read as they call for goes along the members, and so does the
way back, from a reader that has come to its end to the members that it has met.
-/

namespace StatQuery.Request

open Json Json.Reader

/-- The frame spells the members of a request, with any blanks around it. -/
structure Spells (frame : List UInt8) (members : List (String × List UInt8)) : Prop where
  values : ∀ member ∈ members, Readable member.1 member.2
  written : ∃ before text behind, Blanks before ∧ Blanks behind ∧
    SpellsRecord fieldNames members text ∧ frame = before ++ (text ++ behind)

/-! ### From an array -/

/-- One more item leaves a draft of all members, or it is refused and they are ill-formed. -/
theorem readItem_describes {field : Json.Field Draft} {draft : Draft}
    {members : List (String × List UInt8)} (h : Describes draft members)
    (hfield : field ∈ wireRecord.fields) (hnew : textsOf field.name members = []) {text : List UInt8}
    (htext : IsText text) :
    (∃ next, (field.read draft).Takes text next ∧ Describes next (members ++ [(field.name, text)])) ∨
    ((field.read draft).Refuses text ∧ IllFormed (members ++ [(field.name, text)])) := by
  obtain ⟨β, form, reader, get, put, hslot⟩ := exists_slot hfield
  have htexts : textsOf field.name (members ++ [(field.name, text)]) = [text] := by
    rw [textsOf_concat_self, hnew, List.nil_append]
  rcases read_field (put draft) (hslot.read draft) hslot.decides hslot.isForm htext with
    ⟨x, htakes, hmet⟩ | ⟨hrefuses, hbad⟩
  · exact .inl ⟨_, htakes, hslot.describes h (htexts ▸ hmet)⟩
  · exact .inr ⟨hrefuses, hslot.illFormed (htexts ▸ hbad)⟩

theorem textsOf_eq_nil {name : String} {members : List (String × List UInt8)}
    (h : ∀ member ∈ members, member.1 ≠ name) : textsOf name members = [] := by
  rw [textsOf, List.map_eq_nil_iff, List.filter_eq_nil_iff]
  simpa using h

/-- All items leave a draft that describes them, or one is refused and they are ill-formed. -/
theorem fills_or_breaks {fields : List (Json.Field Draft)} {items : List (List UInt8)}
    (hlength : items.length ≤ fields.length) (hitems : ∀ item ∈ items, IsText item)
    (hfields : ∀ field ∈ fields, field ∈ wireRecord.fields) (hnodup : (fields.map (·.name)).Nodup)
    {draft : Draft} {before : List (String × List UInt8)} (h : Describes draft before)
    (hnew : ∀ field ∈ fields, ∀ member ∈ before, member.1 ≠ field.name) :
    (∃ last left, Record.Fills fields draft items last left ∧
      (∀ field ∈ left, field ∈ wireRecord.fields) ∧
      Describes last (before ++ (fields.map (·.name)).zip items)) ∨
    (Record.BreaksAtItem fields draft items ∧
      IllFormed (before ++ (fields.map (·.name)).zip items)) := by
  induction items generalizing fields draft before with
  | nil => exact .inl ⟨draft, fields, .done fields draft, hfields, by simpa using h⟩
  | cons text items ih =>
    cases fields with
    | nil => exact absurd hlength (Nat.not_succ_le_zero _)
    | cons field fields =>
      have htext : IsText text := hitems text (by simp)
      have hfield := hfields field (by simp)
      have hfresh := textsOf_eq_nil (hnew field (by simp))
      have hassoc : before ++ ((field :: fields).map (·.name)).zip (text :: items) =
          before ++ [(field.name, text)] ++ (fields.map (·.name)).zip items := by simp
      rw [hassoc]
      rcases readItem_describes h hfield hfresh htext with ⟨next, htakes, hnext⟩ | ⟨hrefuses, hbad⟩
      · rcases ih (Nat.le_of_succ_le_succ hlength) (fun item hmem => hitems item (by simp [hmem]))
          (fun other hmem => hfields other (List.mem_cons_of_mem _ hmem)) (List.nodup_cons.1 hnodup).2
          hnext (Record.forall_concat_ne hnodup hnew text) with
          ⟨last, left, hfills, hleft, hlast⟩ | ⟨hbreaks, hbad⟩
        · exact .inl ⟨last, left, .item htext htakes hfills, hleft, hlast⟩
        · exact .inr ⟨.later htext htakes hbreaks, hbad⟩
      · exact .inr ⟨.here htext hrefuses, hbad.append _⟩

theorem not_required {field : Json.Field Draft} (hfield : field ∈ wireRecord.fields) :
    field.required = false := by
  simp only [wireRecord, List.mem_cons, List.not_mem_nil, or_false] at hfield
  rcases hfield with rfl | rfl | rfl <;> rfl

theorem decode_of_items {items : List (List UInt8)} {before body behind : List UInt8}
    (hlength : items.length ≤ fieldNames.length) (hitems : ∀ item ∈ items, IsText item)
    (hbefore : Blanks before) (hbehind : Blanks behind) (hbody : ItemsText items true body) :
    Classified (fieldNames.zip items) (decode (before ++ ((0x5B :: (body ++ [0x5D])) ++ behind))) := by
  have hstart : Describes wireRecord.draft [] := ⟨.absent, .absent, .absent⟩
  rcases fills_or_breaks hlength hitems (fun _ h => h) (by decide) hstart (by simp) with
    ⟨draft, left, hfills, hleft, hdraft⟩ | ⟨hbreaks, hbad⟩
  · have hrequired : left.findIdx? (·.required) = none :=
      List.findIdx?_eq_none_iff.2 fun field hmem => not_required (hleft field hmem)
    have hread := run_of_takes (Record.read_items hfills hrequired hbody) hbefore hbehind
    rw [decode, hread]
    exact classified_of_describes hdraft
  · obtain ⟨e, hread⟩ := run_of_refuses (Record.read_items_breaks hbreaks hbody) hbefore hbehind
    rw [decode, hread]
    exact classified_of_illFormed hbad e.message

/-- The items of an array are asked for, so none of them is skipped. -/
theorem isText_of_mem_items {items : List (List UInt8)} (hlength : items.length ≤ fieldNames.length)
    (hvalues : ∀ member ∈ fieldNames.zip items, Readable member.1 member.2) :
    ∀ item ∈ items, IsText item := by
  intro item hitem
  rw [← List.map_snd_zip hlength] at hitem
  obtain ⟨⟨name, item⟩, hmember, rfl⟩ := List.mem_map.1 hitem
  exact (hvalues _ hmember).isText (List.of_mem_zip hmember).1

/-- A frame is read as the members that it spells call for. -/
theorem decode_of_spells {frame : List UInt8} {members : List (String × List UInt8)}
    (h : Spells frame members) : Classified members (decode frame) := by
  obtain ⟨hvalues, before, text, behind, hbefore, hbehind, hspells, rfl⟩ := h
  cases hspells with
  | object hbody => exact decode_of_members hvalues hbefore hbehind hbody
  | array hlength hbody =>
    exact decode_of_items hlength (isText_of_mem_items hlength hvalues) hbefore hbehind hbody

/-! ### The way back -/

theorem item_demands {field : Json.Field Draft} {draft : Draft} {before : List (String × List UInt8)}
    (h : Describes draft before) (hfield : field ∈ wireRecord.fields)
    (hnew : textsOf field.name before = []) :
    (field.read draft).Demands fun next written =>
      IsText written ∧ Describes next (before ++ [(field.name, written)]) := by
  intro text next rest hread
  obtain ⟨β, form, reader, get, put, hslot⟩ := exists_slot hfield
  rw [hslot.read] at hread
  obtain ⟨x, between, hvalue, hpure⟩ := hread.bind
  obtain ⟨rfl, rfl⟩ := hpure.pure
  obtain ⟨blanks, written, hblanks, hform, rfl⟩ := hslot.demands.optional hvalue
  have htexts : textsOf field.name (before ++ [(field.name, written)]) = [written] := by
    rw [textsOf_concat_self, hnew, List.nil_append]
  have htext : IsText written := by
    cases x with
    | none =>
      obtain rfl : written = nullText := hform
      exact .null
    | some x => exact hslot.isText hform
  refine ⟨blanks, written, hblanks, ⟨htext, hslot.describes h ?_⟩, rfl⟩
  rw [htexts]
  exact .given hform

/-- What a draft tells of the members read into it. -/
def TellsOf (draft : Draft) (members : List (String × List UInt8)) : Prop :=
  Describes draft members ∧ ∀ member ∈ members, Readable member.1 member.2

theorem member_demands {name : String} {draft next : Draft} {before : List (String × List UInt8)}
    {text rest : List UInt8} (h : Describes draft before)
    (hread : (wireRecord.readMember name draft).Leaves text next rest) :
    ∃ front behind written, Blanks front ∧ Blanks behind ∧
      text = front ++ 0x3A :: (behind ++ (written ++ rest)) ∧ Readable name written ∧
      Describes next (before ++ [(name, written)]) := by
  cases hfield : wireRecord.fields.find? (·.name = name) with
  | none =>
    rw [Record.readMember, hfield] at hread
    have hskip : Demands (do skipValue; return draft : Reader Draft) fun next written =>
        next = draft ∧ Skipped written := by
      intro text next rest hskipped
      obtain ⟨u, between, hvalue, hpure⟩ := hskipped.bind
      obtain ⟨rfl, rfl⟩ := hpure.pure
      obtain ⟨blanks, written, hblanks, hwritten, rfl⟩ := demands_skipValue hvalue
      exact ⟨blanks, written, hblanks, ⟨rfl, hwritten⟩, rfl⟩
    obtain ⟨front, behind, written, hfront, hbehind, ⟨rfl, hwritten⟩, rfl⟩ :=
      Record.colon_demands hskip hread
    have hname := not_mem_fieldNames hfield
    exact ⟨front, behind, written, hfront, hbehind, rfl, .inr ⟨hname, hwritten⟩, h.other hname written⟩
  | some field =>
    have hmem := List.mem_of_find?_eq_some hfield
    obtain rfl : field.name = name := by simpa using List.find?_some hfield
    obtain ⟨β, form, reader, get, put, hslot⟩ := exists_slot hmem
    have hmet := hslot.met h
    have hpresent := hslot.isPresent draft
    generalize htexts : textsOf field.name before = texts at hmet
    generalize get draft = met at hmet hpresent
    cases hmet with
    | given =>
      rw [Record.readMember, hfield] at hread
      simp only [hpresent] at hread
      exact absurd hread (Record.fails_failAtClose _).not_leaves
    | absent =>
      rw [Record.readMember_of_new hfield hpresent] at hread
      obtain ⟨front, behind, written, hfront, hbehind, ⟨htext, hnext⟩, rfl⟩ :=
        Record.colon_demands (item_demands h hmem htexts) hread
      exact ⟨front, behind, written, hfront, hbehind, rfl, .inl htext, hnext⟩

theorem tracks : wireRecord.Tracks TellsOf where
  start := ⟨⟨.absent, .absent, .absent⟩, by simp⟩
  member {name draft next before text rest} h hread := by
    obtain ⟨front, behind, written, hfront, hbehind, hsplit, hreadable, hnext⟩ :=
      member_demands h.1 hread
    refine ⟨front, behind, written, hfront, hbehind, hsplit, hnext, ?_⟩
    exact List.forall_mem_append.2 ⟨h.2, by simpa using hreadable⟩
  item {field draft next before text rest} hfield h hnew hread := by
    obtain ⟨blanks, written, hblanks, ⟨htext, hnext⟩, hsplit⟩ :=
      item_demands h.1 hfield (textsOf_eq_nil hnew) hread
    have hreadable : Readable field.name written := .inl htext
    refine ⟨blanks, written, hblanks, hsplit, hnext, ?_⟩
    exact List.forall_mem_append.2 ⟨h.2, by simpa using hreadable⟩

/-- A frame that is read as something spells members that are not ill-formed. -/
theorem exists_spells {frame : List UInt8}
    (h : ∀ reason, decode frame ≠ .error (.malformedRequest reason)) :
    ∃ members, Spells frame members ∧ ¬ IllFormed members := by
  cases hrun : wireRecord.read.run frame with
  | error e =>
    refine absurd ?_ (h e.message)
    rw [decode, hrun]
  | ok wire =>
    obtain ⟨behind, hread, hbehind⟩ := run_leaves hrun
    obtain ⟨blanks, written, members, draft, hblanks, rfl, hspells, htells, -⟩ :=
      Record.read_leaves tracks (by decide) hread
    exact ⟨members, ⟨htells.2, blanks, written, behind, hblanks, hbehind, hspells, rfl⟩,
      htells.1.not_illFormed⟩

/-- A frame is malformed unless it spells members that are not ill-formed. -/
theorem decode_malformed_iff (frame : List UInt8) :
    (∃ reason, decode frame = .error (.malformedRequest reason)) ↔
      ∀ members, Spells frame members → IllFormed members := by
  constructor
  · rintro ⟨reason, hreason⟩ members hspells
    by_contra hgood
    exact (decode_of_spells hspells).ne_malformed hgood reason hreason
  · intro h
    by_contra hnone
    obtain ⟨members, hspells, hgood⟩ := exists_spells (not_exists.1 hnone)
    exact hgood (h members hspells)

end StatQuery.Request
