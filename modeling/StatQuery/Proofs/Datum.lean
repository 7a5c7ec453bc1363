import StatQuery.Datum
import StatQuery.Proofs.Dict

/-!
# What a record is told by its members

A record read from a map keeps, under each of its names, what the member of that name says, and what it
was before if there is none (`Tracks.told`). Nothing else of the record changes
(`readMembers_keeps`), and reading fails only if one of the members does (`exists_readMembers`).
-/

namespace StatQuery.Datum

variable {σ α : Type}

/-- The value after reading is the one that was found, or else the one before. -/
def Told (decode : Datum → Except Mismatch α) (found : Option Datum) (before after : α) : Prop :=
  match found with
  | none => after = before
  | some datum => decode datum = .ok after

/-- A part of a record is what the member of one name says. -/
structure Tracks (record : Record σ) (name : String) (decode : Datum → Except Mismatch α)
    (part : σ → α) : Prop where
  known : ∃ field ∈ record.fields, field.name = name
  read : ∀ field ∈ record.fields, ∀ datum draft next, field.read datum draft = .ok next →
    if field.name = name then decode datum = .ok (part next) else part next = part draft

/-- A field whose reading decodes its member and then changes the draft. -/
theorem exists_of_read_eq_ok {decode : Except Mismatch α} {change : α → σ} {next : σ}
    (h : (do return change (← decode)) = Except.ok next) :
    ∃ value, decode = .ok value ∧ next = change value := by
  cases decode with
  | error mismatch => cases h
  | ok value =>
    cases h
    exact ⟨value, rfl, rfl⟩

theorem exists_read_eq_ok {decode : Except Mismatch α} {value : α} (h : decode = .ok value)
    (change : α → σ) : ∃ next, (do return change (← decode)) = (Except.ok next : Except Mismatch σ) :=
  ⟨change value, by rw [h]; rfl⟩

theorem Told.unique {decode : Datum → Except Mismatch α} {found : Option Datum} {before a b : α}
    (ha : Told decode found before a) (hb : Told decode found before b) : a = b := by
  cases found with
  | none => exact ha.trans hb.symm
  | some datum => exact Except.ok.inj (ha.symm.trans hb)

/-- What is found can be read. -/
theorem Told.exists_ok {decode : Datum → Except Mismatch α} {found : Option Datum} {before after : α}
    (h : Told decode found before after) {datum : Datum} (hfound : found = some datum) :
    decode datum = .ok after := by
  subst hfound
  exact h

variable {record : Record σ} {members : List (String × Datum)} {draft final : σ}

theorem readMembers_cons {name : String} {datum : Datum}
    (h : record.readMembers ((name, datum) :: members) draft = .ok final) :
    (record.fields.find? (·.name = name) = none ∧ record.readMembers members draft = .ok final) ∨
      ∃ field next, record.fields.find? (·.name = name) = some field ∧
        field.read datum draft = .ok next ∧ record.readMembers members next = .ok final := by
  rw [Record.readMembers] at h
  split at h
  · next hnone => exact Or.inl ⟨hnone, h⟩
  · next field hfield =>
    split at h
    · cases h
    · next next hread => exact Or.inr ⟨field, next, hfield, hread, h⟩

/-- What each field keeps that a member is read into, all of them keep. -/
theorem readMembers_preserves {P : σ → Prop}
    (hfields : ∀ field ∈ record.fields, ∀ member ∈ members, ∀ draft next,
      field.read member.2 draft = .ok next → P draft → P next)
    (h : record.readMembers members draft = .ok final) (hdraft : P draft) : P final := by
  induction members generalizing draft with
  | nil =>
    cases h
    exact hdraft
  | cons member members ih =>
    have hothers : ∀ field ∈ record.fields, ∀ member ∈ members, ∀ draft next,
        field.read member.2 draft = .ok next → P draft → P next :=
      fun field hfield other hmem => hfields field hfield other (List.mem_cons_of_mem _ hmem)
    rcases readMembers_cons h with ⟨-, hrest⟩ | ⟨field, next, hfield, hread, hrest⟩
    · exact ih hothers hrest hdraft
    · have hmem := List.mem_of_find?_eq_some hfield
      exact ih hothers hrest (hfields field hmem member List.mem_cons_self draft next hread hdraft)

theorem readMembers_keeps (part : σ → α)
    (hfields : ∀ field ∈ record.fields, ∀ datum draft next, field.read datum draft = .ok next →
      part next = part draft)
    (h : record.readMembers members draft = .ok final) : part final = part draft := by
  refine readMembers_preserves (P := fun state => part state = part draft) ?_ h rfl
  intro field hmem member _ state next hread hstate
  rw [hfields field hmem member.2 state next hread, hstate]

/-- What each field keeps that an item is read into, all of them keep. -/
theorem readItems_preserves {P : σ → Prop} {fields : List (Field σ)} {items : List Datum} {left : Nat}
    (hfields : ∀ field ∈ fields, ∀ item ∈ items, ∀ draft next, field.read item draft = .ok next →
      P draft → P next)
    (h : readItems fields items draft = .ok (final, left)) (hdraft : P draft) : P final := by
  induction fields generalizing items draft with
  | nil =>
    cases h
    exact hdraft
  | cons field fields ih =>
    cases items with
    | nil =>
      cases h
      exact hdraft
    | cons item items =>
      rw [readItems] at h
      split at h
      · cases h
      · next next hread =>
        refine ih (fun other hother item hmem => ?_) h
          (hfields field List.mem_cons_self item List.mem_cons_self draft next hread hdraft)
        exact hfields other (List.mem_cons_of_mem _ hother) item (List.mem_cons_of_mem _ hmem)

/-- What a record may be read from: the values of members, or items. -/
def parts : Datum → List Datum
  | map members => members.map (·.2)
  | sequence items => items
  | _ => []

/-- What each field keeps that a part is read into, reading the record keeps. -/
theorem read_preserves {P : σ → Prop} {datum : Datum}
    (hfields : ∀ field ∈ record.fields, ∀ part ∈ datum.parts, ∀ draft next,
      field.read part draft = .ok next → P draft → P next)
    (h : record.read draft datum = .ok final) (hdraft : P draft) : P final := by
  cases datum with
  | map members =>
    refine readMembers_preserves (fun field hfield member hmem => ?_) h hdraft
    exact hfields field hfield member.2 (List.mem_map.2 ⟨member, hmem, rfl⟩)
  | sequence items =>
    rw [Record.read] at h
    split at h
    · cases h
    · next hitems =>
      cases h
      exact readItems_preserves hfields hitems hdraft
    · cases h
  | _ => cases h

theorem Tracks.told {name : String} {decode : Datum → Except Mismatch α} {part : σ → α}
    (htracks : Tracks record name decode part) (hdistinct : (members.map (·.1)).Nodup)
    (h : record.readMembers members draft = .ok final) :
    Told decode (Entries.get? name members) (part draft) (part final) := by
  induction members generalizing draft with
  | nil =>
    cases h
    rfl
  | cons member members ih =>
    obtain ⟨key, datum⟩ := member
    rw [List.map_cons, List.nodup_cons] at hdistinct
    rw [Entries.get?_cons]
    rcases readMembers_cons h with ⟨hnone, hrest⟩ | ⟨field, next, hfield, hread, hrest⟩
    · have hkey : key ≠ name := by
        rintro rfl
        obtain ⟨field, hmem, hname⟩ := htracks.known
        simpa [hname] using List.find?_eq_none.1 hnone field hmem
      rw [if_neg hkey]
      exact ih hdistinct.2 hrest
    · have hname : field.name = key := by simpa using List.find?_some hfield
      have hstep := htracks.read field (List.mem_of_find?_eq_some hfield) datum draft next hread
      have hothers := ih hdistinct.2 hrest
      rw [hname] at hstep
      split
      · next hkey =>
        subst hkey
        have hnone : Entries.get? key members = none :=
          Option.not_isSome_iff_eq_none.1 fun hsome =>
            hdistinct.1 (Entries.mem_map_fst_iff.2 hsome)
        rw [if_pos rfl] at hstep
        rw [hnone] at hothers
        exact hstep.trans (congrArg Except.ok hothers.symm)
      · next hkey =>
        rw [if_neg hkey] at hstep
        rwa [hstep] at hothers

theorem exists_readMembers
    (h : ∀ member ∈ members, ∀ field ∈ record.fields, field.name = member.1 →
      ∀ draft, ∃ next, field.read member.2 draft = .ok next) (draft : σ) :
    ∃ final, record.readMembers members draft = .ok final := by
  induction members generalizing draft with
  | nil => exact ⟨draft, rfl⟩
  | cons member members ih =>
    obtain ⟨hfirst, hothers⟩ := List.forall_mem_cons.1 h
    rw [Record.readMembers]
    split
    · exact ih hothers draft
    · next field hfield =>
      have hname : field.name = member.1 := by simpa using List.find?_some hfield
      obtain ⟨next, hread⟩ := hfirst field (List.mem_of_find?_eq_some hfield) hname draft
      rw [hread]
      exact ih hothers next

/-- Only the members that the record has fields for need to be readable. -/
theorem exists_readMembers_of_get? (hascending : Entries.Ascending members)
    (h : ∀ field ∈ record.fields, ∀ datum, Entries.get? field.name members = some datum →
      ∀ draft, ∃ next, field.read datum draft = .ok next) (draft : σ) :
    ∃ final, record.readMembers members draft = .ok final := by
  refine exists_readMembers (fun member hmem field hfield hname => ?_) draft
  exact h field hfield member.2 (hname ▸ Entries.get?_of_mem hascending hmem)

end StatQuery.Datum
