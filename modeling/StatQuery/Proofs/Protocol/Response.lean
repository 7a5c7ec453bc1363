import StatQuery.Proofs.Json.Record
import StatQuery.Proofs.Json.Writer
import StatQuery.Protocol.Response

/-!
# Replies on the wire

A reply whose data is in canonical form, has no floats and nests no deeper than the reader allows is
read back from each of its texts (`decode_written`), the frame and the pretty text among them
(`decode_encode_and_prettyText`).
-/

namespace StatQuery.Response

open Json Json.Reader

/-- The values of the data have ordered members and integers of 64 bits. -/
def Canonical (r : Response) : Prop := ∀ data, r.data = some data → CanonicalMembers data.entries

/-! ### Fields -/

/-- A member that is left out or read, as its value is absent or present. -/
theorem folds_optionalMember {β σ α : Type} (record : Record σ α) (name : String) {field : Json.Field σ}
    (next : Option β → σ) (toJson : β → Json) {x : Option β}
    (hfield : record.fields.find? (·.name = name) = some field)
    (hnew : field.isPresent (next none) = false)
    (hsome : ∀ b, x = some b → (field.read (next none)).Reads (toJson b) (next (some b))) :
    Folds record.readMember (next none) (optionalMember name (x.map toJson)) (next x) := by
  cases x with
  | none => exact .nil (next none)
  | some b => exact .cons (Record.readMember_reads hfield hnew (hsome b rfl)) (.nil _)

/-- A map of texts is read back from the object that shows it. -/
theorem dict_text_reads (errors : Dict String) :
    Reader.text.dict.Reads (.ofDict (errors.map .string)) errors := by
  have hentries : List.Forall₂ Reader.text.ReadsEntry
      (errors.entries.map fun entry => (entry.1, string entry.2)) errors.entries := by
    induction errors.entries with
    | nil => exact .nil
    | cons entry rest ih => exact .cons ⟨rfl, text_reads entry.2⟩ ih
  have hread := dict_reads hentries
  rwa [Dict.foldl_insert_entries] at hread

/-- A map of values is read back from the object that shows it. -/
theorem dict_value_reads {data : Dict Json} (h : CanonicalMembers data.entries) {depth : Nat}
    (hdepth : depthMembers data.entries ≤ depth) :
    (valueWithin depth).dict.Reads (.ofDict data) data := by
  have hentries := forall₂_readsEntry (fun _ => valueWithin_reads) data.entries hdepth
  rw [orderedMembers_of_canonical data.entries h] at hentries
  have hread := dict_reads hentries
  rwa [Dict.foldl_insert_entries] at hread

/-! ### Whole replies -/

theorem depth_data_le {r : Response} (hdepth : r.toJson.depth ≤ maxDepth) {data : Dict Json}
    (hdata : r.data = some data) : depthMembers data.entries ≤ maxDepth - 2 := by
  have hmembers : depthMembers r.members + 1 ≤ maxDepth := hdepth
  have hle : depthMembers data.entries + 1 ≤ depthMembers r.members := by
    rw [members, hdata]
    exact Nat.le_trans (Nat.le_max_left _ _) (Nat.le_max_right _ _)
  omega

/-- The members of a reply fill a draft with all that it has. -/
theorem folds_members {r : Response} (h : r.Canonical) (hdepth : r.toJson.depth ≤ maxDepth) :
    Folds record.readMember record.draft r.members
      ⟨some r.ok, r.data.map some, r.errors.map some, r.error.map some, r.detail.map some⟩ := by
  have hok : (record.readMember "ok" record.draft).ReadsMember (.boolean r.ok)
      ⟨some r.ok, none, none, none, none⟩ :=
    Record.readMember_reads (by rfl) (by rfl) ((flag_reads r.ok).bind_pure _)
  have hdata := folds_optionalMember record "data"
    (fun x : Option (Dict Json) => ⟨some r.ok, x.map some, none, none, none⟩) .ofDict
    (by rfl) (by rfl) fun data hdata =>
      (optional_reads (dict_value_reads (h data hdata) (depth_data_le hdepth hdata)) nofun).bind_pure _
  have herrors := folds_optionalMember record "errors"
    (fun x : Option (Dict String) => ⟨some r.ok, r.data.map some, x.map some, none, none⟩)
    (fun errors => .ofDict (errors.map .string)) (x := r.errors) (by rfl) (by rfl) fun errors _ =>
      (optional_reads (dict_text_reads errors) nofun).bind_pure _
  have herror := folds_optionalMember record "error"
    (fun x : Option String => ⟨some r.ok, r.data.map some, r.errors.map some, x.map some, none⟩)
    .string (x := r.error) (by rfl) (by rfl) fun error _ =>
      (optional_reads (text_reads error) nofun).bind_pure _
  have hdetail := folds_optionalMember record "detail"
    (fun x : Option String =>
      ⟨some r.ok, r.data.map some, r.errors.map some, r.error.map some, x.map some⟩)
    .string (x := r.detail) (by rfl) (by rfl) fun detail _ =>
      (optional_reads (text_reads detail) nofun).bind_pure _
  exact .cons hok (((hdata.append herrors).append herror).append hdetail)

/-- A reply is read back from each of its texts. -/
theorem decode_written {r : Response} (h : r.Canonical) (hdepth : r.toJson.depth ≤ maxDepth)
    {before text behind : List UInt8} (hbefore : Blanks before) (hbehind : Blanks behind)
    (htext : r.toJson.WrittenAs text) : decode (before ++ (text ++ behind)) = .ok r := by
  have hread := Record.read_written (folds_members h hdepth) (by rfl)
  rw [decode, run_of_takes (hread text htext) hbefore hbehind]
  obtain ⟨ok, data, errors, error, detail⟩ := r
  cases data <;> cases errors <;> cases error <;> cases detail <;> rfl

theorem floatFree_data {r : Response} (h : r.toJson.FloatFree) {data : Dict Json}
    (hdata : r.data = some data) : FloatFreeMembers data.entries := by
  rw [toJson, members, hdata] at h
  exact h.2.1

theorem exact_optionalMember {name : String} {value : Option Json}
    (h : ∀ v, value = some v → v.Exact) : ExactMembers (optionalMember name value) := by
  cases value with
  | none => trivial
  | some v => exact ⟨h v rfl, trivial⟩

theorem exactMembers_append {xs ys : List (String × Json)} (hx : ExactMembers xs)
    (hy : ExactMembers ys) : ExactMembers (xs ++ ys) := by
  induction xs with
  | nil => exact hy
  | cons x xs ih => exact ⟨hx.1, ih hx.2⟩

theorem exact_texts (entries : List (String × String)) :
    ExactMembers (entries.map fun entry => (entry.1, string entry.2)) := by
  induction entries with
  | nil => trivial
  | cons entry rest ih => exact ⟨trivial, ih⟩

theorem exact_toJson {r : Response} (h : r.Canonical) (hfloat : r.toJson.FloatFree) :
    r.toJson.Exact := by
  have hdata : ∀ v, r.data.map Json.ofDict = some v → v.Exact := by
    intro v hv
    obtain ⟨data, hdata, rfl⟩ := Option.map_eq_some_iff.1 hv
    exact exactMembers_of_canonical data.entries (h data hdata) (floatFree_data hfloat hdata)
  have herrors : ∀ v, (r.errors.map fun errors => ofDict (errors.map .string)) = some v →
      v.Exact := by
    intro v hv
    obtain ⟨errors, -, rfl⟩ := Option.map_eq_some_iff.1 hv
    exact exact_texts errors.entries
  have htext : ∀ (x : Option String) v, x.map string = some v → v.Exact := by
    intro x v hv
    obtain ⟨s, -, rfl⟩ := Option.map_eq_some_iff.1 hv
    trivial
  exact ⟨trivial, exactMembers_append (exactMembers_append (exactMembers_append
    (exact_optionalMember hdata) (exact_optionalMember herrors))
    (exact_optionalMember (htext r.error))) (exact_optionalMember (htext r.detail))⟩

/-- A reply is read back from its text on one line, and from the text with blanks behind it. -/
theorem decode_text {r : Response} (h : r.Canonical) (hfloat : r.toJson.FloatFree)
    (hdepth : r.toJson.depth ≤ maxDepth) {behind : List UInt8} (hbehind : Blanks behind) :
    decode (Utf8.encode r.text ++ behind) = .ok r := by
  have hwritten : r.toJson.WrittenAs (Utf8.encode r.text) := by
    rw [text, compact, Utf8.encode, String.toList_ofList]
    exact compactChars_written _ (exact_toJson h hfloat)
  have hdecode := decode_written h hdepth Blanks.nil hbehind hwritten
  rwa [List.nil_append] at hdecode

/-- A reply is read back from its text on many lines, and from the text with blanks behind it. -/
theorem decode_prettyText {r : Response} (h : r.Canonical) (hfloat : r.toJson.FloatFree)
    (hdepth : r.toJson.depth ≤ maxDepth) {behind : List UInt8} (hbehind : Blanks behind) :
    decode (Utf8.encode r.prettyText ++ behind) = .ok r := by
  have hwritten : r.toJson.WrittenAs (Utf8.encode r.prettyText) := by
    rw [prettyText, pretty, Utf8.encode, String.toList_ofList]
    exact prettyChars_written 0 _ (exact_toJson h hfloat)
  have hdecode := decode_written h hdepth Blanks.nil hbehind hwritten
  rwa [List.nil_append] at hdecode

theorem decode_encode_of_canonical {r : Response} (h : r.Canonical) (hfloat : r.toJson.FloatFree)
    (hdepth : r.toJson.depth ≤ maxDepth) : decode r.encode = .ok r := by
  have hread := decode_text h hfloat hdepth Blanks.nil
  rwa [List.append_nil] at hread

/-- Reading undoes writing, on one line or on many, so that no two replies have the same frame. -/
theorem decode_encode_and_prettyText (r : Response) (h : r.Canonical) (hfloat : r.toJson.FloatFree)
    (hdepth : r.toJson.depth ≤ maxDepth) :
    decode r.encode = .ok r ∧ decode (Utf8.encode r.prettyText) = .ok r ∧
      ∀ other : Response, other.Canonical → other.toJson.FloatFree →
        other.toJson.depth ≤ maxDepth → other.encode = r.encode → other = r := by
  have hread : decode r.encode = .ok r := decode_encode_of_canonical h hfloat hdepth
  have hpretty := decode_prettyText h hfloat hdepth Blanks.nil
  rw [List.append_nil] at hpretty
  refine ⟨hread, hpretty, ?_⟩
  intro other h' hfloat' hdepth' heq
  have hother : decode other.encode = .ok other :=
    decode_encode_of_canonical h' hfloat' hdepth'
  rw [heq, hread] at hother
  exact (Except.ok.inj hother).symm

/-- A failure with data, with notes that are empty, and with a detail that needs escapes. -/
def unusual : Response where
  ok := false
  data := some (Dict.empty.insert ""
    (.array [.integer (-9223372036854775808), .integer 18446744073709551615, .object []]))
  errors := some .empty
  error := none
  detail := some "\"\\\n😀"

/-- Members that are empty, integers at both bounds and escapes come back as they are. -/
theorem decode_encode_unusual :
    unusual.Canonical ∧ unusual.toJson.FloatFree ∧ unusual.toJson.depth ≤ maxDepth ∧
      decode unusual.encode = .ok unusual ∧ decode (Utf8.encode unusual.prettyText) = .ok unusual := by
  have hcanonical : unusual.Canonical := by
    intro data hdata
    cases hdata
    refine ⟨⟨?_, ?_, ⟨List.Pairwise.nil, trivial⟩, trivial⟩, trivial⟩ <;>
      simp only [Json.Canonical, twoTo_63, twoTo_64] <;> decide
  have hfloat : unusual.toJson.FloatFree := ⟨trivial, ⟨⟨trivial, trivial, trivial, trivial⟩, trivial⟩,
    trivial, trivial, trivial⟩
  have hdepth : unusual.toJson.depth ≤ maxDepth := by decide
  obtain ⟨hread, hpretty, -⟩ := decode_encode_and_prettyText unusual hcanonical hfloat hdepth
  exact ⟨hcanonical, hfloat, hdepth, hread, hpretty⟩

end StatQuery.Response
