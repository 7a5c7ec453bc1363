import StatQuery.Proofs.Json.Reading

/-!
# The readers of values

What each reader of the protocol makes of a written value: whole trees (`valueWithin_reads`), and the
typed readers that records have for their fields.
-/

namespace StatQuery.Json.Reader

variable {α : Type}

/-! ### Whole trees -/

theorem valueWith_digit {nested : Option (Reader Json)} {b : UInt8} (rest : List UInt8)
    (p : Position) (hb : isDigit b = true) :
    ∀ blanks, Blanks blanks → valueWith nested ⟨blanks ++ b :: rest, p⟩ =
      (do return numeral (← number false)) ⟨b :: rest, p.afterAll blanks⟩ := by
  intro blanks hblanks
  rw [valueWith.eq_def,
    bind_of_ok (peekValue_cons rest p hblanks (isBlank_eq_false_of_isDigit hb))]
  split
  all_goals first
    | exact absurd hb (by decide)
    | rw [if_pos hb]

theorem valueWith_integer {nested : Option (Reader Json)} (n : Int) :
    (valueWith nested).Reads (integer n) (integer n) := by
  intro text htext blanks rest p hblanks hrest
  obtain ⟨hfits, rfl⟩ := htext
  cases n with
  | ofNat n =>
    have hbound : n < twoTo 64 := Int.ofNat_lt.1 hfits.2
    have hread := number_natural (p.afterAll blanks) hbound hrest
    obtain ⟨b, tail, hcons, -⟩ := exists_decimal_eq_cons n
    have hb : isDigit b = true := isDigit_of_mem_decimal n b (by simp [hcons])
    rw [decimalInt_ofNat, Position.afterAll_append]
    rw [hcons] at hread ⊢
    rw [List.cons_append] at hread ⊢
    rw [valueWith_digit _ p hb blanks hblanks, bind_of_ok hread]
    rfl
  | negSucc n =>
    have hbound : n + 1 ≤ twoTo 63 := by
      have := hfits.1
      omega
    rw [decimalInt_negSucc]
    refine takes_peekValue (by decide) ?_ blanks rest p hblanks hrest
    intro rest p hrest
    change (advance >>= fun _ => number true >>= fun n => pure (numeral n)) _ = _
    rw [bind_of_ok (advance_cons _ _ p), bind_of_ok (number_negative _ hbound hrest)]
    rfl

theorem valueWith_array {value : Reader Json} {items xs : List Json}
    (h : List.Forall₂ value.Reads items xs) :
    (valueWith (some value)).Reads (array items) (array xs) := by
  rintro text ⟨body, hbody, rfl⟩
  refine takes_peekValue (by decide) fun rest p _ => ?_
  change (advance >>= fun _ => Reader.items value >>= fun xs => pure (array xs)) _ = _
  rw [List.append_assoc, List.singleton_append, bind_of_ok (advance_cons _ _ p),
    bind_of_ok (items_written h hbody rest _)]
  rfl

theorem valueWith_object {value : Reader Json} {members entries : List (String × Json)}
    (h : List.Forall₂ value.ReadsEntry members entries) :
    (valueWith (some value)).Reads (object members) (object (Entries.ofList entries)) := by
  rintro text ⟨body, hbody, rfl⟩
  have hdict : ofDict (entries.foldl (fun dict entry => dict.insert entry.1 entry.2) Dict.empty) =
      object (Entries.ofList entries) :=
    congrArg object (Dict.entries_foldl_insert Dict.empty entries)
  refine takes_peekValue (by decide) fun rest p _ => ?_
  change (advance >>= fun _ => Reader.members value >>= fun dict => pure (ofDict dict)) _ = _
  rw [List.append_assoc, List.singleton_append, bind_of_ok (advance_cons _ _ p),
    bind_of_ok (members_written h hbody rest _), hdict]
  rfl

theorem valueWith_string {nested : Option (Reader Json)} (s : String) :
    (valueWith nested).Reads (string s) (string s) := by
  rintro text ⟨content, hcontent, rfl⟩
  refine takes_peekValue (by decide) fun rest p _ => ?_
  change (advance >>= fun _ => stringBody >>= fun s => pure (string s)) _ = _
  rw [List.append_assoc, List.singleton_append, bind_of_ok (advance_cons _ _ p),
    bind_of_ok (stringBody_written hcontent rest _)]
  rfl

theorem valueWith_null {nested : Option (Reader Json)} : (valueWith nested).Reads null null := by
  intro text htext
  obtain rfl : text = _ := htext
  exact takes_peekValue (by decide) fun rest p _ => rfl

theorem valueWith_boolean {nested : Option (Reader Json)} (b : Bool) :
    (valueWith nested).Reads (boolean b) (boolean b) := by
  intro text htext
  cases b <;> obtain rfl : text = _ := htext <;>
    exact takes_peekValue (by decide) fun rest p _ => rfl

theorem forall₂_reads {reader : Reader Json} {depth : Nat}
    (h : ∀ value : Json, value.depth ≤ depth → reader.Reads value value.ordered) :
    (items : List Json) → depthItems items ≤ depth →
      List.Forall₂ reader.Reads items (orderedItems items)
  | [], _ => .nil
  | item :: rest, hdepth =>
    have hparts := Nat.max_le.1 hdepth
    .cons (h item hparts.1) (forall₂_reads h rest hparts.2)

theorem forall₂_readsEntry {reader : Reader Json} {depth : Nat}
    (h : ∀ value : Json, value.depth ≤ depth → reader.Reads value value.ordered) :
    (members : List (String × Json)) → depthMembers members ≤ depth →
      List.Forall₂ reader.ReadsEntry members (orderedMembers members)
  | [], _ => .nil
  | (_, value) :: rest, hdepth =>
    have hparts := Nat.max_le.1 hdepth
    .cons ⟨rfl, h value hparts.1⟩ (forall₂_readsEntry h rest hparts.2)

/-- A value that nests no deeper than is allowed is read in order from each of its texts. -/
theorem valueWithin_reads {depth : Nat} {value : Json} (h : value.depth ≤ depth) :
    (valueWithin depth).Reads value value.ordered := by
  induction depth generalizing value with
  | zero =>
    cases value with
    | null => exact valueWith_null
    | boolean b => exact valueWith_boolean b
    | integer n => exact valueWith_integer n
    | float x => exact fun _ htext => htext.elim
    | string s => exact valueWith_string s
    | array items => exact absurd h (Nat.not_succ_le_zero _)
    | object members => exact absurd h (Nat.not_succ_le_zero _)
  | succ depth ih =>
    cases value with
    | null => exact valueWith_null
    | boolean b => exact valueWith_boolean b
    | integer n => exact valueWith_integer n
    | float x => exact fun _ htext => htext.elim
    | string s => exact valueWith_string s
    | array items =>
      exact valueWith_array (forall₂_reads (fun _ => ih) items (Nat.le_of_succ_le_succ h))
    | object members =>
      exact valueWith_object (forall₂_readsEntry (fun _ => ih) members (Nat.le_of_succ_le_succ h))

/-! ### Typed fields -/

theorem text_reads (s : String) : Reader.text.Reads (string s) s := by
  rintro text ⟨content, hcontent, rfl⟩
  refine takes_peekValue (by decide) fun rest p _ => ?_
  change (advance >>= fun _ => stringBody) _ = _
  rw [List.append_assoc, List.singleton_append, bind_of_ok (advance_cons _ _ p),
    stringBody_written hcontent rest _]
  rfl

theorem flag_reads (b : Bool) : flag.Reads (boolean b) b := by
  intro text htext
  cases b <;> obtain rfl : text = _ := htext <;>
    exact takes_peekValue (by decide) fun rest p _ => rfl

theorem unsigned_reads (n : Nat) : unsigned.Reads (natural n) n.toUInt64 := by
  intro text htext blanks rest p hblanks hrest
  obtain ⟨hfits, rfl⟩ := htext
  have hbound : n < twoTo 64 := Int.ofNat_lt.1 hfits.2
  have hread := number_natural (p.afterAll blanks) hbound hrest
  obtain ⟨b, tail, hcons, -⟩ := exists_decimal_eq_cons n
  have hb : isDigit b = true := isDigit_of_mem_decimal n b (by simp [hcons])
  rw [show ((n : Nat) : Int) = Int.ofNat n from rfl, decimalInt_ofNat, Position.afterAll_append]
  rw [hcons] at hread ⊢
  rw [List.cons_append] at hread ⊢
  rw [unsigned, bind_of_ok (peekValue_cons _ p hblanks (isBlank_eq_false_of_isDigit hb))]
  split
  · exact absurd hb (by decide)
  · rw [if_pos hb, bind_of_ok hread]
    rfl

theorem optional_reads {reader : Reader α} {value : Json} {x : α} (h : reader.Reads value x)
    (hnull : value ≠ null) : reader.optional.Reads value (some x) := by
  intro text htext
  obtain ⟨b, tail, rfl, hblank, -, hb⟩ := htext.exists_cons
  refine takes_peekPastBlanks hblank fun rest p hrest => ?_
  have hread := h _ htext [] rest p Blanks.nil hrest
  simp only [List.nil_append, List.cons_append] at hread
  generalize hhead : some b = head
  split
  · cases hhead
    exact absurd (hb rfl) hnull
  · rw [bind_of_ok hread]
    rfl

theorem dict_reads {reader : Reader α} {members : List (String × Json)}
    {entries : List (String × α)} (h : List.Forall₂ reader.ReadsEntry members entries) :
    reader.dict.Reads (object members)
      (entries.foldl (fun dict entry => dict.insert entry.1 entry.2) Dict.empty) := by
  rintro text ⟨body, hbody, rfl⟩
  refine takes_peekValue (by decide) fun rest p _ => ?_
  change (advance >>= fun _ => Reader.members reader) _ = _
  rw [List.append_assoc, List.singleton_append, bind_of_ok (advance_cons _ _ p),
    members_written h hbody rest _]
  rfl

end StatQuery.Json.Reader
