import StatQuery.Json.Basic
import StatQuery.Proofs.Dict
import StatQuery.Proofs.Json.Number
import StatQuery.Proofs.Json.Text

/-!
# Texts of JSON values

`Json.WrittenAs` is the grammar that the protocol's texts follow: a value may be written with any
blanks between its tokens and any escapes in its strings, and the members of an object in any order.
The values in it are trees as written, so an object lists its members as they stand in the text;
`Json.ordered` is the tree that is meant. Numbers with a fraction are left out, and integers fit 64
bits.
-/

namespace StatQuery.Json

open Reader

/-! ### The grammar -/

/-- The integers that are read without loss. -/
def Fits (n : Int) : Prop := -(twoTo 63 : Int) ≤ n ∧ n < twoTo 64

/-- What stands before an item or a member: blanks, and a comma among them unless it is the first. -/
def Separates (first : Bool) (text : List UInt8) : Prop :=
  if first then Blanks text
  else ∃ before behind, Blanks before ∧ Blanks behind ∧ text = before ++ 0x2C :: behind

mutual

/-- The text is one of those of the value, without blanks around it. -/
def WrittenAs : Json → List UInt8 → Prop
  | null, text => text = [0x6E, 0x75, 0x6C, 0x6C]
  | boolean true, text => text = [0x74, 0x72, 0x75, 0x65]
  | boolean false, text => text = [0x66, 0x61, 0x6C, 0x73, 0x65]
  | integer n, text => Fits n ∧ text = decimalInt n
  | float _, _ => False
  | string s, text => StringWritten s text
  | array items, text => ∃ body, ItemsWritten items true body ∧ text = 0x5B :: (body ++ [0x5D])
  | object members, text =>
    ∃ body, MembersWritten members true body ∧ text = 0x7B :: (body ++ [0x7D])

/-- The text lists the items, up to the closing bracket; `first` tells that no item precedes it. -/
def ItemsWritten : List Json → (first : Bool) → List UInt8 → Prop
  | [], _, body => Blanks body
  | item :: rest, first, body => ∃ separator text more, Separates first separator ∧
      item.WrittenAs text ∧ ItemsWritten rest false more ∧ body = separator ++ (text ++ more)

/-- The text lists the members, up to the closing brace; `first` tells that no member precedes it. -/
def MembersWritten : List (String × Json) → (first : Bool) → List UInt8 → Prop
  | [], _, body => Blanks body
  | (name, value) :: rest, first, body => ∃ separator nameText before behind text more,
      Separates first separator ∧ StringWritten name nameText ∧ Blanks before ∧ Blanks behind ∧
      value.WrittenAs text ∧ MembersWritten rest false more ∧
      body = separator ++ (nameText ++ (before ++ (0x3A :: (behind ++ (text ++ more)))))

end

/-- The text lists members by their names and the texts of their values, up to the closing brace;
`first` tells that no member precedes it. -/
def MembersText : List (String × List UInt8) → (first : Bool) → List UInt8 → Prop
  | [], _, body => Blanks body
  | (name, text) :: rest, first, body => ∃ separator nameText before behind more,
      Separates first separator ∧ StringWritten name nameText ∧ Blanks before ∧ Blanks behind ∧
      MembersText rest false more ∧
      body = separator ++ (nameText ++ (before ++ (0x3A :: (behind ++ (text ++ more)))))

mutual

/-- The tree with the members of every object in key order, of which the last of a name counts. -/
def ordered : Json → Json
  | array items => array (orderedItems items)
  | object members => object (Entries.ofList (orderedMembers members))
  | value => value

/-- The items in order within themselves. -/
def orderedItems : List Json → List Json
  | [] => []
  | item :: rest => item.ordered :: orderedItems rest

/-- The members, as they stand, with ordered values. -/
def orderedMembers : List (String × Json) → List (String × Json)
  | [] => []
  | (name, value) :: rest => (name, value.ordered) :: orderedMembers rest

end

/-! ### Canonical trees are in order already -/

mutual

theorem ordered_of_canonical : (value : Json) → value.Canonical → value.ordered = value
  | null, _ | boolean _, _ | integer _, _ | float _, _ | string _, _ => rfl
  | array items, h => congrArg array (orderedItems_of_canonical items h)
  | object members, h => by
    rw [ordered, orderedMembers_of_canonical members h.2, Entries.ofList_of_ascending h.1]

theorem orderedItems_of_canonical :
    (items : List Json) → CanonicalItems items → orderedItems items = items
  | [], _ => rfl
  | item :: rest, h => by
    rw [orderedItems, ordered_of_canonical item h.1, orderedItems_of_canonical rest h.2]

theorem orderedMembers_of_canonical :
    (members : List (String × Json)) → CanonicalMembers members → orderedMembers members = members
  | [], _ => rfl
  | (_, value) :: rest, h => by
    rw [orderedMembers, ordered_of_canonical value h.1, orderedMembers_of_canonical rest h.2]

end

/-! ### How texts begin -/

/-- The first byte of a text of a value: no blank and no closing bracket, and an `n` for `null`
alone. -/
theorem WrittenAs.exists_cons {value : Json} {text : List UInt8} (h : value.WrittenAs text) :
    ∃ b tail, text = b :: tail ∧ isBlank b = false ∧ b ≠ 0x5D ∧ (b = 0x6E → value = null) := by
  cases value with
  | null =>
    obtain rfl : text = _ := h
    exact ⟨_, _, rfl, by decide, by decide, fun _ => rfl⟩
  | boolean b =>
    cases b <;> obtain rfl : text = _ := h <;> exact ⟨_, _, rfl, by decide, by decide, by decide⟩
  | integer n =>
    obtain ⟨-, rfl⟩ := h
    cases n with
    | ofNat n =>
      obtain ⟨b, tail, hcons, -⟩ := exists_decimal_eq_cons n
      have hdigit := isDigit_of_mem_decimal n b (by simp [hcons])
      refine ⟨b, tail, hcons, ?_, ?_, ?_⟩
      · exact isBlank_eq_false_of_isDigit hdigit
      · rintro rfl
        exact absurd hdigit (by decide)
      · rintro rfl
        exact absurd hdigit (by decide)
    | negSucc n => exact ⟨_, _, decimalInt_negSucc n, by decide, by decide, fun hb => absurd hb (by decide)⟩
  | float x => exact h.elim
  | string s =>
    obtain ⟨content, -, rfl⟩ := h
    exact ⟨_, _, rfl, by decide, by decide, fun hb => absurd hb (by decide)⟩
  | array items =>
    obtain ⟨body, -, rfl⟩ := h
    exact ⟨_, _, rfl, by decide, by decide, fun hb => absurd hb (by decide)⟩
  | object members =>
    obtain ⟨body, -, rfl⟩ := h
    exact ⟨_, _, rfl, by decide, by decide, fun hb => absurd hb (by decide)⟩

theorem Separates.delimited {separator : List UInt8} (h : Separates false separator)
    (rest : List UInt8) : Delimited (separator ++ rest) := by
  obtain ⟨before, behind, hbefore, -, rfl⟩ : ∃ before behind, _ := h
  rw [List.append_assoc, List.cons_append]
  exact Delimited.blanks_append hbefore (delimited_cons _ (by decide))

theorem ItemsWritten.delimited {items : List Json} {body : List UInt8}
    (h : ItemsWritten items false body) (rest : List UInt8) : Delimited (body ++ 0x5D :: rest) := by
  cases items with
  | nil => exact Delimited.blanks_append h (delimited_cons _ (by decide))
  | cons item items =>
    obtain ⟨separator, text, more, hseparator, -, -, rfl⟩ := h
    rw [List.append_assoc]
    exact hseparator.delimited _

theorem MembersText.cons {members : List (String × List UInt8)} {first : Bool} {name : String}
    {separator nameText before behind text more : List UInt8} (hseparator : Separates first separator)
    (hname : StringWritten name nameText) (hbefore : Blanks before) (hbehind : Blanks behind)
    (hmore : MembersText members false more) :
    MembersText ((name, text) :: members) first
      (separator ++ (nameText ++ (before ++ (0x3A :: (behind ++ (text ++ more)))))) :=
  ⟨separator, nameText, before, behind, more, hseparator, hname, hbefore, hbehind, hmore, rfl⟩

theorem MembersText.delimited {members : List (String × List UInt8)} {body : List UInt8}
    (h : MembersText members false body) (rest : List UInt8) : Delimited (body ++ 0x7D :: rest) := by
  cases members with
  | nil => exact Delimited.blanks_append h (delimited_cons _ (by decide))
  | cons member members =>
    obtain ⟨separator, nameText, before, behind, more, hseparator, -, -, -, -, rfl⟩ := h
    rw [List.append_assoc]
    exact hseparator.delimited _

/-- Every item takes a byte, which keeps the steps of the reader's loop from running out. -/
theorem ItemsWritten.length_le {items : List Json} {first : Bool} {body : List UInt8}
    (h : ItemsWritten items first body) : items.length ≤ body.length := by
  induction items generalizing first body with
  | nil => exact Nat.zero_le _
  | cons item items ih =>
    obtain ⟨separator, text, more, -, htext, hmore, rfl⟩ := h
    obtain ⟨b, tail, rfl, -⟩ := htext.exists_cons
    have := ih hmore
    simp only [List.length_append, List.length_cons]
    omega

/-- Every member takes a byte or more, so a loop bounded by the length of the text reaches the last. -/
theorem MembersText.length_le {members : List (String × List UInt8)} {first : Bool}
    {body : List UInt8} (h : MembersText members first body) : members.length ≤ body.length := by
  induction members generalizing first body with
  | nil => exact Nat.zero_le _
  | cons member members ih =>
    obtain ⟨separator, nameText, before, behind, more, -, -, -, -, hmore, rfl⟩ := h
    have := ih hmore
    simp only [List.length_append, List.length_cons]
    omega

theorem MembersText.length_lt {members : List (String × List UInt8)} {first : Bool}
    {body : List UInt8} (h : MembersText members first body) (rest : List UInt8) :
    members.length < (body ++ rest).length + 1 := by
  have := h.length_le
  rw [List.length_append]
  omega

end StatQuery.Json
