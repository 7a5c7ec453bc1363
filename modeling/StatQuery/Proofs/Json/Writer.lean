import StatQuery.Json.Writer
import StatQuery.Proofs.Json.Written

/-!
# Both writers write the value

The compact and the pretty text of a value with exact numbers are texts of that value in the sense of
`Json.WrittenAs`. The two writers differ in the blanks that they put between tokens, and the grammar
allows both. The order of members does not matter here: records are written in the order of their
fields, and maps in key order.
-/

namespace StatQuery.Json

open Reader

mutual

/-- No number of the tree is a float. -/
def FloatFree : Json → Prop
  | float _ => False
  | array items => FloatFreeItems items
  | object members => FloatFreeMembers members
  | _ => True

/-- No item has a float. -/
def FloatFreeItems : List Json → Prop
  | [] => True
  | item :: rest => item.FloatFree ∧ FloatFreeItems rest

/-- No member's value has a float. -/
def FloatFreeMembers : List (String × Json) → Prop
  | [] => True
  | (_, value) :: rest => value.FloatFree ∧ FloatFreeMembers rest

end

mutual

/-- Every number of the tree is an integer that fits 64 bits; its members may stand in any order. -/
def Exact : Json → Prop
  | integer n => Fits n
  | float _ => False
  | array items => ExactItems items
  | object members => ExactMembers members
  | _ => True

/-- Every item is exact. -/
def ExactItems : List Json → Prop
  | [] => True
  | item :: rest => item.Exact ∧ ExactItems rest

/-- Every member's value is exact. -/
def ExactMembers : List (String × Json) → Prop
  | [] => True
  | (_, value) :: rest => value.Exact ∧ ExactMembers rest

end

mutual

theorem exact_of_canonical : (value : Json) → value.Canonical → value.FloatFree → value.Exact
  | null, _, _ | boolean _, _, _ | string _, _, _ => trivial
  | integer _, h, _ => h
  | float _, _, hfloat => hfloat
  | array items, h, hfloat => exactItems_of_canonical items h hfloat
  | object members, h, hfloat => exactMembers_of_canonical members h.2 hfloat

theorem exactItems_of_canonical :
    (items : List Json) → CanonicalItems items → FloatFreeItems items → ExactItems items
  | [], _, _ => trivial
  | item :: rest, h, hfloat =>
    ⟨exact_of_canonical item h.1 hfloat.1, exactItems_of_canonical rest h.2 hfloat.2⟩

theorem exactMembers_of_canonical : (members : List (String × Json)) → CanonicalMembers members →
    FloatFreeMembers members → ExactMembers members
  | [], _, _ => trivial
  | (_, value) :: rest, h, hfloat =>
    ⟨exact_of_canonical value h.1 hfloat.1, exactMembers_of_canonical rest h.2 hfloat.2⟩

end

/-! ### Strings -/

theorem controlEscape_code : ∀ n < 32, ∃ a b,
    Utf8.encodeChars ['\\', 'u', '0', '0', Nat.digitChar (n / 16), Nat.digitChar (n % 16)] =
      [0x5C, 0x75, 0x30, 0x30, a, b] ∧ hexWord? 0x30 0x30 a b = some n := by
  intro n hn
  refine ⟨(Nat.digitChar (n / 16)).toNat.toUInt8, (Nat.digitChar (n % 16)).toNat.toUInt8, ?_⟩
  revert n
  decide

theorem escape_written (c : Char) : CharWritten c (Utf8.encodeChars (escape c)) := by
  have short : ∀ b content : UInt8, plainEscape? b = some content →
      CharWritten (Char.ofNat content.toNat) [0x5C, b] := fun _ _ h => .short h
  unfold escape
  split
  · next h => subst h; exact short 0x22 0x22 rfl
  split
  · next h => subst h; exact short 0x5C 0x5C rfl
  split
  · next hquote hslash h =>
    rw [Utf8.encodeChars_cons, Utf8.encodeChars_nil, List.append_nil]
    exact .itself h hquote hslash
  split
  · next h => subst h; exact short 0x6E 10 rfl
  split
  · next h => subst h; exact short 0x74 9 rfl
  split
  · next h => subst h; exact short 0x72 13 rfl
  split
  · next h => subst h; exact short 0x62 8 rfl
  split
  · next h => subst h; exact short 0x66 12 rfl
  · next h _ _ _ _ _ =>
    have hcode : c.toNat < 32 := Nat.lt_of_not_le h
    obtain ⟨a, b, htext, hword⟩ := controlEscape_code c.toNat hcode
    have hc : Char.ofNat c.toNat = c := Char.ofNat_toNat c
    rw [controlEscape, htext]
    have hunit := CharWritten.unit hword (by omega)
    rwa [hc] at hunit

theorem chars_written (cs : List Char) : CharsWritten cs (Utf8.encodeChars (cs.flatMap escape)) := by
  induction cs with
  | nil => rfl
  | cons c cs ih =>
    rw [List.flatMap_cons, Utf8.encodeChars_append]
    exact ⟨_, _, escape_written c, ih, rfl⟩

/-- A quoted string is a text of the string. -/
theorem quoted_written (s : String) : StringWritten s (Utf8.encodeChars (quoted s)) := by
  refine ⟨_, chars_written s.toList, ?_⟩
  rw [quoted, Utf8.encodeChars_cons, Utf8.encodeChars_append]
  rfl

/-! ### Without blanks -/

theorem separates_nil : Separates true [] := Blanks.nil

theorem separates_comma : Separates false [0x2C] := ⟨[], [], Blanks.nil, Blanks.nil, rfl⟩

theorem scalar_written {value : Json} (h : value.Exact)
    (hitems : ∀ items, value ≠ array items) (hmembers : ∀ members, value ≠ object members) :
    value.WrittenAs (Utf8.encodeChars value.scalar) := by
  cases value with
  | null => rfl
  | boolean b => cases b <;> rfl
  | integer n => exact ⟨h, rfl⟩
  | float x => exact h.elim
  | string s => exact quoted_written s
  | array items => exact absurd rfl (hitems items)
  | object members => exact absurd rfl (hmembers members)

mutual

/-- The compact text of a value is one of its texts. -/
theorem compactChars_written : (value : Json) → value.Exact →
    value.WrittenAs (Utf8.encodeChars value.compactChars)
  | null, h | boolean _, h | integer _, h | float _, h | string _, h => scalar_written h nofun nofun
  | array items, h => by
    obtain ⟨body, hbody, htext⟩ := compactItems_written items h
    refine ⟨body, hbody, ?_⟩
    rw [compactChars, Utf8.encodeChars_cons, htext]
    rfl
  | object members, h => by
    obtain ⟨body, hbody, htext⟩ := compactMembers_written members h
    refine ⟨body, hbody, ?_⟩
    rw [compactChars, Utf8.encodeChars_cons, htext]
    rfl

theorem compactItems_written : (items : List Json) → ExactItems items →
    ∃ body, ItemsWritten items true body ∧
      Utf8.encodeChars (compactItems items) = body ++ [0x5D]
  | [], _ => ⟨[], Blanks.nil, rfl⟩
  | item :: rest, h => by
    have hitem := compactChars_written item h.1
    obtain ⟨more, hmore, htext⟩ := compactMoreItems_written rest h.2
    refine ⟨_, ⟨[], _, more, separates_nil, hitem, hmore, rfl⟩, ?_⟩
    rw [compactItems, Utf8.encodeChars_append, htext]
    simp only [List.nil_append, List.append_assoc]

theorem compactMoreItems_written :
    (items : List Json) → ExactItems items →
      ∃ body, ItemsWritten items false body ∧
        Utf8.encodeChars (compactMoreItems items) = body ++ [0x5D]
  | [], _ => ⟨[], Blanks.nil, rfl⟩
  | item :: rest, h => by
    have hitem := compactChars_written item h.1
    obtain ⟨more, hmore, htext⟩ := compactMoreItems_written rest h.2
    refine ⟨_, ⟨[0x2C], _, more, separates_comma, hitem, hmore, rfl⟩, ?_⟩
    rw [compactMoreItems, Utf8.encodeChars_cons, Utf8.encodeChars_append, htext]
    simp only [List.append_assoc]
    rfl

theorem compactMembers_written :
    (members : List (String × Json)) → ExactMembers members →
      ∃ body, MembersWritten members true body ∧
        Utf8.encodeChars (compactMembers members) = body ++ [0x7D]
  | [], _ => ⟨[], Blanks.nil, rfl⟩
  | (name, value) :: rest, h => by
    have hvalue := compactChars_written value h.1
    obtain ⟨more, hmore, htext⟩ := compactMoreMembers_written rest h.2
    refine ⟨_, ⟨[], _, [], [], _, more, separates_nil, quoted_written name, Blanks.nil, Blanks.nil,
      hvalue, hmore, rfl⟩, ?_⟩
    rw [compactMembers, Utf8.encodeChars_append, Utf8.encodeChars_cons, Utf8.encodeChars_append,
      htext]
    simp only [List.nil_append, List.append_assoc, List.cons_append]
    rfl

theorem compactMoreMembers_written :
    (members : List (String × Json)) → ExactMembers members →
      ∃ body, MembersWritten members false body ∧
        Utf8.encodeChars (compactMoreMembers members) = body ++ [0x7D]
  | [], _ => ⟨[], Blanks.nil, rfl⟩
  | (name, value) :: rest, h => by
    have hvalue := compactChars_written value h.1
    obtain ⟨more, hmore, htext⟩ := compactMoreMembers_written rest h.2
    refine ⟨_, ⟨[0x2C], _, [], [], _, more, separates_comma, quoted_written name, Blanks.nil,
      Blanks.nil, hvalue, hmore, rfl⟩, ?_⟩
    rw [compactMoreMembers, Utf8.encodeChars_cons, Utf8.encodeChars_append, Utf8.encodeChars_cons,
      Utf8.encodeChars_append, htext]
    simp only [List.nil_append, List.append_assoc, List.cons_append]
    rfl

end

/-! ### With a line for each item and member -/

theorem blanks_newLine (depth : Nat) : Blanks (Utf8.encodeChars (newLine depth)) := by
  intro b hb
  rw [newLine, Utf8.encodeChars_cons] at hb
  rcases List.mem_append.1 hb with hb | hb
  · obtain rfl : b = 10 := List.mem_singleton.1 hb
    decide
  · obtain ⟨c, hc, hb⟩ := List.mem_flatMap.1 hb
    obtain rfl : c = ' ' := List.eq_of_mem_replicate hc
    obtain rfl : b = 32 := List.mem_singleton.1 hb
    decide

theorem separates_newLine (depth : Nat) :
    Separates true (Utf8.encodeChars (newLine depth)) := blanks_newLine depth

theorem separates_comma_newLine (depth : Nat) :
    Separates false (0x2C :: Utf8.encodeChars (newLine depth)) :=
  ⟨[], _, Blanks.nil, blanks_newLine depth, rfl⟩

theorem blanks_space : Blanks [0x20] := by
  intro b hb
  obtain rfl : b = 0x20 := List.mem_singleton.1 hb
  decide

mutual

/-- The pretty text of a value is one of its texts. -/
theorem prettyChars_written (depth : Nat) : (value : Json) → value.Exact →
    value.WrittenAs (Utf8.encodeChars (value.prettyChars depth))
  | null, h | boolean _, h | integer _, h | float _, h | string _, h => scalar_written h nofun nofun
  | array [], _ => ⟨[], Blanks.nil, rfl⟩
  | array (item :: rest), h => by
    have hitem := prettyChars_written (depth + 1) item h.1
    obtain ⟨more, hmore, htext⟩ := prettyMoreItems_written depth rest h.2
    refine ⟨_, ⟨_, _, more, separates_newLine (depth + 1), hitem, hmore, rfl⟩, ?_⟩
    rw [prettyChars, Utf8.encodeChars_cons, Utf8.encodeChars_append, Utf8.encodeChars_append, htext]
    simp only [List.append_assoc]
    rfl
  | object [], _ => ⟨[], Blanks.nil, rfl⟩
  | object ((name, value) :: rest), h => by
    have hvalue := prettyChars_written (depth + 1) value h.1
    obtain ⟨more, hmore, htext⟩ := prettyMoreMembers_written depth rest h.2
    refine ⟨_, ⟨_, _, [], [0x20], _, more, separates_newLine (depth + 1), quoted_written name,
      Blanks.nil, blanks_space, hvalue, hmore, rfl⟩, ?_⟩
    rw [prettyChars]
    simp only [Utf8.encodeChars_cons, Utf8.encodeChars_append, htext, List.nil_append,
      List.append_assoc, List.cons_append]
    rfl

theorem prettyMoreItems_written (depth : Nat) :
    (items : List Json) → ExactItems items →
      ∃ body, ItemsWritten items false body ∧
        Utf8.encodeChars (prettyMoreItems depth items) = body ++ [0x5D]
  | [], _ => ⟨_, blanks_newLine depth, Utf8.encodeChars_append _ _⟩
  | item :: rest, h => by
    have hitem := prettyChars_written (depth + 1) item h.1
    obtain ⟨more, hmore, htext⟩ := prettyMoreItems_written depth rest h.2
    refine ⟨_, ⟨_, _, more, separates_comma_newLine (depth + 1), hitem, hmore, rfl⟩, ?_⟩
    rw [prettyMoreItems]
    simp only [Utf8.encodeChars_cons, Utf8.encodeChars_append, htext, List.append_assoc,
      List.cons_append]
    rfl

theorem prettyMoreMembers_written (depth : Nat) :
    (members : List (String × Json)) → ExactMembers members →
      ∃ body, MembersWritten members false body ∧
        Utf8.encodeChars (prettyMoreMembers depth members) = body ++ [0x7D]
  | [], _ => ⟨_, blanks_newLine depth, Utf8.encodeChars_append _ _⟩
  | (name, value) :: rest, h => by
    have hvalue := prettyChars_written (depth + 1) value h.1
    obtain ⟨more, hmore, htext⟩ := prettyMoreMembers_written depth rest h.2
    refine ⟨_, ⟨_, _, [], [0x20], _, more, separates_comma_newLine (depth + 1), quoted_written name,
      Blanks.nil, blanks_space, hvalue, hmore, rfl⟩, ?_⟩
    rw [prettyMoreMembers]
    simp only [Utf8.encodeChars_cons, Utf8.encodeChars_append, htext, List.nil_append,
      List.append_assoc, List.cons_append]
    rfl

end

end StatQuery.Json
