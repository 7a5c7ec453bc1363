import StatQuery.Text.Utf8

/-!
# The order of texts and of their bytes

Texts are compared by code points and byte lists by bytes. UTF-8 makes no difference between the two:
a greater character begins with a greater byte, or with the same bytes and then a greater one
(`encodeChar_append_lt`), so that a list in the order of its texts is in the order of their bytes
(`encode_lt_encode_iff`).
-/

namespace StatQuery.Utf8

/-- Two byte lists compare by their first bytes, and by what follows if those are equal. -/
theorem ofNat_cons_lt {a b : Nat} {xs ys : List UInt8} (hb : b < 256) (h : a ≤ b)
    (hrest : a = b → xs < ys) : UInt8.ofNat a :: xs < UInt8.ofNat b :: ys := by
  rw [List.cons_lt_cons_iff]
  rcases Nat.lt_or_eq_of_le h with hlt | rfl
  · left
    rw [UInt8.lt_iff_toNat_lt, UInt8.toNat_ofNat', UInt8.toNat_ofNat']
    omega
  · exact Or.inr ⟨rfl, hrest rfl⟩

theorem code_lt (c : Char) : c.val.toNat < 0x110000 := by
  rcases c.valid with hlow | ⟨-, hhigh⟩
  · exact Nat.lt_trans hlow (by decide)
  · exact hhigh

/-- The bytes of a character are below those of a greater one, whatever follows either. -/
theorem encodeChar_append_lt {c d : Char} (h : c < d) (xs ys : List UInt8) :
    encodeChar c ++ xs < encodeChar d ++ ys := by
  have hcode : c.val.toNat < d.val.toNat := h
  have hlast := code_lt d
  unfold encodeChar String.utf8EncodeChar
  dsimp only
  -- The splits go by the number of bytes of the first character, then of the second: the more there
  -- are, the greater is the first of them.
  split
  · repeat' split
    all_goals exact ofNat_cons_lt (by omega) (by omega) (by omega)
  · split
    · repeat' split
      · omega
      · refine ofNat_cons_lt (by omega) (by omega) fun hfirst => ?_
        exact ofNat_cons_lt (by omega) (by omega) (by omega)
      all_goals exact ofNat_cons_lt (by omega) (by omega) (by omega)
    · split
      · repeat' split
        · omega
        · omega
        · refine ofNat_cons_lt (by omega) (by omega) fun hfirst => ?_
          refine ofNat_cons_lt (by omega) (by omega) fun hsecond => ?_
          exact ofNat_cons_lt (by omega) (by omega) (by omega)
        · exact ofNat_cons_lt (by omega) (by omega) (by omega)
      · repeat' split
        · omega
        · omega
        · omega
        · refine ofNat_cons_lt (by omega) (by omega) fun hfirst => ?_
          refine ofNat_cons_lt (by omega) (by omega) fun hsecond => ?_
          refine ofNat_cons_lt (by omega) (by omega) fun hthird => ?_
          exact ofNat_cons_lt (by omega) (by omega) (by omega)

theorem encodeChars_lt {cs ds : List Char} (h : cs < ds) : encodeChars cs < encodeChars ds := by
  induction cs generalizing ds with
  | nil =>
    cases ds with
    | nil => exact absurd h (List.lt_irrefl [])
    | cons d ds =>
      rw [encodeChars_nil, encodeChars_cons]
      cases hbytes : encodeChar d ++ encodeChars ds with
      | nil => exact absurd (List.append_eq_nil_iff.1 hbytes).1 (encodeChar_ne_nil d)
      | cons b bytes => exact List.nil_lt_cons b bytes
  | cons c cs ih =>
    cases ds with
    | nil => cases h
    | cons d ds =>
      rw [encodeChars_cons, encodeChars_cons]
      rcases List.cons_lt_cons_iff.1 h with hlt | ⟨rfl, hrest⟩
      · exact encodeChar_append_lt hlt _ _
      · exact List.append_left_lt (ih hrest)

/-- Texts are in the order of their bytes. -/
theorem encode_lt_encode_iff {a b : String} : encode a < encode b ↔ a < b := by
  constructor
  · intro h
    rcases Std.lt_trichotomy a b with hlt | rfl | hgt
    · exact hlt
    · exact absurd h (List.lt_irrefl _)
    · exact absurd h (List.lt_asymm (encodeChars_lt hgt))
  · exact encodeChars_lt

end StatQuery.Utf8
